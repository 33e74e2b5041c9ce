/-!
# Limits on raw input

The limits that an input is held to before it is read as markup, and the lists of commands that the
limits speak of.
-/

namespace SpokenMath

/-- Limits on raw input. -/
structure Limits where
  /-- The longest input in bytes. -/
  maxLength : Nat := 10000
  /-- The deepest nesting of braces, brackets and parentheses. -/
  maxDepth : Nat := 48
  /-- Refuse forbidden commands; otherwise they are left out. -/
  rejectDangerous : Bool := true
  /-- The most uses of any one risky command. -/
  maxRiskyCommands : Nat := 40
  /-- The longest streak of risky commands, each nested deeper than the one before. -/
  maxNestedRisky : Nat := 6
  /-- The most subscripts and superscripts. -/
  maxScripts : Nat := 256
  /-- The highest share of script marks among the characters that are not blank. -/
  maxScriptDensity : Float := 0.4
  /-- The number of script marks from which their share is looked at. -/
  minScriptsForDensity : Nat := 24
  /-- The longest run of one character. -/
  maxCharRun : Nat := 64
  /-- The longest run of one command with only braces and blanks between its uses. -/
  maxCommandRun : Nat := 12
  /-- The largest difference between the numbers of opening and closing braces. -/
  braceTolerance : Nat := 2

/-- Commands that reach outside the text or change what later commands mean. -/
def forbiddenCommands : List String := [
  "input", "include", "includeonly", "openin", "openout", "read", "readline", "write",
  "immediate", "special", "closein", "closeout",
  "def", "edef", "gdef", "xdef", "let", "futurelet", "newcommand", "renewcommand",
  "providecommand", "newenvironment", "renewenvironment", "DeclareMathOperator",
  "DeclareRobustCommand",
  "catcode", "uccode", "lccode", "mathcode", "csname", "endcsname", "expandafter",
  "afterassignment", "aftergroup", "noexpand", "loop", "repeat", "usepackage", "makeatletter"]

/-- Commands whose repetition or nesting multiplies later work. -/
def riskyCommands : List String :=
  ["frac", "dfrac", "tfrac", "cfrac", "sqrt", "binom", "dbinom", "tbinom"]

/-- Two carets in a row stand for a character that cannot be seen. -/
def caretEscape : String := "^^"

end SpokenMath
