/-!
# Notices

Findings that do not stop a call. They come from every stage and are returned beside the speech.
-/

namespace SpokenMath

/-- How much a notice weighs. -/
inductive Severity
  | info
  | warning
  deriving DecidableEq, Repr

/-- The name of a severity. -/
def Severity.name : Severity → String
  | info => "info"
  | warning => "warning"

/-- A finding that does not stop a call. -/
inductive Notice
  /-- A command with no known shape, read out by name. -/
  | unknownCommand (name : String)
  /-- Braces or brackets did not balance. -/
  | unbalancedDelimiter
  /-- An environment was opened and not closed. -/
  | unterminatedEnvironment (name : String)
  /-- An environment was closed that was not open. -/
  | strayEnd (name : String)
  /-- A document structure was closed that is not the innermost one. -/
  | mismatchedClose (expected found : String)
  /-- Too many document structures are open; the outermost was dropped. -/
  | structureOverflow
  /-- A symbol has a new meaning. -/
  | symbolRedefined (symbol previous current : String)
  /-- A symbol is used without a meaning. -/
  | undefinedSymbol (symbol : String)
  /-- Rewriting stopped at a limit. -/
  | rewriteLimit
  deriving DecidableEq, Repr

namespace Notice

/-- An undefined symbol is mere information. -/
def severity : Notice → Severity
  | undefinedSymbol _ => .info
  | _ => .warning

/-- Whether the notice is a warning. -/
def isWarning (n : Notice) : Bool := n.severity == .warning

/-- The wording of a notice. -/
def message : Notice → String
  | unknownCommand name => "unknown command \\" ++ name ++ " was read out by name"
  | unbalancedDelimiter => "unbalanced delimiters were closed automatically"
  | unterminatedEnvironment name => "environment '" ++ name ++ "' was not closed"
  | strayEnd name => "\\end\x7b" ++ name ++ "\x7d has no matching \\begin"
  | mismatchedClose expected found =>
    "tried to close '" ++ expected ++ "' but '" ++ found ++ "' is open"
  | structureOverflow => "too many open document structures; the oldest was dropped"
  | symbolRedefined symbol previous current =>
    "symbol '" ++ symbol ++ "' redefined (was '" ++ previous ++ "', now '" ++ current ++ "')"
  | undefinedSymbol symbol => "undefined symbol '" ++ symbol ++ "'"
  | rewriteLimit => "rewriting stopped at its pass or growth limit"

/-- The wording with the severity in front. -/
def render (n : Notice) : String := n.severity.name ++ ": " ++ n.message

end Notice

end SpokenMath
