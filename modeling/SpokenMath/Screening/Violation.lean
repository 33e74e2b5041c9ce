/-!
# Violations

Why an input is refused before it is read. Each cause has a name, a wording, and a hint on what to
change.
-/

namespace SpokenMath

/-- What makes an input look as if it would grow without bounds. -/
inductive Excess
  | riskyCommands (command : String) (count : Nat)
  | nestedRisky (streak : Nat)
  | scripts (count : Nat)
  | scriptDensity (marks chars : Nat)
  | repeatedChar (c : Char) (run : Nat)
  | repeatedCommand (command : String) (run : Nat)
  deriving DecidableEq, Repr

/-- The wording of an excess. -/
def Excess.message : Excess → String
  | riskyCommands command count => toString count ++ " occurrences of \\" ++ command
  | nestedRisky streak => toString streak ++ " nested fraction-like commands"
  | scripts count => toString count ++ " sub/superscripts"
  | scriptDensity marks chars =>
    toString marks ++ " sub/superscripts in " ++ toString chars ++ " characters"
  | repeatedChar c run => "'" ++ String.singleton c ++ "' repeated " ++ toString run ++ " times"
  | repeatedCommand command run =>
    "\\" ++ command ++ " repeated " ++ toString run ++ " times in a row"

/-- Why an input is refused. -/
inductive Violation
  | empty
  | tooLong (length limit : Nat)
  | forbidden (command : String)
  | tooDeep (depth limit : Nat)
  | excessive (cause : Excess)
  | unbalanced (opening closing : Nat)
  deriving DecidableEq, Repr

namespace Violation

/-- The name of the cause. -/
def kind : Violation → String
  | empty => "empty_input"
  | tooLong .. => "too_long"
  | forbidden _ => "dangerous_construct"
  | tooDeep .. => "too_deeply_nested"
  | excessive _ => "expansion_bomb_suspected"
  | unbalanced .. => "malformed_input"

/-- The wording of a violation. -/
def message : Violation → String
  | empty => "input is empty"
  | tooLong length limit =>
    "input is " ++ toString length ++ " bytes long (limit " ++ toString limit ++ ")"
  | forbidden command => "input uses the forbidden command \\" ++ command
  | tooDeep depth limit =>
    "input nests " ++ toString depth ++ " levels deep (limit " ++ toString limit ++ ")"
  | excessive cause => "input looks like an expansion bomb: " ++ cause.message
  | unbalanced opening closing =>
    "input has " ++ toString opening ++ " opening and " ++ toString closing ++ " closing braces"

/-- What to change. -/
def hint : Violation → String
  | empty => "Provide a LaTeX expression to read."
  | tooLong .. => "Split the input into smaller expressions and read them one at a time."
  | forbidden _ =>
    "Remove file access and macro definition commands; only math notation is read."
  | tooDeep .. => "Reduce the nesting of braces, brackets and parentheses."
  | excessive _ =>
    "Simplify the expression; it repeats or nests the same construct too often."
  | unbalanced .. => "Check that every opening brace has a matching closing brace."

end Violation

end SpokenMath
