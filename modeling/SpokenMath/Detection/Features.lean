import SpokenMath.Markup.Canonical
import SpokenMath.Pattern.Basic

/-!
# Features and clues

What is known of an expression before its domain is: the commands, environments and words that
occur in it, and its canonical text. A **clue** asks for one of them.
-/

namespace SpokenMath

/-- What is known of an expression. -/
structure Features where
  /-- The names of the commands. -/
  commands : List String
  /-- The names of the environments, without stars behind them. -/
  environments : List String
  /-- The words of the literal text, with ASCII capitals made small. -/
  words : List String
  /-- The canonical text. -/
  text : Text
  deriving Repr

namespace Features

/-- The runs of ASCII letters in a text, made small. -/
def wordsOf (t : Text) : List String :=
  ((Text.split (!·.isAlpha) t).filter (!·.isEmpty)).map fun w => String.ofList (Text.lower w)

/-- The features of a tree. -/
def ofTree (tree : Node) : Features where
  commands := tree.commandNames.eraseDups
  environments := (tree.nodes.filterMap fun
    | .environment name _ => some (String.ofList (Text.trimEndOf '*' name.toList))
    | _ => none).eraseDups
  words := (tree.nodes.flatMap fun
    | .leaf t => wordsOf t
    | _ => []).eraseDups
  text := tree.linearize

end Features

/-- Something to look for in an expression. -/
inductive Clue
  /-- One of these commands. -/
  | command (names : List String)
  /-- One of these words. -/
  | word (words : List String)
  /-- One of these environments. -/
  | environment (names : List String)
  /-- A part of the canonical text, with angle quotes for braces. -/
  | text (part : String)
  /-- A match in the canonical text. -/
  | pattern (p : Pattern)
  /-- Two clues at once. -/
  | both (a b : Clue)
  deriving Repr

namespace Clue

/-- Whether a clue is found. -/
def found (f : Features) : Clue → Bool
  | command names => names.any f.commands.contains
  | word words => words.any f.words.contains
  | environment names => names.any f.environments.contains
  | text part => Text.contains (braced part) f.text
  | pattern p => p.isMatch f.text
  | both a b => a.found f && b.found f

/-- The first entry of a table of which some clue is found. -/
def first? {α : Type} (table : List (α × List Clue)) (f : Features) : Option α :=
  (table.find? fun (_, clues) => clues.any (found f)).map Prod.fst

end Clue

end SpokenMath
