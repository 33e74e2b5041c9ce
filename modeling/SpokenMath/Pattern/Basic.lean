import SpokenMath.Pattern.Matching
import SpokenMath.Pattern.Reader

/-!
# Patterns

A pattern is a regular expression together with its source and its program.
-/

namespace SpokenMath

/-- A regular expression together with its source. -/
structure Pattern where
  source : String
  regex : Regex
  program : Program
  program_eq : program = regex.program
  deriving DecidableEq, Repr

namespace Pattern

/-- The pattern of an expression. -/
def ofRegex (source : String) (regex : Regex) : Pattern := ⟨source, regex, regex.program, rfl⟩

/-- The pattern with this source, if it reads as a regular expression. -/
def ofSource? (source : String) : Option Pattern :=
  (Regex.read? source.toList).map (ofRegex source)

/-- The pattern with this source; one that does not read as a regular expression matches nowhere. -/
def ofSource (source : String) : Pattern :=
  ofRegex source ((Regex.read? source.toList).getD .never)

/-- The pattern that a table writes with angle quotes for braces. -/
def ofTable (source : String) : Pattern := ofSource (String.ofList (braced source))

/-- The first match in a text. -/
def find? (p : Pattern) (t : Text) : Option Match := p.program.find? t

/-- Whether there is a match in a text. -/
def isMatch (p : Pattern) (t : Text) : Bool := (p.find? t).isSome

/-- The matches in a text, from left to right. -/
def matches' (p : Pattern) (t : Text) : List Match := p.program.matches' t

/-- The text with every match replaced. -/
def replaceAll (p : Pattern) (render : Match → Text) (t : Text) : Text :=
  p.program.replaceAll render t

/-- The stretches that are remembered in a match, from the first one on; one that took no part is
empty. -/
def groupsOf (p : Pattern) (m : Match) : List Text :=
  (List.range p.regex.groups).map fun i => (m.group? (i + 1)).getD []

end Pattern

end SpokenMath
