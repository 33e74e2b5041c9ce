import SpokenMath.Unicode.CharSet

/-!
# Character tables

A table describes a set of characters by a **recipe**: by runs of scalar values, or from other
recipes. A recipe is only followed when its set is asked for.

Runs are written in hexadecimal digits with blanks between them: `41` is one character, `41-5A` all
characters from one to another, and `100-136/2` every second one of them.
-/

namespace SpokenMath.Unicode

/-- How a set of characters is made. -/
inductive Recipe
  /-- The characters of some runs. -/
  | runs (t : String)
  /-- The characters of either set. -/
  | union (a b : Recipe)
  /-- The characters of the first set that are not in the second one. -/
  | diff (a b : Recipe)
  /-- The other characters. -/
  | compl (a : Recipe)

namespace Recipe

instance : Union Recipe := ⟨union⟩

instance : SDiff Recipe := ⟨diff⟩

/-- Runs are written as a string. -/
instance : Coe String Recipe := ⟨runs⟩

/-- Reads the hexadecimal digits at the front of a text, behind a number read so far. -/
def number (n : Nat) : Text → Nat × Text
  | [] => (n, [])
  | c :: t =>
    match hexDigit? c with
    | some d => number (16 * n + d) t
    | none => (n, c :: t)

/-- The ranges of one run. -/
def run (t : Text) : List (Nat × Nat) :=
  let (first, t) := number 0 t
  match t with
  | '-' :: t =>
    let (last, t) := number 0 t
    match t with
    | '/' :: t =>
      let step := (number 0 t).1
      (List.range ((last - first) / step + 1)).map fun i => (first + i * step, first + i * step)
    | _ => [(first, last)]
  | _ => [(first, first)]

/-- The set that a recipe makes. -/
def set : Recipe → CharSet
  | runs t => .ofRanges ((Text.words t.toList).flatMap run)
  | union a b => a.set ∪ b.set
  | diff a b => a.set \ b.set
  | compl a => a.set.compl

/-- Whether a character is in the set that a recipe makes. -/
def contains (r : Recipe) (c : Char) : Bool :=
  match r with
  | runs t => (CharSet.ofRanges ((Text.words t.toList).flatMap run)).contains c
  | union a b => a.contains c || b.contains c
  | diff a b => a.contains c && !b.contains c
  | compl a => !a.contains c

end Recipe

/-- A set that goes by some names, written in small letters without blanks and hyphens. -/
structure Named where
  names : List String
  recipe : Recipe

/-- The recipe of this name in a table. -/
def find? (table : List Named) (name : String) : Option Recipe :=
  (table.find? (·.names.contains name)).map (·.recipe)

end SpokenMath.Unicode
