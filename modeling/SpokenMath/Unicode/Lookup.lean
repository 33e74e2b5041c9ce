import SpokenMath.Unicode.Age
import SpokenMath.Unicode.Boundary
import SpokenMath.Unicode.ScriptExtension

/-!
# Sets by name

A set of characters is asked for by a name alone (`Greek`, `Lu`, `Alphabetic`) or by the kind of
the set and a name within that kind (`Script` and `Greek`). Case, blanks, underscores and hyphens in
names do not matter, and neither does `is` in front of them.
-/

namespace SpokenMath.Unicode

/-- A name as tables write it. What lies beyond ASCII is left out; "isc" is a name of its own. -/
def normalize (name : Text) : String :=
  let plain := fun (t : Text) =>
    (t.filter fun c => c.toNat < 0x80 && c != ' ' && c != '_' && c != '-').map Char.toLower
  String.ofList <|
    match name with
    | i :: s :: rest =>
      if i.toLower = 'i' ∧ s.toLower = 's' then
        if plain rest = ['c'] then ['i', 's', 'c'] else plain rest
      else plain name
    | _ => plain name

/-- Names that mean a category although properties go by them as well. -/
def isCategoryFirst (name : String) : Bool := name == "cf" || name == "sc" || name == "lc"

/-- The set that goes by a name alone: a property, a category or a script. -/
def named? (name : Text) : Option CharSet :=
  let name := normalize name
  let property := if isCategoryFirst name then none else find? Property.table name
  ((property.or (find? Category.table name)).or (find? scripts name)).map Recipe.set

/-- The set of a kind that goes by a name. -/
def valued? (kind value : Text) : Option CharSet :=
  let value := normalize value
  match normalize kind with
  | "gc" | "generalcategory" => (find? Category.table value).map Recipe.set
  | "sc" | "script" => (find? scripts value).map Recipe.set
  | "scx" | "scriptextensions" => scriptExtension? value
  | "age" => age? value
  | "gcb" | "graphemeclusterbreak" => (find? Grapheme.table value).map Recipe.set
  | "wb" | "wordbreak" => (find? Word.table value).map Recipe.set
  | "sb" | "sentencebreak" => (find? Sentence.table value).map Recipe.set
  | _ => none

end SpokenMath.Unicode
