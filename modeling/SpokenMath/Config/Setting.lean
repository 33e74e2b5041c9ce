/-!
# Settings

A setting is a value as a configuration file holds it. A **section** names some of the fields of a
record; a field that it does not name keeps its default, and names that mean nothing are passed
over. A value of the wrong type makes the whole configuration unusable.
-/

namespace SpokenMath

/-- A value of a configuration. -/
inductive Setting
  | nothing
  | boolean (b : Bool)
  | integer (n : Int)
  | decimal (x : Float)
  | text (s : String)
  | list (items : List Setting)
  | table (fields : List (String × Setting))
  deriving Inhabited

namespace Setting

/-- A truth value. -/
def bool? : Setting → Option Bool
  | boolean b => some b
  | _ => none

/-- A number that fits into 64 bits. -/
def nat? : Setting → Option Nat
  | integer n => if 0 ≤ n ∧ n < UInt64.size then some n.toNat else none
  | _ => none

/-- A decimal number. -/
def float? : Setting → Option Float
  | integer n => some (Float.ofInt n)
  | decimal x => some x
  | _ => none

/-- A text that may be missing. -/
def optionalText? : Setting → Option (Option String)
  | nothing => some none
  | text s => some (some s)
  | _ => none

/-- A section with its fields by name. A list gives the first of them in their order. -/
def section? (names : List String) : Setting → Option (List (String × Setting))
  | table fields => some fields
  | list items => if items.length ≤ names.length then some (names.zip items) else none
  | _ => none

/-- The value of a field of a section, or its default. -/
def field {α : Type} (fields : List (String × Setting)) (name : String) (default : α)
    (read? : Setting → Option α) : Option α :=
  match fields.lookup name with
  | some s => read? s
  | none => some default

end Setting

end SpokenMath
