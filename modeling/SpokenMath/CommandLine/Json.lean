/-!
# Printing JSON

Documents and their two printed forms: on one line without spaces, and over many lines with two
spaces for each level.
-/

namespace SpokenMath

/-- A JSON document. The fields of a record are printed in their order. -/
inductive Document
  | text (s : String)
  | number (n : Int)
  | boolean (b : Bool)
  | list (items : List Document)
  | record (fields : List (String × Document))

namespace Document

/-! ## Strings -/

/-- A character as it stands inside quotes. -/
def escapeChar (c : Char) : List Char :=
  if c = '"' then ['\\', '"']
  else if c = '\\' then ['\\', '\\']
  else if c = '\n' then ['\\', 'n']
  else if c = '\r' then ['\\', 'r']
  else if c = '\t' then ['\\', 't']
  else if c = '\x08' then ['\\', 'b']
  else if c = '\x0c' then ['\\', 'f']
  else if c.toNat < 0x20 then
    ['\\', 'u', '0', '0', Nat.digitChar (c.toNat / 16), Nat.digitChar (c.toNat % 16)]
  else [c]

/-- A string in quotes. -/
def quote (s : String) : String :=
  String.ofList ('"' :: s.toList.flatMap escapeChar ++ ['"'])

/-! ## On one line -/

mutual

/-- A document on one line. -/
def compact : Document → String
  | text s => quote s
  | number n => toString n
  | boolean b => toString b
  | list items => "[" ++ ",".intercalate (compactItems items) ++ "]"
  | record fields => "\x7b" ++ ",".intercalate (compactFields fields) ++ "\x7d"

/-- The items of a list, each on one line. -/
def compactItems : List Document → List String
  | [] => []
  | d :: ds => compact d :: compactItems ds

/-- The fields of a record, each on one line. -/
def compactFields : List (String × Document) → List String
  | [] => []
  | (k, d) :: fields => (quote k ++ ":" ++ compact d) :: compactFields fields

end

/-! ## Over many lines -/

/-- The start of a line at a level. -/
def margin (level : Nat) : String := String.ofList (List.replicate (2 * level) ' ')

/-- Parts between an opening and a closing sign, each on a line of its own. -/
def block (level : Nat) (opening closing : String) (parts : List String) : String :=
  if parts.isEmpty then opening ++ closing
  else
    let lines := parts.map fun part => margin (level + 1) ++ part
    opening ++ "\n" ++ ",\n".intercalate lines ++ "\n" ++ margin level ++ closing

mutual

/-- A document over many lines, at a level. -/
def pretty (level : Nat) : Document → String
  | text s => quote s
  | number n => toString n
  | boolean b => toString b
  | list items => block level "[" "]" (prettyItems (level + 1) items)
  | record fields => block level "\x7b" "\x7d" (prettyFields (level + 1) fields)

/-- The items of a list. -/
def prettyItems (level : Nat) : List Document → List String
  | [] => []
  | d :: ds => pretty level d :: prettyItems level ds

/-- The fields of a record. -/
def prettyFields (level : Nat) : List (String × Document) → List String
  | [] => []
  | (k, d) :: fields => (quote k ++ ": " ++ pretty level d) :: prettyFields level fields

end

end Document

end SpokenMath
