import SpokenMath.Config.Setting
import SpokenMath.Text.Basic

/-!
# Reading TOML

Configuration files are written in TOML. A file is read statement by statement into a tree of
tables, which remembers how each table came about, because that decides whether it may be extended:
a table can be declared once, and what one kind of statement has made cannot be taken up by another.
Whatever does not read as TOML is refused as a whole.

Recursion on values is on a supply of steps, of which a text needs one for each of its characters.
-/

namespace SpokenMath.Toml

/-! ## Trees of tables -/

/-- How a table came about. -/
inductive Origin
  /-- It lies on the way to a declared one. -/
  | way
  /-- It was declared. -/
  | header
  /-- It lies on the way of a dotted key. -/
  | dotted
  deriving DecidableEq, Repr

/-- What stands under a key. -/
inductive Item
  | value (s : Setting)
  | table (origin : Origin) (fields : List (String × Item))
  /-- A list of declared tables, the last one first. -/
  | tables (items : List (List (String × Item)))

/-- The fields of a table. -/
abbrev Fields := List (String × Item)

/-- Puts an item under a key. -/
def put (key : String) (item : Item) : Fields → Fields
  | [] => [(key, item)]
  | (k, i) :: fields => if k = key then (key, item) :: fields else (k, i) :: put key item fields

mutual

/-- The settings of an item. -/
def Item.toSetting : Item → Setting
  | .value s => s
  | .table _ fields => .table (fieldSettings fields)
  | .tables items => .list (tableSettings items).reverse

/-- The settings of fields. -/
def fieldSettings : List (String × Item) → List (String × Setting)
  | [] => []
  | (k, i) :: fields => (k, i.toSetting) :: fieldSettings fields

/-- The settings of tables. -/
def tableSettings : List (List (String × Item)) → List Setting
  | [] => []
  | fields :: items => .table (fieldSettings fields) :: tableSettings items

end

/-- Puts a value under a dotted key. -/
def assign (value : Setting) : List String → Fields → Option Fields
  | [], _ => none
  | [k], fields => if (fields.lookup k).isSome then none else some (put k (.value value) fields)
  | k :: ks, fields =>
    match fields.lookup k with
    | none => (assign value ks []).map fun inner => put k (.table .dotted inner) fields
    | some (.table origin inner) =>
      if origin = .header ∨ (ks.length = 1 ∧ origin ≠ .dotted) then none
      else (assign value ks inner).map fun inner => put k (.table origin inner) fields
    | some (.tables (inner :: others)) =>
      if ks.length = 1 then none
      else (assign value ks inner).map fun inner => put k (.tables (inner :: others)) fields
    | some _ => none

/-- Changes the item under the last one of some keys, each of which leads into a table; a table on
the way is made if there is none. -/
def change (f : Option Item → Option Item) : List String → Fields → Option Fields
  | [], _ => none
  | [k], fields => (f (fields.lookup k)).map fun item => put k item fields
  | k :: ks, fields =>
    match fields.lookup k with
    | none => (change f ks []).map fun inner => put k (.table .way inner) fields
    | some (.table origin inner) =>
      (change f ks inner).map fun inner => put k (.table origin inner) fields
    | some (.tables (inner :: others)) =>
      (change f ks inner).map fun inner => put k (.tables (inner :: others)) fields
    | some _ => none

/-- Declares a table. -/
def declare : Option Item → Option Item
  | none => some (.table .header [])
  | some (.table .way fields) => some (.table .header fields)
  | _ => none

/-- Declares one more table of a list. -/
def append : Option Item → Option Item
  | none => some (.tables [[]])
  | some (.tables items) => some (.tables ([] :: items))
  | _ => none

/-- Puts a value under a dotted key of a declared table. -/
def assignIn (key : List String) (value : Setting) : Option Item → Option Item
  | some (.table origin fields) => (assign value key fields).map (.table origin)
  | some (.tables (fields :: others)) =>
    (assign value key fields).map fun fields => .tables (fields :: others)
  | _ => none

/-! ## Blanks, comments and lines -/

/-- What follows spaces and tabs. -/
def skipBlanks (t : Text) : Text := t.dropWhile fun c => c == ' ' || c == '\t'

/-- A control character that must not stand in a line. -/
def isForbidden (c : Char) : Bool := (c.toNat < 0x20 && c != '\t') || c.toNat == 0x7F

/-- What follows a line end. -/
def newline? : Text → Option Text
  | '\n' :: t => some t
  | '\r' :: '\n' :: t => some t
  | _ => none

/-- What follows a comment, if there is one. -/
def skipComment : Text → Text
  | '#' :: t => t.dropWhile (!isForbidden ·)
  | t => t

/-- What follows the rest of a line on which nothing is said. -/
def lineEnd? (t : Text) : Option Text :=
  match skipComment (skipBlanks t) with
  | [] => some []
  | t => newline? t

/-- What follows blanks, comments and line ends. -/
def skipLines : Nat → Text → Text
  | 0, t => t
  | supply + 1, t =>
    let t := skipComment (skipBlanks t)
    match newline? t with
    | some rest => skipLines supply rest
    | none => t

/-! ## Strings -/

/-- The value of hexadecimal digits. -/
def hexValue? (digits : Text) : Option Nat :=
  digits.foldlM (fun n c =>
    if c.isDigit then some (16 * n + (c.toNat - '0'.toNat))
    else if 'a' ≤ c ∧ c ≤ 'f' then some (16 * n + (c.toNat - 'a'.toNat + 10))
    else if 'A' ≤ c ∧ c ≤ 'F' then some (16 * n + (c.toNat - 'A'.toNat + 10))
    else none) 0

/-- A character given by so many hexadecimal digits. -/
def hexChar? (width : Nat) (t : Text) : Option (Char × Text) := do
  let digits := t.take width
  let n ← if digits.length = width then hexValue? digits else none
  if n.isValidChar then some (Char.ofNat n, t.drop width) else none

/-- A character given by what follows a backslash. -/
def escape? : Text → Option (Char × Text)
  | 'b' :: t => some ('\x08', t)
  | 't' :: t => some ('\t', t)
  | 'n' :: t => some ('\n', t)
  | 'f' :: t => some ('\x0c', t)
  | 'r' :: t => some ('\r', t)
  | '"' :: t => some ('"', t)
  | '\\' :: t => some ('\\', t)
  | 'u' :: t => hexChar? 4 t
  | 'U' :: t => hexChar? 8 t
  | _ => none

/-- What follows a backslash at the end of a line: the next character that is not blank. -/
def continuation? (t : Text) : Option Text :=
  (newline? (skipBlanks t)).map fun rest =>
    rest.dropWhile fun c => c == ' ' || c == '\t' || c == '\n' || c == '\r'

/-- The rest of a string on one line, up to its quote. -/
def lineString? (quote : Char) : Nat → Text → Text → Option (Text × Text)
  | 0, _, _ => none
  | supply + 1, read, t =>
    match t with
    | [] => none
    | c :: rest =>
      if c = quote then some (read.reverse, rest)
      else if c = '\\' ∧ quote = '"' then
        match escape? rest with
        | some (e, rest) => lineString? quote supply (e :: read) rest
        | none => none
      else if isForbidden c then none
      else lineString? quote supply (c :: read) rest

/-- The rest of a string over many lines, up to three quotes. Two more may stand before these. -/
def blockString? (quote : Char) : Nat → Text → Text → Option (Text × Text)
  | 0, _, _ => none
  | supply + 1, read, t =>
    match t with
    | [] => none
    | c :: rest =>
      if c = quote then
        let run := (t.takeWhile (· == quote)).length
        if run ≥ 6 then none
        else if run ≥ 3 then
          some (read.reverse ++ List.replicate (run - 3) quote, t.drop run)
        else blockString? quote supply (c :: read) rest
      else if c = '\\' ∧ quote = '"' then
        match continuation? rest with
        | some rest => blockString? quote supply read rest
        | none =>
          match escape? rest with
          | some (e, rest) => blockString? quote supply (e :: read) rest
          | none => none
      else match newline? t with
        | some rest => blockString? quote supply ('\n' :: read) rest
        | none => if isForbidden c then none else blockString? quote supply (c :: read) rest

/-- A string behind its first quote. -/
def string? (quote : Char) (t : Text) : Option (Text × Text) :=
  match t with
  | a :: b :: rest =>
    if a = quote ∧ b = quote then
      blockString? quote (rest.length + 1) [] ((newline? rest).getD rest)
    else lineString? quote (t.length + 1) [] t
  | _ => lineString? quote (t.length + 1) [] t

/-! ## Keys -/

/-- A sign of a key without quotes. -/
def isKeySign (c : Char) : Bool := c.isAlphanum || c == '_' || c == '-'

/-- A key without dots. -/
def simpleKey? (t : Text) : Option (String × Text) :=
  match t with
  | '"' :: rest => (lineString? '"' (t.length + 1) [] rest).map fun (k, r) => (String.ofList k, r)
  | '\'' :: rest =>
    (lineString? '\'' (t.length + 1) [] rest).map fun (k, r) => (String.ofList k, r)
  | _ =>
    let key := t.takeWhile isKeySign
    if key.isEmpty then none else some (String.ofList key, t.dropWhile isKeySign)

/-- A key, and what follows it and the blanks behind it. -/
def key? : Nat → Text → Option (List String × Text)
  | 0, _ => none
  | supply + 1, t => do
    let (k, rest) ← simpleKey? (skipBlanks t)
    match skipBlanks rest with
    | '.' :: rest =>
      let (ks, rest) ← key? supply rest
      some (k :: ks, rest)
    | rest => some ([k], rest)

/-! ## Numbers and dates -/

/-- The digits of a number, between which underscores may stand. -/
def digits? (isDigit : Char → Bool) (t : Text) : Option Text :=
  let parts := Text.split (· == '_') t
  if parts.all fun part => !part.isEmpty && part.all isDigit then some parts.flatten else none

/-- Digits without a needless zero in front. -/
def wholeDigits? (t : Text) : Option Text := do
  let digits ← digits? Char.isDigit t
  match digits with
  | '0' :: _ :: _ => none
  | _ => some digits

/-- The value of digits in a base. -/
def digitsValue (base : Nat) (digits : Text) : Nat :=
  digits.foldl (fun n c => base * n + (hexValue? [c]).getD 0) 0

/-- The sign of a number, and what follows it. -/
def sign (t : Text) : Bool × Text :=
  match t with
  | '-' :: t => (true, t)
  | '+' :: t => (false, t)
  | t => (false, t)

/-- A whole number of 64 bits. -/
def integer? (t : Text) : Option Setting := do
  let n : Int ← match t with
    | '0' :: 'x' :: d => (digits? (fun c => (hexValue? [c]).isSome) d).map fun d => digitsValue 16 d
    | '0' :: 'o' :: d => (digits? (fun c => '0' ≤ c && c ≤ '7') d).map fun d => digitsValue 8 d
    | '0' :: 'b' :: d => (digits? (fun c => c == '0' || c == '1') d).map fun d => digitsValue 2 d
    | _ =>
      let (negative, d) := sign t
      (wholeDigits? d).map fun d => if negative then -digitsValue 10 d else digitsValue 10 d
  if Int64.minValue.toInt ≤ n ∧ n ≤ Int64.maxValue.toInt then some (.integer n) else none

/-- The decimal number of digits and an exponent of ten. -/
def decimal (negative : Bool) (mantissa : Nat) (exponent : Int) : Option Setting :=
  let size := (toString mantissa).length
  let x : Float :=
    if mantissa = 0 ∨ exponent + size < -400 then 0
    else if exponent + size > 400 then 1 / 0
    else Float.ofScientific mantissa (exponent < 0) exponent.natAbs
  if x.isInf ∧ !negative then none else some (.decimal (if negative then -x else x))

/-- A decimal number. -/
def decimal? (t : Text) : Option Setting := do
  let (negative, t) := sign t
  if t = ['i', 'n', 'f'] then
    return .decimal (if negative then -1 / 0 else 1 / 0)
  if t = ['n', 'a', 'n'] then return .decimal (0 / 0)
  let mantissa := t.takeWhile fun c => c != 'e' && c != 'E'
  let exponent ← match t.dropWhile fun c => c != 'e' && c != 'E' with
    | [] => some (0 : Int)
    | _ :: e =>
      let (negative, e) := sign e
      (digits? Char.isDigit e).map fun d => if negative then -digitsValue 10 d else digitsValue 10 d
  let whole ← wholeDigits? (mantissa.takeWhile (· != '.'))
  let part ← match mantissa.dropWhile (· != '.') with
    | [] => if mantissa.length = t.length then none else some []
    | _ :: part => digits? Char.isDigit part
  decimal negative (digitsValue 10 (whole ++ part)) (exponent - part.length)

/-- A number of so many digits between two bounds. -/
def field? (width low high : Nat) (t : Text) : Option (Nat × Text) :=
  let d := t.take width
  let n := digitsValue 10 d
  if d.length = width ∧ d.all Char.isDigit ∧ low ≤ n ∧ n ≤ high then some (n, t.drop width)
  else none

/-- The days of a month. -/
def monthLength (year month : Nat) : Nat :=
  if month = 2 then
    if (year % 4 = 0 ∧ year % 100 ≠ 0) ∨ year % 400 = 0 then 29 else 28
  else if [4, 6, 9, 11].contains month then 30
  else 31

/-- What follows a character, if the text begins with it. -/
def after? (c : Char) : Text → Option Text
  | d :: t => if c = d then some t else none
  | [] => none

/-- What follows a date. -/
def date? (t : Text) : Option Text := do
  let (year, t) ← field? 4 0 9999 t
  let (month, t) ← field? 2 1 12 (← after? '-' t)
  let (_, t) ← field? 2 1 (monthLength year month) (← after? '-' t)
  some t

/-- What follows a time of day. -/
def time? (t : Text) : Option Text := do
  let (_, t) ← field? 2 0 23 t
  let (_, t) ← field? 2 0 59 (← after? ':' t)
  let (_, t) ← field? 2 0 60 (← after? ':' t)
  match t with
  | '.' :: t =>
    if t.head?.any Char.isDigit then some (t.dropWhile Char.isDigit) else none
  | t => some t

/-- What follows an offset from universal time, if there is one. -/
def offset? (t : Text) : Option Text :=
  match t with
  | 'Z' :: t => some t
  | 'z' :: t => some t
  | c :: t =>
    if c = '+' ∨ c = '-' then do
      let (_, t) ← field? 2 0 23 t
      let (_, t) ← field? 2 0 59 (← after? ':' t)
      some t
    else some (c :: t)
  | [] => some []

/-- What follows a date, a time of day, or both. -/
def moment? (t : Text) : Option Text :=
  match date? t with
  | none => time? t
  | some rest =>
    match rest with
    | c :: later =>
      if c = 'T' ∨ c = 't' ∨ c = ' ' then
        match time? later with
        | some rest => offset? rest
        | none => if c = ' ' then some rest else none
      else some rest
    | [] => some []

/-- A sign of a number or a word. -/
def isScalarSign (c : Char) : Bool := c.isAlphanum || c == '_' || c == '+' || c == '-' || c == '.'

/-- A truth value, a number or a date. The parts of a date are of no use here. -/
def scalar? (t : Text) : Option (Setting × Text) :=
  match moment? t with
  | some rest => some (.table [], rest)
  | none => do
    let word := t.takeWhile isScalarSign
    let s ← match String.ofList word with
      | "true" => some (Setting.boolean true)
      | "false" => some (Setting.boolean false)
      | _ => (integer? word).or (decimal? word)
    some (s, t.dropWhile isScalarSign)

/-! ## Values -/

mutual

/-- A value. -/
def value? : Nat → Text → Option (Setting × Text)
  | 0, _ => none
  | supply + 1, t =>
    match t with
    | '"' :: rest => (string? '"' rest).map fun (s, r) => (.text (String.ofList s), r)
    | '\'' :: rest => (string? '\'' rest).map fun (s, r) => (.text (String.ofList s), r)
    | '[' :: rest => items? supply [] (skipLines supply rest)
    | '{' :: rest =>
      match skipBlanks rest with
      | '}' :: rest => some (.table [], rest)
      | rest => pairs? supply [] rest
    | _ => scalar? t

/-- The items of a list, up to its closing bracket. -/
def items? : Nat → List Setting → Text → Option (Setting × Text)
  | 0, _, _ => none
  | supply + 1, read, t =>
    match t with
    | ']' :: rest => some (.list read.reverse, rest)
    | _ =>
      match value? supply t with
      | none => none
      | some (s, rest) =>
        match skipLines supply rest with
        | ',' :: rest => items? supply (s :: read) (skipLines supply rest)
        | ']' :: rest => some (.list (s :: read).reverse, rest)
        | _ => none

/-- The fields of a table in braces, up to the closing one. -/
def pairs? : Nat → Fields → Text → Option (Setting × Text)
  | 0, _, _ => none
  | supply + 1, read, t =>
    match key? supply t with
    | some (key, '=' :: rest) =>
      match value? supply (skipBlanks rest) with
      | none => none
      | some (s, rest) =>
        match assign s key read, skipBlanks rest with
        | some read, ',' :: rest => pairs? supply read rest
        | some read, '}' :: rest => some (.table (fieldSettings read), rest)
        | _, _ => none
    | _ => none

end

/-! ## Documents -/

/-- A file as far as it is read. -/
structure Reading where
  root : Fields := []
  /-- The declared table that keys belong to; none at the start of a file. -/
  current : List String := []

/-- Reads one statement. -/
def statement? (supply : Nat) (d : Reading) (t : Text) : Option (Reading × Text) :=
  match t with
  | '[' :: '[' :: rest => do
    let (key, rest) ← key? supply rest
    let rest ← (after? ']' rest).bind (after? ']')
    let root ← change append key d.root
    some (⟨root, key⟩, rest)
  | '[' :: rest => do
    let (key, rest) ← key? supply rest
    let rest ← after? ']' rest
    let root ← change declare key d.root
    some (⟨root, key⟩, rest)
  | _ => do
    let (key, rest) ← key? supply t
    let rest ← after? '=' rest
    let (s, rest) ← value? supply (skipBlanks rest)
    let root ← if d.current.isEmpty then assign s key d.root
      else change (assignIn key s) d.current d.root
    some ({ d with root }, rest)

/-- Reads statements, each on lines of its own. -/
def document? : Nat → Reading → Text → Option Reading
  | 0, _, _ => none
  | supply + 1, d, t =>
    match skipLines supply t with
    | [] => some d
    | t =>
      match statement? supply d t with
      | none => none
      | some (d, rest) =>
        match lineEnd? rest with
        | none => none
        | some rest => document? supply d rest

/-- The settings in a file. A mark of the byte order may stand in front. -/
def read? (t : Text) : Option Setting :=
  let t := match t with
    | '\ufeff' :: t => t
    | t => t
  (document? (t.length + 2) {} t).map fun d => .table (fieldSettings d.root)

end SpokenMath.Toml
