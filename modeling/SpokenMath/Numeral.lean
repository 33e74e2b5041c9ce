import SpokenMath.Text.Basic

/-!
# Numbers in words

Small cardinals, ordinals and fractions. The words are separated by spaces and never by hyphens.
-/

namespace SpokenMath.Numeral

/-- The cardinals below twenty. -/
def ones : List String :=
  ["zero", "one", "two", "three", "four", "five", "six", "seven", "eight", "nine", "ten",
    "eleven", "twelve", "thirteen", "fourteen", "fifteen", "sixteen", "seventeen", "eighteen",
    "nineteen"]

/-- The tens, from zero on. -/
def tens : List String :=
  ["", "", "twenty", "thirty", "forty", "fifty", "sixty", "seventy", "eighty", "ninety"]

/-- The ordinals below twenty. -/
def ordinalOnes : List String :=
  ["zeroth", "first", "second", "third", "fourth", "fifth", "sixth", "seventh", "eighth",
    "ninth", "tenth", "eleventh", "twelfth", "thirteenth", "fourteenth", "fifteenth",
    "sixteenth", "seventeenth", "eighteenth", "nineteenth"]

/-- The ordinals of the tens, from zero on. -/
def ordinalTens : List String :=
  ["", "", "twentieth", "thirtieth", "fortieth", "fiftieth", "sixtieth", "seventieth",
    "eightieth", "ninetieth"]

/-- The entry of a table of words. -/
def word (table : List String) (n : Nat) : Text := table.getD n ""

/-- The cardinal of a number below one hundred. -/
def smallCardinal (n : Nat) : Text :=
  if n < 20 then word ones n
  else if n % 10 = 0 then word tens (n / 10)
  else word tens (n / 10) ++ " " ++ word ones (n % 10)

/-- The cardinal of a number, in words below one thousand and in digits from there on. -/
def cardinal (n : Nat) : Text :=
  if n < 100 then smallCardinal n
  else if n < 1000 then
    if n % 100 = 0 then word ones (n / 100) ++ " hundred"
    else word ones (n / 100) ++ " hundred " ++ smallCardinal (n % 100)
  else toString n

/-- The letters behind the digits of an ordinal. -/
def ordinalSuffix (n : Nat) : String :=
  if 11 ≤ n % 100 ∧ n % 100 ≤ 13 then "th"
  else match n % 10 with
    | 1 => "st"
    | 2 => "nd"
    | 3 => "rd"
    | _ => "th"

/-- The ordinal of a number, in words below one hundred and in digits from there on. -/
def ordinal (n : Nat) : Text :=
  if n < 20 then word ordinalOnes n
  else if n < 100 then
    if n % 10 = 0 then word ordinalTens (n / 10)
    else word tens (n / 10) ++ " " ++ word ordinalOnes (n % 10)
  else toString n ++ ordinalSuffix n

/-- The value of a row of decimal digits. -/
def digitsValue (digits : Text) : Nat :=
  digits.foldl (fun n c => 10 * n + (c.toNat - '0'.toNat)) 0

/-- Reads a decimal number of 32 bits. One plus sign may stand in front. -/
def read? (t : Text) : Option Nat :=
  let digits := match t with
    | '+' :: digits => digits
    | digits => digits
  if digits.isEmpty || !digits.all Char.isDigit then none
  else
    let n := digitsValue digits
    if n < UInt32.size then some n else none

/-- The ordinal for an exponent: of a number, or of a single letter. -/
def ordinalFor? (exponent : Text) : Option Text :=
  let e := exponent.trim
  match read? e with
  | some n => some (ordinal n)
  | none =>
    match e with
    | [c] => if c.isAlpha then some (c :: "th") else none
    | _ => none

/-- What the parts of a fraction are called; the denominator is from two to twenty. -/
def partName (denominator : Nat) (plural : Bool) : Text :=
  if denominator = 2 then if plural then "halves" else "half"
  else if denominator = 4 then if plural then "quarters" else "quarter"
  else if plural then ordinal denominator ++ "s" else ordinal denominator

/-- A fraction of small whole numbers in words. -/
def fraction? (numerator denominator : Text) : Option Text :=
  match read? numerator.trim, read? denominator.trim with
  | some n, some d =>
    if 2 ≤ d ∧ d ≤ 20 ∧ n ≤ 99 then some (cardinal n ++ " " ++ partName d (n != 1)) else none
  | _, _ => none

end SpokenMath.Numeral
