import SpokenMath.Pattern.Flags
import SpokenMath.Unicode.Lookup
import SpokenMath.Unicode.WordChars

/-!
# Escapes

Behind a backslash stands a sign that means itself, a letter for a character, a set or a place, or
a scalar value in hexadecimal digits. In verbose mode blanks and comments between the signs of an
escape do not count.
-/

namespace SpokenMath.Regex

/-! ## Blanks and comments -/

/-- The characters up to the first one that satisfies `stop`, and the rest. In verbose mode blanks
and comments are left out; `comment` holds inside a comment. -/
def gather (verbose : Bool) (stop : Char → Bool) (comment : Bool) : Text → Text × Text
  | [] => ([], [])
  | c :: t =>
    if comment then gather verbose stop (c != '\n') t
    else if verbose && isBlank c then gather verbose stop false t
    else if verbose && c == '#' then gather verbose stop true t
    else if stop c then ([], c :: t)
    else
      let (found, rest) := gather verbose stop false t
      (c :: found, rest)

/-- The text behind blanks and comments, in verbose mode. -/
def skip (verbose : Bool) (t : Text) : Text := (gather verbose (fun _ => true) false t).2

/-! ## Characters by number -/

/-- The character whose scalar value is written in hexadecimal digits. -/
def scalar? (digits : Text) : Option Char := do
  if digits.isEmpty then none
  else
    let n ← digits.foldlM (fun n c => (hexDigit? c).map (16 * n + ·)) 0
    if n.isValidChar then some (Char.ofNat n) else none

/-- So many characters in a row. -/
def firstChars? (verbose : Bool) : Nat → Text → Option (Text × Text)
  | 0, t => some ([], t)
  | n + 1, t =>
    match skip verbose t with
    | [] => none
    | c :: t => (firstChars? verbose n t).map fun (cs, rest) => (c :: cs, rest)

/-- A character given by its scalar value: in braces, or by exactly `width` digits. Tells whether
it was digits. -/
def hexChar? (verbose : Bool) (width : Nat) (t : Text) : Option ((Char × Bool) × Text) := do
  match skip verbose t with
  | '{' :: t =>
    match gather verbose (· == '}') false t with
    | (digits, '}' :: rest) => (scalar? digits).map fun c => ((c, false), rest)
    | _ => none
  | t => do
    let (digits, rest) ← firstChars? verbose width t
    (scalar? digits).map fun c => ((c, true), rest)

/-! ## Sets -/

/-- A set that goes by the name in a text: one name, or a kind and a name with `=`, `:` or `!=`
between them. Tells whether the complement is meant. -/
def property? (name : Text) : Option (CharSet × Bool) :=
  match splitAt ['!', '='] name, splitAt [':'] name, splitAt ['='] name with
  | some (kind, value), _, _ => (Unicode.valued? kind value).map (·, true)
  | _, some (kind, value), _ => (Unicode.valued? kind value).map (·, false)
  | _, _, some (kind, value) => (Unicode.valued? kind value).map (·, false)
  | _, _, _ => (Unicode.named? name).map (·, false)
where
  /-- What stands before and behind the first occurrence of a sign. -/
  splitAt (sign : Text) : Text → Option (Text × Text)
    | [] => none
    | c :: t =>
      match Text.dropPrefix? sign (c :: t) with
      | some rest => some ([], rest)
      | none => (splitAt sign t).map fun (front, rest) => (c :: front, rest)

/-- Reads a property: one letter, or a name in braces. -/
def propertySet? (f : Flags) (negated : Bool) (t : Text) : Option (CharSet × Text) := do
  if !f.unicode then none
  else
    let (name, rest) ← match skip f.verbose t with
      | '{' :: t =>
        match gather f.verbose (· == '}') false t with
        | (name, '}' :: rest) => some (name, rest)
        | _ => none
      | '\\' :: _ => none
      | c :: rest => some ([c], rest)
      | [] => none
    let (s, unequal) ← property? name
    let s ← f.asSet? (negated != unequal) s
    some (s, rest)

/-- The named classes that stand inside brackets. -/
def namedClass? (name : String) : Option CharSet :=
  match name with
  | "alnum" => some ⟨[(0x30, 0x39), (0x41, 0x5A), (0x61, 0x7A)]⟩
  | "alpha" => some ⟨[(0x41, 0x5A), (0x61, 0x7A)]⟩
  | "ascii" => some ⟨[(0x00, 0x7F)]⟩
  | "blank" => some ⟨[(0x09, 0x09), (0x20, 0x20)]⟩
  | "cntrl" => some ⟨[(0x00, 0x1F), (0x7F, 0x7F)]⟩
  | "digit" => some ⟨[(0x30, 0x39)]⟩
  | "graph" => some ⟨[(0x21, 0x7E)]⟩
  | "lower" => some ⟨[(0x61, 0x7A)]⟩
  | "print" => some ⟨[(0x20, 0x7E)]⟩
  | "punct" => some ⟨[(0x21, 0x2F), (0x3A, 0x40), (0x5B, 0x60), (0x7B, 0x7E)]⟩
  | "space" => some ⟨[(0x09, 0x0D), (0x20, 0x20)]⟩
  | "upper" => some ⟨[(0x41, 0x5A)]⟩
  | "word" => some ⟨[(0x30, 0x39), (0x41, 0x5A), (0x5F, 0x5F), (0x61, 0x7A)]⟩
  | "xdigit" => some ⟨[(0x30, 0x39), (0x41, 0x46), (0x61, 0x66)]⟩
  | _ => none

/-- A set with a letter of its own: that of all scripts, or in ASCII mode the class of this name,
which has no complement. -/
def letterSet? (f : Flags) (negated : Bool) (s : CharSet) (name : String) : Option CharSet :=
  if f.unicode then some (if negated then s.compl else s)
  else if negated then none
  else namedClass? name

/-! ## Escapes -/

/-- What an escape stands for. -/
inductive Escape
  /-- A character, and whether it is given by two hexadecimal digits. -/
  | literal (c : Char) (byte : Bool)
  | set (s : CharSet)
  | place (a : Anchor)

/-- The places next to a word that go by a name. -/
def edge? (name : String) : Option WordEdge :=
  match name with
  | "start" => some .start
  | "end" => some .stop
  | "start-half" => some .startHalf
  | "end-half" => some .stopHalf
  | _ => none

/-- Reads what follows `\b`: a name in braces for one of several places, or else nothing. -/
def wordEdge? (verbose : Bool) (t : Text) : Option (WordEdge × Text) :=
  let inName := fun (c : Char) => c.isAlpha || c == '-'
  match t with
  | '{' :: inside =>
    match gather verbose (!inName ·) false inside with
    | ([], _) => some (.boundary, t)
    | (name, '}' :: rest) => (edge? (String.ofList name)).map (·, rest)
    | _ => none
  | t => some (.boundary, t)

/-- Reads what follows a backslash. -/
def escape? (f : Flags) : Text → Option (Escape × Text)
  | [] => none
  | c :: rest =>
    let literal := fun c => some (Escape.literal c false, rest)
    let set := fun negated s name => (letterSet? f negated s name).map fun s => (.set s, rest)
    let place := fun a => some (Escape.place a, rest)
    let edge := fun e => some (Escape.place (.word e (!f.unicode)), rest)
    let hex := fun width =>
      (hexChar? f.verbose width rest).map fun ((c, fixed), rest) =>
        (.literal c (fixed && width == 2), rest)
    let property := fun negated => (propertySet? f negated rest).map fun (s, rest) => (.set s, rest)
    match c with
    | 'd' => set false .digit "digit"
    | 'D' => set true .digit "digit"
    | 's' => set false .blank "space"
    | 'S' => set true .blank "space"
    | 'w' => set false .word "word"
    | 'W' => set true .word "word"
    | 'p' => property false
    | 'P' => property true
    | 'b' => (wordEdge? f.verbose rest).map fun (e, rest) => (.place (.word e (!f.unicode)), rest)
    | 'B' => edge .noBoundary
    | '<' => edge .start
    | '>' => edge .stop
    | 'A' => place .start
    | 'z' => place .stop
    | 'a' => literal '\x07'
    | 'f' => literal '\x0c'
    | 't' => literal '\t'
    | 'n' => literal '\n'
    | 'r' => literal '\r'
    | 'v' => literal '\x0b'
    | 'x' => hex 2
    | 'u' => hex 4
    | 'U' => hex 8
    | c => if c.toNat < 0x80 && !c.isAlphanum then literal c else none

end SpokenMath.Regex
