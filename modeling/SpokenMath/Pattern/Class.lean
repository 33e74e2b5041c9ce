import SpokenMath.Pattern.Escape

/-!
# Classes

Brackets hold characters, ranges, sets and further brackets, which are joined, and the operators
`&&`, `--` and `~~` between what is joined, from left to right.

The **nesting** of a class counts brackets inside brackets, operators, and lists of several items.
-/

namespace SpokenMath.Regex

/-- The deepest nesting of an expression. -/
def maxNesting : Nat := 250

/-- A set with its nesting. -/
structure ClassPart where
  set : CharSet := .none
  nesting : Nat := 0

/-- How two sets are put together. -/
inductive ClassOperator
  | intersection
  | difference
  | symmetricDifference

/-- The set that an operator makes. -/
def ClassOperator.apply : ClassOperator → CharSet → CharSet → CharSet
  | intersection, a, b => a ∩ b
  | difference, a, b => a \ b
  | symmetricDifference, a, b => (a ∪ b) \ (a ∩ b)

/-- The sign of an operator at the front of a text. -/
def classOperator? : Text → Option (ClassOperator × Text)
  | '&' :: '&' :: rest => some (.intersection, rest)
  | '-' :: '-' :: rest => some (.difference, rest)
  | '~' :: '~' :: rest => some (.symmetricDifference, rest)
  | _ => none

/-- An open bracket and what has been read behind it. -/
structure Bracket where
  negated : Bool
  /-- The left side of an operator. -/
  left : Option (ClassPart × ClassOperator) := none
  /-- What has been joined since. -/
  joined : ClassPart := {}
  /-- The number of items that have been joined. -/
  count : Nat := 0

namespace Bracket

/-- Joins an item. -/
def add (b : Bracket) (p : ClassPart) : Bracket :=
  { b with
    joined := ⟨b.joined.set ∪ p.set, max b.joined.nesting p.nesting⟩
    count := b.count + 1 }

/-- Everything read so far as one part. -/
def value (f : Flags) (b : Bracket) : ClassPart :=
  let right := if b.count ≥ 2 then { b.joined with nesting := b.joined.nesting + 1 } else b.joined
  match b.left with
  | some (left, op) =>
    ⟨op.apply (f.fold left.set) (f.fold right.set), max left.nesting right.nesting + 1⟩
  | none => right

/-- Continues behind an operator. -/
def operate (f : Flags) (b : Bracket) (op : ClassOperator) : Bracket :=
  { negated := b.negated, left := some (b.value f, op) }

end Bracket

/-- Reads the front of a class behind its opening bracket: a sign of negation, and hyphens or a
closing bracket that stand for themselves. -/
def openBracket (verbose : Bool) (t : Text) : Bracket × Text :=
  let (negated, t) := match skip verbose t with
    | '^' :: t => (true, t)
    | t => (false, t)
  let (hyphens, t) := gather verbose (· != '-') false t
  let b := hyphens.foldl (fun b c => b.add { set := .single c }) ({ negated } : Bracket)
  match hyphens, t with
  | [], ']' :: t => (b.add { set := .single ']' }, t)
  | _, t => (b, t)

/-- Reads a named class behind its opening bracket and colon. -/
def innerClass? (f : Flags) (t : Text) : Option (Option CharSet × Text) := do
  let (negated, t) := match t with
    | '^' :: t => (true, t)
    | t => (false, t)
  let s ← namedClass? (String.ofList (t.takeWhile (· != ':')))
  match t.dropWhile (· != ':') with
  | ':' :: ']' :: rest => some (f.asSet? negated s, rest)
  | _ => none

/-- Reads one character or set inside brackets. -/
def classAtom? (f : Flags) (t : Text) : Option (Escape × Text) :=
  match t with
  | [] => none
  | '\\' :: rest => escape? f rest
  | c :: rest => some (.literal c false, rest)

/-- A character inside brackets. In ASCII mode it is a single byte. -/
def classChar? (f : Flags) : Escape → Option Char
  | .literal c byte => if f.unicode || byte || c.toNat < 0x80 then some c else none
  | _ => none

/-- The character behind a hyphen; in verbose mode blanks and the sign of a comment do not count. -/
def behindHyphen (verbose : Bool) (t : Text) : Option Char :=
  if verbose then
    match t.dropWhile isBlank with
    | '#' :: t => (t.dropWhile isBlank).head?
    | t => t.head?
  else t.head?

/-- Reads a single item inside brackets: a character, a set, or a range of characters. -/
def classItem? (f : Flags) (t : Text) : Option (CharSet × Text) := do
  let (low, rest) ← classAtom? f t
  let rest := skip f.verbose rest
  let range := match rest with
    | '-' :: t => behindHyphen f.verbose t != some ']' && behindHyphen f.verbose t != some '-'
    | _ => false
  if range then
    let (high, rest) ← classAtom? f (skip f.verbose (rest.drop 1))
    let low ← classChar? f low
    let high ← classChar? f high
    if low ≤ high then some (.range low high, rest) else none
  else
    match low with
    | .set s => some (s, rest)
    | low => (classChar? f low).map fun c => (.single c, rest)

/-- Reads a class, given the brackets that are open, the innermost one first. The recursion is on
a supply of steps, one for each character. -/
def readClass (f : Flags) : Nat → Bracket → List Bracket → Text → Option (ClassPart × Text)
  | 0, _, _, _ => none
  | supply + 1, b, outer, t =>
    match skip f.verbose t with
    | [] => none
    | ']' :: rest => do
      let value := b.value f
      let part : ClassPart := ⟨← f.asSet? b.negated value.set, value.nesting + 1⟩
      if part.nesting > maxNesting then none
      else
        match outer with
        | [] => some (part, rest)
        | b :: outer => readClass f supply (b.add part) outer rest
    | '[' :: rest =>
      let named := match rest with
        | ':' :: rest => innerClass? f rest
        | _ => none
      match named with
      | some (s, rest) => do readClass f supply (b.add { set := ← s }) outer rest
      | none =>
        let (inner, rest) := openBracket f.verbose rest
        readClass f supply inner (b :: outer) rest
    | t =>
      match classOperator? t with
      | some (op, rest) => readClass f supply (b.operate f op) outer rest
      | none => do
        let (s, rest) ← classItem? f t
        readClass f supply (b.add { set := s }) outer rest

/-- Reads a class behind its opening bracket. -/
def class? (f : Flags) (t : Text) : Option (ClassPart × Text) :=
  let (b, rest) := openBracket f.verbose t
  readClass f (rest.length + 1) b [] rest

end SpokenMath.Regex
