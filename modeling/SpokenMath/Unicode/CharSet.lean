import SpokenMath.Text.Basic

/-!
# Sets of characters

A set of characters is the list of its **ranges** of scalar values, in ascending order, with a gap
between neighbours. So a set has one form only, and two sets are equal when they have the same
characters.

Complements are taken among all scalar values, or among the values of a single byte.
-/

namespace SpokenMath

/-- A set of characters. -/
structure CharSet where
  /-- The first and the last scalar value of each range, in ascending order. -/
  ranges : List (Nat × Nat)
  deriving DecidableEq, Repr

namespace CharSet

/-- Some range contains the number. -/
def inRanges (n : Nat) : List (Nat × Nat) → Bool
  | [] => false
  | (lo, hi) :: ranges => if n < lo then false else n ≤ hi || inRanges n ranges

/-- Membership in a set. -/
def contains (s : CharSet) (c : Char) : Bool := inRanges c.toNat s.ranges

/-- Whether there is anything in a set between two scalar values, both included. -/
def meets (s : CharSet) (first last : Nat) : Bool :=
  s.ranges.any fun (lo, hi) => lo ≤ last && first ≤ hi

/-! ## Making sets -/

/-- Ranges in ascending order of their starts, with those that touch each other joined. -/
def joinRanges : List (Nat × Nat) → List (Nat × Nat)
  | [] => []
  | r :: ranges => join r ranges
where
  /-- The same with a range in front that may still grow. -/
  join (r : Nat × Nat) : List (Nat × Nat) → List (Nat × Nat)
    | [] => [r]
    | s :: ranges =>
      if s.1 ≤ r.2 + 1 then join (r.1, max r.2 s.2) ranges else r :: join s ranges

/-- A range in front of the first one that does not start before it, and what `behind` makes of the
ranges from there on. -/
def placeRange (r : Nat × Nat) (behind : List (Nat × Nat) → List (Nat × Nat)) :
    List (Nat × Nat) → List (Nat × Nat)
  | [] => r :: behind []
  | s :: ranges =>
    if r.1 ≤ s.1 then r :: behind (s :: ranges) else s :: placeRange r behind ranges

/-- Two lists of ranges in ascending order of their starts, put together in this order. -/
def mergeRanges : List (Nat × Nat) → List (Nat × Nat) → List (Nat × Nat)
  | [], others => others
  | r :: ranges, others => placeRange r (mergeRanges ranges) others

/-- The set of some ranges in any order. -/
def ofRanges (ranges : List (Nat × Nat)) : CharSet :=
  ⟨joinRanges (ranges.foldr (fun r sorted => mergeRanges [r] sorted) [])⟩

/-- No character. -/
def none : CharSet := ⟨[]⟩

/-- The characters between two, both included. -/
def range (lo hi : Char) : CharSet :=
  if lo.toNat < 0xD800 ∧ 0xDFFF < hi.toNat then ⟨[(lo.toNat, 0xD7FF), (0xE000, hi.toNat)]⟩
  else ⟨[(lo.toNat, hi.toNat)]⟩

/-- One character. -/
def single (c : Char) : CharSet := ⟨[(c.toNat, c.toNat)]⟩

/-- The characters of a list. -/
def ofList (cs : List Char) : CharSet := ofRanges (cs.map fun c => (c.toNat, c.toNat))

/-- The only character of a set. -/
def single? (s : CharSet) : Option Char :=
  match s.ranges with
  | [(lo, hi)] => if lo = hi then some (Char.ofNat lo) else .none
  | _ => .none

/-! ## Operations -/

/-- The characters of either set. -/
protected def union (a b : CharSet) : CharSet :=
  ⟨joinRanges (mergeRanges a.ranges b.ranges)⟩

instance : Union CharSet := ⟨CharSet.union⟩

/-- What lies between ranges, from a number on and up to another one. -/
def gaps (top : Nat) : Nat → List (Nat × Nat) → List (Nat × Nat)
  | start, [] => if start ≤ top then [(start, top)] else []
  | start, (lo, hi) :: ranges =>
    if start < lo then (start, lo - 1) :: gaps top (hi + 1) ranges else gaps top (hi + 1) ranges

/-- The largest scalar value. -/
def lastScalar : Nat := 0x10FFFF

/-- The numbers below the last scalar value that are no scalar values. -/
def surrogates : CharSet := ⟨[(0xD800, 0xDFFF)]⟩

/-- All other numbers up to the last scalar value. -/
def others (s : CharSet) : CharSet := ⟨gaps lastScalar 0 s.ranges⟩

/-- All other characters. -/
def compl (s : CharSet) : CharSet := others (s ∪ surrogates)

/-- All other values of a single byte. -/
def byteCompl (s : CharSet) : CharSet := ⟨gaps 0xFF 0 s.ranges⟩

/-- Every character. -/
def any : CharSet := compl none

/-- The characters in both sets. -/
protected def inter (a b : CharSet) : CharSet := others (others a ∪ others b)

instance : Inter CharSet := ⟨CharSet.inter⟩

/-- The characters of the first set that are not in the second one. -/
protected def diff (a b : CharSet) : CharSet := others (others a ∪ b)

instance : SDiff CharSet := ⟨CharSet.diff⟩

/-- Only characters of ASCII are in the set. -/
def isAscii (s : CharSet) : Bool := s.ranges.all fun r => r.2 < 0x80

end CharSet

end SpokenMath
