import SpokenMath.Unicode.CharSet

/-!
# Regular expressions

A regular expression describes stretches of a text. Among the ways in which it can match, the
first one counts: of two alternatives the left one, of a greedy repetition the longer way, and of
a lazy one the shorter way.

Expressions are put together by `concat`, `either` and `repeated`, which keep them in a plain form:
characters in a row are one literal, alternatives that are single characters are one set, and
what alternatives have in common at their start stands in front of them.
-/

namespace SpokenMath

/-- A place next to a word. -/
inductive WordEdge
  /-- Between a word character and something else. -/
  | boundary
  /-- Not a boundary. -/
  | noBoundary
  /-- A boundary in front of a word character. -/
  | start
  /-- A boundary behind a word character. -/
  | stop
  /-- Not behind a word character. -/
  | startHalf
  /-- Not in front of a word character. -/
  | stopHalf
  deriving DecidableEq, Repr

/-- A place in a text. -/
inductive Anchor
  /-- The start of the text. -/
  | start
  /-- The end of the text. -/
  | stop
  /-- The start of a line. -/
  | lineStart
  /-- The end of a line. -/
  | lineStop
  /-- The start of a line where a carriage return ends a line too. -/
  | crlfStart
  /-- The end of a line where a carriage return ends a line too. -/
  | crlfStop
  /-- A place next to a word, with word characters of ASCII alone or of all scripts. -/
  | word (edge : WordEdge) (ascii : Bool)
  deriving DecidableEq, Repr

/-- A regular expression. -/
inductive Regex
  /-- The empty stretch. -/
  | empty
  /-- These characters, of which there is at least one. -/
  | literal (t : Text)
  /-- One character of a set. -/
  | set (s : CharSet)
  /-- The empty stretch at certain places. -/
  | anchor (a : Anchor)
  /-- One after the other. -/
  | seq (a b : Regex)
  /-- The first one, or else the second one. -/
  | alt (a b : Regex)
  /-- At least and at most so many times. -/
  | loop (a : Regex) (low : Nat) (high : Option Nat) (greedy : Bool)
  /-- A stretch that is remembered under a number. -/
  | group (n : Nat) (a : Regex)
  deriving DecidableEq, Repr

namespace Regex

/-! ## What an expression matches -/

/-- Whether the empty stretch matches somewhere. -/
def nullable : Regex → Bool
  | empty | anchor _ => true
  | literal _ | set _ => false
  | seq a b => a.nullable && b.nullable
  | alt a b => a.nullable || b.nullable
  | loop a low _ _ => low == 0 || a.nullable
  | group _ a => a.nullable

/-- Whether nothing but the empty stretch can match. -/
def alwaysEmpty : Regex → Bool
  | empty | anchor _ => true
  | literal _ | set _ => false
  | seq a b | alt a b => a.alwaysEmpty && b.alwaysEmpty
  | loop a _ _ _ | group _ a => a.alwaysEmpty

/-- The characters that a match can start with. -/
def starts : Regex → CharSet
  | empty | anchor _ => .none
  | literal t => .ofList (t.take 1)
  | set s => s
  | seq a b => if a.nullable then a.starts ∪ b.starts else a.starts
  | alt a b => a.starts ∪ b.starts
  | loop a _ _ _ | group _ a => a.starts

/-- The largest number under which something is remembered. -/
def groups : Regex → Nat
  | seq a b | alt a b => max a.groups b.groups
  | loop a _ _ _ => a.groups
  | group n a => max n a.groups
  | _ => 0

/-! ## Putting expressions together -/

/-- Matches nowhere. -/
def never : Regex := set .none

/-- One character of a set. -/
def ofSet (s : CharSet) : Regex :=
  match s.single? with
  | some c => literal [c]
  | none => set s

/-- What stands one after the other in an expression. -/
def parts : Regex → List Regex
  | empty => []
  | seq a b => a.parts ++ b.parts
  | a => [a]

/-- Puts an expression in front of others. Literals flow together. -/
def glue : Regex → List Regex → List Regex
  | literal s, literal t :: rest => literal (s ++ t) :: rest
  | a, rest => a :: rest

/-- Expressions one after the other. -/
def inRow : List Regex → Regex
  | [] => empty
  | [a] => a
  | a :: rest => seq a (inRow rest)

/-- Expressions one after the other, in plain form. -/
def concat (as : List Regex) : Regex := inRow ((as.flatMap parts).foldr glue [])

/-- The alternatives of an expression. -/
def choices : Regex → List Regex
  | alt a b => a.choices ++ b.choices
  | a => [a]

/-- The first expression that matches. -/
def firstOf : List Regex → Regex
  | [] => never
  | [a] => a
  | a :: rest => alt a (firstOf rest)

/-- The character that is all of an expression. -/
def char? : Regex → Option Char
  | literal [c] => some c
  | _ => none

/-- The set that is all of an expression. -/
def set? : Regex → Option CharSet
  | set s => some s
  | _ => none

/-- Alternatives. If all are characters, or all are sets, they are one set. -/
def choose (as : List Regex) : Regex :=
  match as.flatMap choices with
  | [a] => a
  | as =>
    match as.mapM char?, as.mapM set? with
    | some cs, _ => ofSet (.ofList cs)
    | _, some sets => ofSet (sets.foldl (· ∪ ·) .none)
    | _, _ => firstOf as

/-- What two lists have in common at their starts. -/
def commonStart : List Regex → List Regex → List Regex
  | a :: as, b :: bs => if a = b then a :: commonStart as bs else []
  | _, _ => []

/-- What alternatives have in common at their starts, if each of them has several parts. -/
def sharedParts (as : List Regex) : List Regex :=
  match as.map parts with
  | ps :: rows =>
    if (ps :: rows).all (2 ≤ ·.length) then rows.foldl commonStart ps else []
  | [] => []

/-- Alternatives in plain form: what all have in common at their starts stands in front. -/
def either (as : List Regex) : Regex :=
  let as := as.flatMap choices
  match as with
  | [] | [_] => choose as
  | as =>
    let shared := sharedParts as
    if shared.isEmpty then choose as
    else concat (shared ++ [choose (as.map fun a => concat (a.parts.drop shared.length))])

/-- An expression at least and at most so many times. What is always empty is repeated once at
most. -/
def repeated (a : Regex) (low : Nat) (high : Option Nat) (greedy : Bool) : Regex :=
  let (low, high) :=
    if a.alwaysEmpty then (min low 1, some (min (high.getD 1) 1)) else (low, high)
  if low = 0 ∧ high = some 0 then empty
  else if low = 1 ∧ high = some 1 then a
  else loop a low high greedy

end Regex

end SpokenMath
