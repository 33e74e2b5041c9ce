import SpokenMath.Pattern.Syntax

/-!
# The weight of an expression

Counts multiply, so a short expression can stand for an enormous one. The **weight** of an
expression is the number of bytes that the states of its automaton take when the text is read byte
by byte, forwards or backwards, whichever is more. Expressions above a limit are refused.

A character beyond ASCII takes several bytes, so the weight of a set depends on how its ranges fall
into sequences of byte ranges.
-/

namespace SpokenMath

namespace CharSet

/-- Ranges of bytes that follow each other. -/
abbrev ByteSequence := List (Nat × Nat)

/-- A range of scalar values by the ranges of its bytes: a first byte from `lead` on, and so many
bytes of six bits each behind it, which tell the characters of a block apart. -/
def sequences (lead : Nat) : Nat → Nat → Nat → Nat → List ByteSequence
  | 0, _, lo, hi => [[(lead + lo, lead + hi)]]
  | more + 1, block, lo, hi =>
    let inside := fun (top lo hi : Nat) =>
      (sequences 0x80 more (block / 64) lo hi).map ((lead + top, lead + top) :: ·)
    let first := lo / block
    let last := hi / block
    if first = last then inside first (lo % block) (hi % block)
    else
      let (front, first) :=
        if lo % block = 0 then ([], first) else (inside first (lo % block) (block - 1), first + 1)
      let (back, stop) :=
        if hi % block = block - 1 then ([], last + 1) else (inside last 0 (hi % block), last)
      let middle :=
        if first < stop then
          [(lead + first, lead + stop - 1) :: List.replicate (more + 1) (0x80, 0xBF)]
        else []
      front ++ middle ++ back

/-- The sequences of a range, by the number of bytes that its characters take. -/
def sequencesOf (r : Nat × Nat) : List ByteSequence :=
  let part := fun (lead more block lo hi : Nat) =>
    if max lo r.1 ≤ min hi r.2 then sequences lead more block (max lo r.1) (min hi r.2) else []
  part 0 0 1 0 0x7F ++ part 0xC0 1 0x40 0x80 0x7FF ++ part 0xE0 2 0x1000 0x800 0xFFFF ++
    part 0xF0 3 0x40000 0x10000 lastScalar

/-- The number of elements behind what two lists have in common at their starts, in the second
one. -/
def newElements : ByteSequence → ByteSequence → Nat
  | a :: as, b :: bs => if a = b then newElements as bs else bs.length + 1
  | _, bs => bs.length

/-- The weight of a set. Backwards, sequences share the states of what they have in common at their
starts. -/
def weight (backwards : Bool) (s : CharSet) : Nat :=
  if s.isAscii then 64 + 8 * s.ranges.length
  else
    let all := (s \ surrogates).ranges.flatMap sequencesOf
    if backwards then
      (all.zip ([] :: all)).foldl (fun n (b, a) => n + 32 * newElements a b) (64 + 4 * all.length)
    else 100 + 20 * all.length

end CharSet

namespace Regex

/-- The weight in one direction. Only forwards are stretches remembered. -/
def weightIn (backwards : Bool) : Regex → Nat
  | empty | anchor _ => 32
  | literal t => 32 * Text.size t
  | set s => s.weight backwards
  | seq a b => a.weightIn backwards + b.weightIn backwards
  | alt a b => a.weightIn backwards + b.weightIn backwards + 36
  | loop a low none _ =>
    if low = 0 then a.weightIn backwards + (if a.nullable then 112 else 40)
    else low * a.weightIn backwards + 40
  | loop a low (some high) _ =>
    max low high * a.weightIn backwards + (high - low) * 40 + 32
  | group _ a => a.weightIn backwards + (if backwards then 0 else 64)

/-- The weight of an expression. -/
def weight (a : Regex) : Nat := max (a.weightIn true) (a.weightIn false)

/-- The largest weight of an expression. -/
def maxWeight : Nat := 10485760

end Regex

end SpokenMath
