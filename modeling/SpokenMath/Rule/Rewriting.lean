import SpokenMath.Deadline
import SpokenMath.Rule.Basic

/-!
# Rewriting

Rewriting goes through a list of rules in passes. In a **pass** every rule rewrites what the rules
before it left. There is another pass as long as the last one changed something, up to a limit on
the number of passes and on the size of the text, which is looked at after every rule that changed
it. The clock is looked at before every rule.
-/

namespace SpokenMath

/-- Limits on rewriting. -/
structure RewriteLimits where
  maxPasses : Nat := 12
  /-- By how much a text may grow. -/
  maxGrowthFactor : Nat := 8
  deriving DecidableEq, Repr, Inhabited

namespace RewriteLimits

/-- Texts up to this size are always allowed. -/
def minOutputBudget : Nat := 4096

/-- The size beyond which a text that had `size` bytes may not grow. -/
def outputBudget (l : RewriteLimits) (size : Nat) : Nat :=
  max minOutputBudget (min (size * l.maxGrowthFactor) (UInt64.size - 1))

end RewriteLimits

/-- Why rewriting stopped. -/
inductive Ending
  /-- A whole pass changed nothing. -/
  | settled
  /-- The number of passes or the size of the text reached its limit. -/
  | limit
  /-- The time was up, after this many milliseconds. -/
  | outOfTime (elapsed : Nat)
  deriving DecidableEq, Repr

/-- A text on its way through the rules. -/
structure Progress where
  text : Text
  /-- The names of the rules that changed it, in the order of their first change. -/
  applied : List String
  /-- Whether the pass under way changed it. -/
  changed : Bool
  deriving DecidableEq, Repr

/-- Notes the change that a rule made. -/
def Progress.note (p : Progress) (id : String) (text : Text) : Progress where
  text := text
  applied := if p.applied.contains id then p.applied else p.applied ++ [id]
  changed := true

/-- What rewriting came to. -/
structure Rewriting where
  text : Text
  applied : List String
  /-- The number of passes, including one that was broken off. -/
  passes : Nat
  ending : Ending
  deriving DecidableEq, Repr

namespace Rewriting

/-- A pass from a place in the list on. Answers why it was broken off, if it was. -/
def pass (deadline : Deadline) (budget number : Nat) :
    Nat → List Rule → Progress → Progress × Option Ending
  | _, [], p => (p, none)
  | place, r :: rules, p =>
    match deadline.spentAt (.rewriting number place) with
    | some elapsed => (p, some (.outOfTime elapsed))
    | none =>
      match r.rewrite? p.text with
      | none => pass deadline budget number (place + 1) rules p
      | some text =>
        if text.size > budget then (p.note r.id text, some .limit)
        else pass deadline budget number (place + 1) rules (p.note r.id text)

/-- At most so many passes after those that are done. -/
def loop (deadline : Deadline) (budget : Nat) (rules : List Rule) :
    Nat → Nat → Text → List String → Rewriting
  | 0, done, text, applied => ⟨text, applied, done, .limit⟩
  | left + 1, done, text, applied =>
    match pass deadline budget (done + 1) 0 rules ⟨text, applied, false⟩ with
    | (p, some ending) => ⟨p.text, p.applied, done + 1, ending⟩
    | (p, none) =>
      if p.changed then loop deadline budget rules left (done + 1) p.text p.applied
      else ⟨p.text, p.applied, done + 1, .settled⟩

end Rewriting

/-- Rewrites a text by rules in their order until nothing changes or a limit is reached. -/
def rewrite (rules : List Rule) (limits : RewriteLimits) (deadline : Deadline) (t : Text) :
    Rewriting :=
  Rewriting.loop deadline (limits.outputBudget t.size) rules limits.maxPasses 0 t []

end SpokenMath
