/-!
# Deadlines

A call has a budget of time. The time itself is not seen here: a deadline answers, for each
**moment** at which a call looks at the clock, whether the budget is spent by then and how much
time has passed.
-/

namespace SpokenMath

/-- The moments of a call at which it looks at the clock. -/
inductive Moment
  /-- Before the tree is read. -/
  | beforeReading
  /-- After this many steps of reading. -/
  | reading (steps : Nat)
  /-- Before a rule is tried, by the number of the pass and the place of the rule. -/
  | rewriting (pass place : Nat)
  /-- When the speech is ready. -/
  | beforeAnswer
  deriving DecidableEq, Repr

/-- A budget of time and what the clock shows. -/
structure Deadline where
  /-- The budget in milliseconds. -/
  budget : Nat
  /-- The milliseconds that have passed, at a moment at which the budget is spent. -/
  spentAt : Moment → Option Nat

namespace Deadline

/-- A budget that is never spent. -/
def never (budget : Nat) : Deadline := ⟨budget, fun _ => none⟩

/-- A budget of this many milliseconds as a call without a clock sees it: nothing is spent at once,
and anything else lasts. -/
def ofBudget (budget : Nat) : Deadline :=
  ⟨budget, fun _ => if budget = 0 then some 0 else none⟩

end Deadline

end SpokenMath
