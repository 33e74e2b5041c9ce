import SpokenMath.Rule.Rewriting

/-!
# Whole passes

A pass that is not broken off applies every rule in turn (`text_of_pass`). Rewriting that is
neither out of time nor beyond its budget stops behind such a pass (`text_of_loop`), whether it has
settled or has no passes left.
-/

namespace SpokenMath

/-- A text rewritten by rules in their order, once each. -/
def rewriteThrough (rules : List Rule) (t : Text) : Text :=
  rules.foldl (fun t r => r.rewriteAll t) t

@[simp] theorem rewriteThrough_nil (t : Text) : rewriteThrough [] t = t := rfl

@[simp] theorem rewriteThrough_cons (r : Rule) (rules : List Rule) (t : Text) :
    rewriteThrough (r :: rules) t = rewriteThrough rules (r.rewriteAll t) := rfl

theorem rewriteThrough_append (rules rules' : List Rule) (t : Text) :
    rewriteThrough (rules ++ rules') t = rewriteThrough rules' (rewriteThrough rules t) :=
  List.foldl_append

/-- The size of the text has passed the budget. -/
def Rewriting.OverBudget (budget : Nat) (r : Rewriting) : Prop :=
  r.ending = .limit ∧ budget < r.text.size

namespace Rewriting

variable {deadline : Deadline} {budget number : Nat} {rules : List Rule}

theorem rewriteAll_of_rewrite?_none {r : Rule} {t : Text} (h : r.rewrite? t = none) :
    r.rewriteAll t = t := by
  simpa [Rule.rewrite?] using h

theorem rewriteAll_of_rewrite?_some {r : Rule} {t out : Text} (h : r.rewrite? t = some out) :
    r.rewriteAll t = out := by
  simp only [Rule.rewrite?, Option.ite_none_left_eq_some, Option.some.injEq] at h
  exact h.2

/-- A pass that is not broken off applies every rule. -/
theorem text_of_pass {place : Nat} {p q : Progress}
    (h : pass deadline budget number place rules p = (q, none)) :
    q.text = rewriteThrough rules p.text := by
  induction rules generalizing place p with
  | nil =>
    cases h
    rfl
  | cons r rules ih =>
    unfold pass at h
    split at h
    · cases h
    · split at h
      · next hr => rw [ih h, rewriteThrough_cons, rewriteAll_of_rewrite?_none hr]
      · next text hr =>
        split at h
        · cases h
        · rw [ih h, rewriteThrough_cons, rewriteAll_of_rewrite?_some hr]
          rfl

/-- A pass is broken off when the time is up, or when the text has passed the budget. -/
theorem ending_of_pass {place : Nat} {p q : Progress} {ending : Ending}
    (h : pass deadline budget number place rules p = (q, some ending)) :
    (∃ elapsed moment, deadline.spentAt moment = some elapsed ∧ ending = .outOfTime elapsed) ∨
      ending = .limit ∧ budget < q.text.size := by
  induction rules generalizing place p with
  | nil => cases h
  | cons r rules ih =>
    unfold pass at h
    split at h
    · next elapsed hspent =>
      cases h
      exact .inl ⟨elapsed, _, hspent, rfl⟩
    · split at h
      · exact ih h
      · split at h
        · next hsize =>
          cases h
          exact .inr ⟨rfl, hsize⟩
        · exact ih h

section Loop

variable {left done : Nat} {t : Text} {applied : List String} {p : Progress}

/-- A pass that is broken off is the last one. -/
theorem loop_of_broken {ending : Ending}
    (h : pass deadline budget (done + 1) 0 rules ⟨t, applied, false⟩ = (p, some ending)) :
    loop deadline budget rules (left + 1) done t applied =
      ⟨p.text, p.applied, done + 1, ending⟩ := by
  simp only [loop, h]

/-- Behind a whole pass rewriting goes on if the pass has changed something. -/
theorem loop_of_whole
    (h : pass deadline budget (done + 1) 0 rules ⟨t, applied, false⟩ = (p, none)) :
    loop deadline budget rules (left + 1) done t applied =
      if p.changed then loop deadline budget rules left (done + 1) p.text p.applied
      else ⟨p.text, p.applied, done + 1, .settled⟩ := by
  simp only [loop, h]

/-- Rewriting is not out of time as long as the budget of time lasts. -/
theorem ending_of_loop (hlasts : ∀ moment, deadline.spentAt moment = none) (elapsed : Nat) :
    (loop deadline budget rules left done t applied).ending ≠ .outOfTime elapsed := by
  induction left generalizing done t applied with
  | zero => exact fun h => nomatch h
  | succ left ih =>
    rcases hpass : pass deadline budget (done + 1) 0 rules ⟨t, applied, false⟩ with ⟨p, _ | ending⟩
    · rw [loop_of_whole hpass]
      split
      · exact ih
      · exact fun h => nomatch h
    · rw [loop_of_broken hpass]
      rcases ending_of_pass hpass with ⟨_, moment, hspent, -⟩ | ⟨rfl, -⟩
      · rw [hlasts moment] at hspent
        cases hspent
      · exact fun h => nomatch h

/-- If rewriting is not cut off, none of its passes is broken off. -/
theorem whole_of_loop {r : Rewriting}
    (hr : loop deadline budget rules (left + 1) done t applied = r)
    (htime : ∀ elapsed, r.ending ≠ .outOfTime elapsed) (hsize : ¬r.OverBudget budget) :
    ∃ p, pass deadline budget (done + 1) 0 rules ⟨t, applied, false⟩ = (p, none) := by
  rcases hpass : pass deadline budget (done + 1) 0 rules ⟨t, applied, false⟩ with ⟨p, _ | ending⟩
  · exact ⟨p, rfl⟩
  · rw [loop_of_broken hpass] at hr
    subst hr
    rcases ending_of_pass hpass with ⟨elapsed, -, -, h⟩ | h
    · exact absurd h (htime elapsed)
    · exact absurd h hsize

/-- **Rewriting that is not cut off stops behind a whole pass.** -/
theorem text_of_loop {r : Rewriting}
    (hr : loop deadline budget rules (left + 1) done t applied = r)
    (htime : ∀ elapsed, r.ending ≠ .outOfTime elapsed) (hsize : ¬r.OverBudget budget) :
    ∃ s, r.text = rewriteThrough rules s := by
  induction left generalizing done t applied with
  | zero =>
    obtain ⟨p, hpass⟩ := whole_of_loop hr htime hsize
    rw [loop_of_whole hpass] at hr
    refine ⟨t, ?_⟩
    split at hr <;> rw [← hr] <;> exact text_of_pass hpass
  | succ left ih =>
    obtain ⟨p, hpass⟩ := whole_of_loop hr htime hsize
    rw [loop_of_whole hpass] at hr
    split at hr
    · exact ih hr
    · rw [← hr]
      exact ⟨t, text_of_pass hpass⟩

end Loop

end Rewriting

end SpokenMath
