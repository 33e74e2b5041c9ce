import Mathlib.Logic.Function.Iterate
import SpokenMath.Proofs.Lists
import SpokenMath.Proofs.Rule.Passes

/-!
# Pass after pass

Rewriting repeats whole passes. As long as the time lasts it can end in three ways: a pass has
changed nothing (`Settles`), there are no passes left (`RunsOut`), or a rule has made the text
longer than its budget, which breaks the pass off (`Outgrows`).

**Theorem (`rewrite_outcome`).** Rewriting ends in one of these ways, with the text that the
passes before have made, and the rules that it names are those that have changed the text, in the
order of their first change.

The proof is by induction on the passes that are left (`ends_of_loop`), with what one pass does as
its step (`pass_cases`). The names noted so far are always the different ones among all that have
changed the text until then, which is what the induction carries along.
-/

namespace SpokenMath

/-- The names of the rules that change a text on its way through them, in order. -/
def changesThrough : List Rule → Text → List String
  | [], _ => []
  | r :: rules, t =>
    match r.rewrite? t with
    | none => changesThrough rules t
    | some u => r.id :: changesThrough rules u

/-- The names of the rules that change a text in so many passes, in order. -/
def changesIn (rules : List Rule) : Nat → Text → List String
  | 0, _ => []
  | n + 1, t => changesThrough rules t ++ changesIn rules n (rewriteThrough rules t)

namespace Rewriting

/-- A pass has changed nothing. The passes include this one. -/
structure Settles (rules : List Rule) (limits : RewriteLimits) (t : Text) (r : Rewriting) :
    Prop where
  ending : r.ending = .settled
  passes_pos : 1 ≤ r.passes
  passes_le : r.passes ≤ limits.maxPasses
  text : r.text = (rewriteThrough rules)^[r.passes - 1] t
  normal : ∀ rule ∈ rules, rule.rewrite? r.text = none
  applied : r.applied = (changesIn rules r.passes t).eraseDups

/-- There are no passes left, and each of them has changed something. -/
structure RunsOut (rules : List Rule) (limits : RewriteLimits) (t : Text) (r : Rewriting) :
    Prop where
  ending : r.ending = .limit
  passes : r.passes = limits.maxPasses
  text : r.text = (rewriteThrough rules)^[limits.maxPasses] t
  busy : ∀ i < limits.maxPasses, changesThrough rules ((rewriteThrough rules)^[i] t) ≠ []
  applied : r.applied = (changesIn rules limits.maxPasses t).eraseDups

/-- A rule has made the text longer than its budget. The passes include the one that is broken off
behind this rule. -/
structure Outgrows (rules : List Rule) (limits : RewriteLimits) (t : Text) (r : Rewriting) :
    Prop where
  ending : r.ending = .limit
  passes_pos : 1 ≤ r.passes
  passes_le : r.passes ≤ limits.maxPasses
  beyond : limits.outputBudget t.size < r.text.size
  last : ∃ before rule after u, rules = before ++ rule :: after ∧
    u = rewriteThrough before ((rewriteThrough rules)^[r.passes - 1] t) ∧
    rule.rewrite? u = some r.text ∧ u.size ≤ max (limits.outputBudget t.size) t.size ∧
    r.applied = (changesIn rules (r.passes - 1) t ++
      changesThrough (before ++ [rule]) ((rewriteThrough rules)^[r.passes - 1] t)).eraseDups

/-! ## One rule -/

theorem getD_rewrite? (r : Rule) (t : Text) : (r.rewrite? t).getD t = r.rewriteAll t := by
  cases h : r.rewrite? t with
  | none => exact (rewriteAll_of_rewrite?_none h).symm
  | some u => exact (rewriteAll_of_rewrite?_some h).symm

/-- The names noted are the different ones among those that have changed the text. -/
theorem note_eraseDups {t u : Text} {trail : List String} {changed : Bool} (id : String) :
    Progress.note ⟨t, trail.eraseDups, changed⟩ id u = ⟨u, (trail ++ [id]).eraseDups, true⟩ := by
  simp only [Progress.note, List.contains_iff_mem, List.mem_eraseDups, eraseDups_concat]

/-! ## One pass -/

section Pass

variable {rules : List Rule} {r : Rule} {t u : Text}

theorem changesThrough_of_none (h : r.rewrite? t = none) :
    changesThrough (r :: rules) t = changesThrough rules t := by
  simp only [changesThrough, h]

theorem changesThrough_of_some (h : r.rewrite? t = some u) :
    changesThrough (r :: rules) t = r.id :: changesThrough rules u := by
  simp only [changesThrough, h]

/-- Rules that change nothing on the way have nothing to change. -/
theorem changesThrough_eq_nil_iff :
    changesThrough rules t = [] ↔ ∀ r ∈ rules, r.rewrite? t = none := by
  induction rules with
  | nil => simp [changesThrough]
  | cons r rules ih =>
    cases h : r.rewrite? t with
    | none => simp [changesThrough_of_none h, h, ih]
    | some u => simp [changesThrough_of_some h, h]

theorem rewriteThrough_of_changesThrough (h : changesThrough rules t = []) :
    rewriteThrough rules t = t := by
  rw [changesThrough_eq_nil_iff] at h
  induction rules with
  | nil => rfl
  | cons r rules ih =>
    obtain ⟨hr, hrules⟩ := List.forall_mem_cons.mp h
    rw [rewriteThrough_cons, rewriteAll_of_rewrite?_none hr, ih hrules]

/-- What a pass from a text on does, if the time lasts: it applies every rule, or it is broken off
behind the first rule that makes the text longer than its budget. -/
inductive PassesTo (budget : Nat) (rules : List Rule) (t : Text) (trail : List String)
    (changed : Bool) : Progress × Option Ending → Prop
  | whole (hsize : (rewriteThrough rules t).size ≤ max budget t.size) :
      PassesTo budget rules t trail changed
        (⟨rewriteThrough rules t, (trail ++ changesThrough rules t).eraseDups,
          changed || !(changesThrough rules t).isEmpty⟩, none)
  | broken {before rule after u} (hrules : rules = before ++ rule :: after)
      (hrewrite : rule.rewrite? (rewriteThrough before t) = some u)
      (hsize : (rewriteThrough before t).size ≤ max budget t.size) (hbeyond : budget < u.size) :
      PassesTo budget rules t trail changed
        (⟨u, (trail ++ changesThrough (before ++ [rule]) t).eraseDups, true⟩, some .limit)

/-- A rule that changes nothing goes before. -/
theorem PassesTo.cons_of_none {budget : Nat} {trail : List String} {changed : Bool}
    {q : Progress × Option Ending} (h : PassesTo budget rules t trail changed q)
    (hr : r.rewrite? t = none) : PassesTo budget (r :: rules) t trail changed q := by
  have hall := rewriteAll_of_rewrite?_none hr
  cases h with
  | whole hsize =>
    rw [← changesThrough_of_none hr]
    have hthrough : rewriteThrough rules t = rewriteThrough (r :: rules) t := by
      rw [rewriteThrough_cons, hall]
    rw [hthrough] at hsize ⊢
    exact .whole hsize
  | @broken before rule after u hrules hrewrite hsize hbeyond =>
    have hthrough : rewriteThrough before t = rewriteThrough (r :: before) t := by
      rw [rewriteThrough_cons, hall]
    rw [hthrough] at hrewrite hsize
    rw [← changesThrough_of_none hr, ← List.cons_append]
    exact .broken (by rw [hrules, List.cons_append]) hrewrite hsize hbeyond

/-- A rule that changes the text within its budget goes before. -/
theorem PassesTo.cons_of_some {budget : Nat} {trail : List String} {changed : Bool}
    {q : Progress × Option Ending} (h : PassesTo budget rules u (trail ++ [r.id]) true q)
    (hr : r.rewrite? t = some u) (hu : u.size ≤ budget) :
    PassesTo budget (r :: rules) t trail changed q := by
  have hall := rewriteAll_of_rewrite?_some hr
  cases h with
  | whole hsize =>
    have hthrough : rewriteThrough rules u = rewriteThrough (r :: rules) t := by
      rw [rewriteThrough_cons, hall]
    rw [hthrough, List.append_assoc, List.singleton_append, ← changesThrough_of_some hr]
    rw [hthrough] at hsize
    have hwhole : PassesTo budget (r :: rules) t trail changed _ := .whole (by omega)
    simpa [changesThrough_of_some hr] using hwhole
  | @broken before rule after v hrules hrewrite hsize hbeyond =>
    have hthrough : rewriteThrough before u = rewriteThrough (r :: before) t := by
      rw [rewriteThrough_cons, hall]
    rw [hthrough] at hrewrite hsize
    rw [List.append_assoc, List.singleton_append, ← changesThrough_of_some hr, ← List.cons_append]
    exact .broken (by rw [hrules, List.cons_append]) hrewrite (by omega) hbeyond

theorem pass_cases {deadline : Deadline} (hlasts : ∀ moment, deadline.spentAt moment = none)
    (budget number place : Nat) (trail : List String) (changed : Bool) :
    PassesTo budget rules t trail changed
      (pass deadline budget number place rules ⟨t, trail.eraseDups, changed⟩) := by
  induction rules generalizing place t trail changed with
  | nil =>
    have hwhole : PassesTo budget [] t trail changed _ := .whole (le_max_right _ _)
    simpa [pass, changesThrough] using hwhole
  | cons r rules ih =>
    unfold pass
    rw [hlasts]
    simp only
    cases hr : r.rewrite? t with
    | none => exact (ih (place + 1) trail changed).cons_of_none hr
    | some u =>
      simp only [note_eraseDups]
      split
      · next hbeyond =>
        have hname : changesThrough ([] ++ [r]) t = [r.id] := by
          rw [List.nil_append, changesThrough_of_some hr, changesThrough]
        rw [← hname]
        exact .broken (List.nil_append _).symm hr (le_max_right _ _) hbeyond
      · next hwithin =>
        exact (ih (place + 1) (trail ++ [r.id]) true).cons_of_some hr (Nat.le_of_not_lt hwithin)

end Pass

/-! ## All passes -/

section Loop

variable {rules : List Rule} {budget bound left done : Nat} {t : Text} {trail : List String}
  {r : Rewriting}

/-- How rewriting ends that has so many passes left for a text of bounded size, behind passes in
which the rules of the trail changed something. -/
inductive Ends (rules : List Rule) (budget bound left done : Nat) (t : Text)
    (trail : List String) : Rewriting → Prop
  | settled {n} (hn : n < left)
      (hrest : changesThrough rules ((rewriteThrough rules)^[n] t) = []) :
      Ends rules budget bound left done t trail
        ⟨(rewriteThrough rules)^[n] t, (trail ++ changesIn rules (n + 1) t).eraseDups,
          done + n + 1, .settled⟩
  | ranOut (hbusy : ∀ i < left, changesThrough rules ((rewriteThrough rules)^[i] t) ≠ []) :
      Ends rules budget bound left done t trail
        ⟨(rewriteThrough rules)^[left] t, (trail ++ changesIn rules left t).eraseDups,
          done + left, .limit⟩
  | outgrown {n before rule after u} (hn : n < left) (hrules : rules = before ++ rule :: after)
      (hrewrite : rule.rewrite? (rewriteThrough before ((rewriteThrough rules)^[n] t)) = some u)
      (hsize : (rewriteThrough before ((rewriteThrough rules)^[n] t)).size ≤ bound)
      (hbeyond : budget < u.size) :
      Ends rules budget bound left done t trail
        ⟨u, (trail ++ (changesIn rules n t ++
            changesThrough (before ++ [rule]) ((rewriteThrough rules)^[n] t))).eraseDups,
          done + n + 1, .limit⟩

/-- A whole pass that has changed something goes before. -/
theorem Ends.behind (hbusy : changesThrough rules t ≠ [])
    (h : Ends rules budget bound left (done + 1) (rewriteThrough rules t)
      (trail ++ changesThrough rules t) r) : Ends rules budget bound (left + 1) done t trail r := by
  cases h with
  | @settled n hn hrest =>
    have hsettled : Ends rules budget bound (left + 1) done t trail _ :=
      .settled (Nat.succ_lt_succ hn) hrest
    simpa [changesIn, Nat.add_assoc, Nat.add_comm 1] using hsettled
  | ranOut hbusy' =>
    have hall : ∀ i < left + 1, changesThrough rules ((rewriteThrough rules)^[i] t) ≠ [] := by
      intro i hi
      cases i with
      | zero => exact hbusy
      | succ i => exact hbusy' i (Nat.lt_of_succ_lt_succ hi)
    have hout : Ends rules budget bound (left + 1) done t trail _ := .ranOut hall
    simpa [changesIn, Nat.add_assoc, Nat.add_comm 1] using hout
  | @outgrown n before rule after u hn hrules hrewrite hsize hbeyond =>
    have hout : Ends rules budget bound (left + 1) done t trail _ :=
      .outgrown (Nat.succ_lt_succ hn) hrules hrewrite hsize hbeyond
    simpa [changesIn, Nat.add_assoc, Nat.add_comm 1] using hout

/-- **Rewriting goes on until nothing changes, or a limit is reached.** -/
theorem ends_of_loop {deadline : Deadline} (hlasts : ∀ moment, deadline.spentAt moment = none)
    (hbudget : budget ≤ bound) (ht : t.size ≤ bound) :
    Ends rules budget bound left done t trail
      (loop deadline budget rules left done t trail.eraseDups) := by
  induction left generalizing done t trail with
  | zero =>
    have hout : Ends rules budget bound 0 done t trail _ := .ranOut (by simp)
    simpa [loop, changesIn] using hout
  | succ left ih =>
    have hpass : PassesTo budget rules t trail false _ :=
      pass_cases hlasts budget (done + 1) 0 trail false
    generalize hq : pass deadline budget (done + 1) 0 rules ⟨t, trail.eraseDups, false⟩ = q at hpass
    cases hpass with
    | whole hsize =>
      rw [loop_of_whole hq]
      simp only [Bool.false_or, Bool.not_eq_true']
      cases hchanges : changesThrough rules t with
      | nil =>
        have hsettled : Ends rules budget bound (left + 1) done t trail _ :=
          .settled (Nat.succ_pos left) hchanges
        simpa [changesIn, hchanges, rewriteThrough_of_changesThrough hchanges] using hsettled
      | cons id ids =>
        rw [← hchanges, if_pos (by simp [hchanges])]
        exact (ih (hsize.trans (max_le hbudget ht))).behind (by simp [hchanges])
    | broken hrules hrewrite hsize hbeyond =>
      rw [loop_of_broken hq]
      exact Ends.outgrown (Nat.succ_pos left) hrules hrewrite (hsize.trans (max_le hbudget ht))
        hbeyond

end Loop

end Rewriting

open Rewriting

/-- **Rewriting settles on a text that no rule changes, or stops at a limit**, and names the rules
that have changed the text. -/
theorem rewrite_outcome (rules : List Rule) (limits : RewriteLimits) {deadline : Deadline}
    (hlasts : ∀ moment, deadline.spentAt moment = none) (t : Text) :
    (Settles rules limits t (rewrite rules limits deadline t) ∨
      RunsOut rules limits t (rewrite rules limits deadline t) ∨
      Outgrows rules limits t (rewrite rules limits deadline t)) ∧
    (rewrite rules limits deadline t).applied.Nodup := by
  have hends : Ends rules (limits.outputBudget t.size) (max (limits.outputBudget t.size) t.size)
      limits.maxPasses 0 t [] (rewrite rules limits deadline t) :=
    ends_of_loop hlasts (le_max_left _ _) (le_max_right _ _)
  generalize rewrite rules limits deadline t = r at hends
  cases hends with
  | @settled n hn hrest =>
    refine ⟨.inl ⟨rfl, by simp, ?_, by simp, changesThrough_eq_nil_iff.mp hrest, by simp⟩,
      nodup_eraseDups _⟩
    simpa [Nat.succ_le_iff] using hn
  | ranOut hbusy => exact ⟨.inr (.inl ⟨rfl, by simp, rfl, hbusy, rfl⟩), nodup_eraseDups _⟩
  | @outgrown n before rule after u hn hrules hrewrite hsize hbeyond =>
    refine ⟨.inr (.inr ⟨rfl, by simp, ?_, hbeyond, before, rule, after, _, hrules, by simp,
      hrewrite, hsize, by simp⟩), nodup_eraseDups _⟩
    simpa [Nat.succ_le_iff] using hn

/-- Two rules that undo each other. -/
def seesaw : List Rule :=
  [.command "there" 20 "vec" 1 "\\hat\x7b$1\x7d" "",
    .command "back" 10 "hat" 1 "\\vec\x7b$1\x7d" ""]

/-- Rules that undo each other run out of passes, with the text as it was. -/
theorem rewrite_outcome_seesaw :
    (∀ moment, (Deadline.never 2000).spentAt moment = none) ∧
      RunsOut seesaw {} "\\vec\x7bx\x7d".toList
        (rewrite seesaw {} (.never 2000) "\\vec\x7bx\x7d".toList) := by
  refine ⟨fun _ => rfl, ?_⟩
  have hending : (rewrite seesaw {} (.never 2000) "\\vec\x7bx\x7d".toList).ending = .limit := by
    decide +kernel
  have hsize : (rewrite seesaw {} (.never 2000) "\\vec\x7bx\x7d".toList).text.size = 7 := by
    decide +kernel
  obtain ⟨h | h | h, -⟩ := rewrite_outcome seesaw {} (fun moment => (rfl :
      (Deadline.never 2000).spentAt moment = none)) "\\vec\x7bx\x7d".toList
  · have hsettled := h.ending
    rw [hending] at hsettled
    cases hsettled
  · exact h
  · have hbeyond := h.beyond
    rw [hsize] at hbeyond
    exact absurd hbeyond (by decide)

end SpokenMath
