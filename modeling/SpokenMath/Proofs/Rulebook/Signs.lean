import SpokenMath.Proofs.Rule.Captured
import SpokenMath.Proofs.Rulebook.Selection
import SpokenMath.Proofs.Text.Signs
import SpokenMath.Rulebook.Standard
import Mathlib.Data.List.Permutation

/-!
# No sign survives a pass

Each sign is cleared by one of the **closing rules**, the last general ones, and all of these keep
all signs out. Every selection ends with the closing rules, behind which nothing follows, so no sign
survives a whole pass, whatever the domain (`unsigned_rewriteThrough`).
-/

namespace SpokenMath

namespace Rulebook

/-- The general rules for operators on the keyboard and for what is left. -/
def closingRules : List Rule := symbols.drop 5

/-! ## Every closing rule keeps all signs out -/

/-- A replacement writes no sign of itself. -/
def Wordy (f : Replacement) : Prop := ∀ x ∈ signs, f.Copies x

theorem wordy_template {s : String} (h : Text.Unsigned s.toList) : Wordy (.template s) :=
  fun _ hx => Replacement.copies_template fun hmem => h _ hmem hx

theorem mem_of_mem_trim {t : Text} {x : Char} (h : x ∈ t.trim) : x ∈ t := by
  have hend := (List.dropWhile_sublist _).subset (List.mem_reverse.mp h)
  exact (List.dropWhile_sublist _).subset (List.mem_reverse.mp hend)

theorem unsigned_spoken {phrase : Text} (h : phrase.Unsigned) : (spoken phrase).Unsigned := by
  have hspace : Text.Unsigned [' '] := Text.unsigned_of_isWords (by decide)
  have htrim : phrase.trim.Unsigned := h.subset fun _ hx => mem_of_mem_trim hx
  exact Text.unsigned_append.mpr ⟨Text.unsigned_append.mpr ⟨hspace, htrim⟩, hspace⟩

theorem wordy_named {table : List (String × String)}
    (h : table.all (fun e => Text.isWords e.2.toList) = true) : Wordy (.phrase (named table)) := by
  intro x hx c hc
  simp only [Replacement.render, named] at hc
  split at hc
  · next phrase hphrase =>
    have hwords := Text.unsigned_of_isWords (List.all_eq_true.mp h _ (mem_of_lookup hphrase))
    exact absurd hx (unsigned_spoken hwords x hc)
  · exact Replacement.mem_group hc

theorem wordy_escapedSign : Wordy (.phrase escapedSign) := by
  intro x hx c hc
  simp only [Replacement.render, escapedSign] at hc
  split at hc <;> exact absurd hx (Text.unsigned_of_isWords (by decide) x hc)

theorem closingRules_wordy :
    ∀ r ∈ closingRules, (∃ p, r.matcher = .pattern p) ∧ Wordy r.replacement := by
  intro r hr
  simp only [closingRules, symbols, List.drop_succ_cons, List.drop_zero, List.mem_cons,
    List.not_mem_nil, or_false] at hr
  rcases hr with rfl | rfl | rfl | rfl | rfl | rfl | rfl | rfl | rfl | rfl | rfl | rfl | rfl |
    rfl | rfl | rfl | rfl | rfl | rfl
  all_goals refine ⟨⟨_, rfl⟩, ?_⟩
  all_goals first
    | exact wordy_template (by decide)
    | exact wordy_named (by decide +kernel)
    | exact wordy_escapedSign

theorem closingRules_keepsOut : ∀ r ∈ closingRules, ∀ x ∈ signs, r.KeepsOut x := by
  intro r hr x hx
  obtain ⟨⟨p, hp⟩, hwordy⟩ := closingRules_wordy r hr
  exact Rule.keepsOut_pattern hp (hwordy x hx)

/-! ## Every sign is cleared -/

/-- The rule of a table for one character clears it. -/
theorem clears_literal {id description source w : String} {priority : Priority} {a : Char}
    (hregex : (Pattern.ofTable source).regex = .literal [a])
    (hw : ∀ c, Replacement.expand c w.toList = w.toList) (ha : a ∉ w.toList) :
    (Rule.pattern id priority source (.template w) description).Clears a :=
  Rule.clears_single rfl (hregex ▸ .literal a) (beq_self_eq_true a) hw ha

theorem clears_set {id description source w : String} {priority : Priority} {set : CharSet}
    {a : Char} (hregex : (Pattern.ofTable source).regex = .set set)
    (hset : set.contains a = true) (hw : ∀ c, Replacement.expand c w.toList = w.toList)
    (ha : a ∉ w.toList) :
    (Rule.pattern id priority source (.template w) description).Clears a :=
  Rule.clears_single rfl (hregex ▸ .set set) hset hw ha

theorem closingRules_clears : ∀ x ∈ signs, ∃ r ∈ closingRules, r.Clears x := by
  have hbraces : (Pattern.ofTable r"[‹›]").regex = .set ⟨[(0x7b, 0x7b), (0x7d, 0x7d)]⟩ := by cbv
  have rule : ∀ {x} (i : Nat) (hi : i < closingRules.length), closingRules[i].Clears x →
      ∃ r ∈ closingRules, r.Clears x := fun i hi h => ⟨_, List.getElem_mem hi, h⟩
  simp only [signs, List.forall_mem_cons]
  -- The places of the rules in the order of the signs. Only the braces share a rule.
  refine ⟨rule 18 (by decide) ?_,
    rule 13 (by decide) (clears_set hbraces (by decide) (fun _ => rfl) (by decide)),
    rule 13 (by decide) (clears_set hbraces (by decide) (fun _ => rfl) (by decide)),
    rule 14 (by decide) ?_, rule 15 (by decide) ?_, rule 11 (by decide) ?_,
    rule 16 (by decide) ?_, rule 17 (by decide) ?_, rule 0 (by decide) ?_,
    rule 1 (by decide) ?_, rule 2 (by decide) ?_, rule 3 (by decide) ?_,
    rule 4 (by decide) ?_, rule 5 (by decide) ?_, rule 6 (by decide) ?_, by simp⟩
  all_goals exact clears_literal (by decide +kernel) (fun _ => rfl) (by decide)

/-! ## Nothing else comes behind -/

theorem closingRules_suffix : closingRules <:+ standardRules :=
  (List.drop_suffix 5 symbols).trans
    ((List.suffix_append _ symbols).trans (List.suffix_append _ generalRules))

theorem closingRules_plain :
    ∀ r ∈ closingRules, r.domain.isGeneral = true ∧ r.priority.isCritical = false ∧
      r.priority ≤ 220 := by
  decide +kernel

/-- No other general rule is as late as a closing rule, but for critical ones. -/
theorem earlier_rules :
    ∀ r ∈ standardRules.take (standardRules.length - closingRules.length),
      r.domain.isGeneral = true → r.priority.isCritical = false → ¬r.priority ≤ 220 := by
  decide +kernel

theorem mem_closingRules {r : Rule} (hr : r ∈ plainRules standardRules) (hp : r.priority ≤ 220) :
    r ∈ closingRules := by
  obtain ⟨hmem, hgeneral, hcritical⟩ := mem_plainRules.mp hr
  rw [← List.suffix_iff_eq_append.mp closingRules_suffix] at hmem
  rcases List.mem_append.mp hmem with hmem | hmem
  · exact absurd hp (earlier_rules r hmem hgeneral hcritical)
  · exact hmem

end Rulebook

open Rulebook in
/-- **No sign survives a whole pass**, whatever the domain. -/
theorem unsigned_rewriteThrough (d : Domain) (t : Text) :
    (rewriteThrough (RuleBook.standard.rulesFor d) t).Unsigned := by
  intro x hmem hx
  obtain ⟨k, hk, hclears⟩ := closingRules_clears x hx
  obtain ⟨hgeneral, hcritical, hlate⟩ := closingRules_plain k hk
  have hplain : k ∈ plainRules standardRules :=
    mem_plainRules.mpr ⟨closingRules_suffix.subset hk, hgeneral, hcritical⟩
  obtain ⟨before, after, hsplit, hafter⟩ := selection_split hplain d
  have hkeeps : ∀ r ∈ after, r.KeepsOut x := fun r hr =>
    closingRules_keepsOut r
      (mem_closingRules (hafter r hr).1 (Int32.le_trans (hafter r hr).2 hlate)) x hx
  rw [show RuleBook.standard.rulesFor d = before ++ k :: after from hsplit] at hmem
  exact not_mem_rewriteThrough_of_clears hclears hkeeps t hmem

end SpokenMath
