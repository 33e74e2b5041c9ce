import SpokenMath.Proofs.Rulebook.Ranks

/-!
# The order of a selection

Whatever the domain, a selection ends with the general rules that are not critical, in the order of
their priorities. So behind such a rule there are only rules of the same kind whose priority is not
higher (`selection_split`).
-/

namespace SpokenMath

variable {rules : List Rule} {k : Rule}

/-- Behind a rule stand only rules whose priority is not higher. -/
theorem byPriority_split (hk : k ∈ rules) :
    ∃ before after, byPriority rules = before ++ k :: after ∧
      ∀ r ∈ after, r ∈ rules ∧ r.priority ≤ k.priority := by
  obtain ⟨before, after, hsplit⟩ := List.append_of_mem (List.mem_mergeSort.mpr hk)
  have hsorted : (byPriority rules).Pairwise fun a b => decide (b.priority ≤ a.priority) = true :=
    List.pairwise_mergeSort key_trans key_total rules
  refine ⟨before, after, hsplit, fun r hr => ⟨?_, ?_⟩⟩
  · refine List.mem_mergeSort.mp (?_ : r ∈ byPriority rules)
    rw [byPriority, hsplit]
    exact List.mem_append_right before (List.mem_cons_of_mem k hr)
  · rw [byPriority, hsplit] at hsorted
    exact of_decide_eq_true ((List.pairwise_cons.mp (List.pairwise_append.mp hsorted).2.1).1 r hr)

/-- The general rules that are not critical. -/
def plainRules (rules : List Rule) : List Rule :=
  (rules.partition (·.priority.isCritical)).2.filter (·.domain.isGeneral)

theorem mem_plainRules :
    k ∈ plainRules rules ↔
      k ∈ rules ∧ k.domain.isGeneral = true ∧ k.priority.isCritical = false := by
  simp [plainRules, List.partition_eq_filter_filter]

/-- **Behind a general rule that is not critical, a selection has only such rules, and none of a
higher priority.** -/
theorem selection_split (hk : k ∈ plainRules rules) (d : Domain) :
    ∃ before after, selection rules d = before ++ k :: after ∧
      ∀ r ∈ after, r ∈ plainRules rules ∧ r.priority ≤ k.priority := by
  obtain ⟨before, after, hsplit, hafter⟩ := byPriority_split hk
  obtain ⟨front, hfront⟩ : ∃ front, selection rules d = front ++ byPriority (plainRules rules) :=
    ⟨_, rfl⟩
  exact ⟨front ++ before, after, by rw [hfront, hsplit, List.append_assoc], hafter⟩

end SpokenMath
