import SpokenMath.Rule.Book
import Mathlib.Data.List.Nodup
import Mathlib.Data.List.Sort

/-!
# The ranks of rules

In the selection for a domain, the critical rules are the first group, the rules of the domain the
second, and the general rules the third. Within a group the higher priority **precedes**, and of
equal priorities the rule that was registered first. Two rules may be equal, so what is ordered here
are the places of the rules in the book and not the rules.

**Theorem (`rulesFor_sorted`).** The rules for a domain stand at different places of the book, which
are those of its critical, own and general rules, and each precedes all that follow it. Rules of
other domains make no difference, wherever they are put into the book.
-/

namespace SpokenMath

variable {rules rules' : List Rule} {d : Domain} {p : Rule → Bool}

namespace Rule

/-- The group of a rule in the selections to which it belongs. -/
def group (r : Rule) : Nat :=
  if r.priority.isCritical then 0 else if r.domain.isGeneral then 2 else 1

/-- The rule belongs to the selection for a domain. -/
def SelectedFor (d : Domain) (r : Rule) : Prop :=
  r.priority.isCritical = true ∨ r.domain = d ∨ r.domain.isGeneral = true

instance (d : Domain) : DecidablePred (SelectedFor d) :=
  fun _ => inferInstanceAs (Decidable (_ ∨ _))

end Rule

/-- The rule at the first place has the higher priority, or the same and is registered first. -/
def Ahead (rules : List Rule) (i j : Fin rules.length) : Prop :=
  (rules.get j).priority < (rules.get i).priority ∨
    (rules.get i).priority = (rules.get j).priority ∧ i < j

/-- The rule at the first place is applied first if both are selected. -/
def Precedes (rules : List Rule) (i j : Fin rules.length) : Prop :=
  (rules.get i).group < (rules.get j).group ∨
    (rules.get i).group = (rules.get j).group ∧ Ahead rules i j

theorem Precedes.ne {i j : Fin rules.length} (h : Precedes rules i j) : i ≠ j := by
  rintro rfl
  rcases h with h | ⟨-, h | h⟩
  · exact Nat.lt_irrefl _ h
  · exact Int32.lt_irrefl h
  · exact Fin.lt_irrefl _ h.2

/-! ## Sorting is stable -/

section

variable {α : Type} {key : α → Int32}

theorem key_trans : ∀ a b c : α, decide (key b ≤ key a) = true → decide (key c ≤ key b) = true →
    decide (key c ≤ key a) = true :=
  fun _ _ _ hab hbc =>
    decide_eq_true (Int32.le_trans (of_decide_eq_true hbc) (of_decide_eq_true hab))

theorem key_total : ∀ a b : α, (decide (key b ≤ key a) || decide (key a ≤ key b)) = true := by
  intro a b
  rw [Bool.or_eq_true, decide_eq_true_eq, decide_eq_true_eq]
  exact Int32.le_total _ _

/-- Of what has the same key, sorting changes nothing. -/
theorem filter_mergeSort_key (l : List α) (k : Int32) :
    (l.mergeSort fun a b => key b ≤ key a).filter (key · == k) = l.filter (key · == k) := by
  have hkey : (l.filter (key · == k)).Pairwise fun a b => decide (key b ≤ key a) = true := by
    refine List.pairwise_of_forall_mem_list fun a ha b hb => decide_eq_true ?_
    rw [eq_of_beq (List.mem_filter.mp ha).2, eq_of_beq (List.mem_filter.mp hb).2]
    exact Int32.le_refl k
  have hsub := (List.sublist_mergeSort key_trans key_total hkey List.filter_sublist).filter
    (key · == k)
  rw [List.filter_filter] at hsub
  simp only [Bool.and_self] at hsub
  exact (hsub.eq_of_length ((List.mergeSort_perm l _).symm.filter _).length_eq).symm

/-- **What is sorted has its keys in order, and keeps its order where they are the same.** -/
theorem pairwise_mergeSort_key [LinearOrder α] {l : List α} (hl : l.Pairwise (· < ·)) :
    (l.mergeSort fun a b => key b ≤ key a).Pairwise fun a b =>
      key b < key a ∨ key a = key b ∧ a < b := by
  rw [List.pairwise_iff_forall_sublist]
  intro a b hsub
  have hsorted := (List.pairwise_mergeSort key_trans key_total l).sublist hsub
  have hle : key b ≤ key a := by simpa using hsorted
  by_cases hlt : key b < key a
  · exact .inl hlt
  · have heq : key a = key b := Int32.le_antisymm (Int32.not_lt.mp hlt) hle
    have hsame := hsub.filter (key · == key b)
    rw [filter_mergeSort_key] at hsame
    simp only [heq, beq_self_eq_true, List.filter_cons_of_pos, List.filter_nil] at hsame
    exact .inr ⟨heq, List.pairwise_pair.mp ((hl.filter _).sublist hsame)⟩

end

/-! ## Places in the order of their priorities -/

/-- The places of the rules of a kind, in the order of their priorities. -/
def placesByPriority (rules : List Rule) (p : Rule → Bool) : List (Fin rules.length) :=
  ((List.finRange rules.length).filter (p <| rules.get ·)).mergeSort
    fun i j => (rules.get j).priority ≤ (rules.get i).priority

theorem mem_placesByPriority {i : Fin rules.length} :
    i ∈ placesByPriority rules p ↔ p (rules.get i) = true := by
  rw [placesByPriority, List.mem_mergeSort, List.mem_filter]
  exact and_iff_right (List.mem_finRange i)

theorem map_placesByPriority (rules : List Rule) (p : Rule → Bool) :
    (placesByPriority rules p).map rules.get = byPriority (rules.filter p) := by
  have hfilter : ((List.finRange rules.length).filter (p <| rules.get ·)).map rules.get =
      rules.filter p := by
    conv_rhs => rw [← List.map_get_finRange rules, List.filter_map]
    rfl
  rw [byPriority, ← hfilter, placesByPriority]
  exact List.map_mergeSort fun i _ j _ => rfl

theorem pairwise_placesByPriority (rules : List Rule) (p : Rule → Bool) :
    (placesByPriority rules p).Pairwise (Ahead rules) :=
  pairwise_mergeSort_key ((List.sortedLT_finRange _).pairwise.filter _)

/-! ## The order of a selection -/

/-- **A selection is its three groups, one behind the other.** -/
theorem selection_eq_groups (rules : List Rule) (d : Domain) :
    selection rules d = [0, 1, 2].flatMap fun g =>
      byPriority ((rules.filter (Rule.SelectedFor d ·)).filter (·.group == g)) := by
  have hcritical : (rules.filter (Rule.SelectedFor d ·)).filter (·.group == 0) =
      rules.filter (·.priority.isCritical) := by
    rw [List.filter_filter]
    refine List.filter_congr fun r _ => ?_
    cases hr : r.priority.isCritical <;> cases hg : r.domain.isGeneral <;>
      simp [Rule.group, Rule.SelectedFor, hr, hg]
  have hown : byPriority ((rules.filter (Rule.SelectedFor d ·)).filter (·.group == 1)) =
      if d.isGeneral then []
      else byPriority ((rules.filter (!·.priority.isCritical)).filter (·.domain == d)) := by
    rw [List.filter_filter, List.filter_filter]
    cases hd : d.isGeneral with
    | true =>
      -- Everything that belongs to the general domain is general.
      obtain rfl : d = .general := eq_of_beq hd
      rw [if_pos rfl, List.filter_eq_nil_iff.mpr]
      · exact List.mergeSort_nil
      · intro r _
        by_cases hr : r.domain = .general <;> cases hc : r.priority.isCritical <;>
          simp [Rule.group, Rule.SelectedFor, Domain.isGeneral, hr, hc]
    | false =>
      rw [if_neg nofun]
      refine congrArg byPriority (List.filter_congr fun r _ => ?_)
      by_cases hr : r.domain = d
      · cases hc : r.priority.isCritical <;> simp [Rule.group, Rule.SelectedFor, hr, hc, hd]
      · cases hc : r.priority.isCritical <;> cases hg : r.domain.isGeneral <;>
          simp [Rule.group, Rule.SelectedFor, hr, hc, hg]
  have hgeneral : (rules.filter (Rule.SelectedFor d ·)).filter (·.group == 2) =
      (rules.filter (!·.priority.isCritical)).filter (·.domain.isGeneral) := by
    rw [List.filter_filter, List.filter_filter]
    refine List.filter_congr fun r _ => ?_
    cases hr : r.priority.isCritical <;> cases hg : r.domain.isGeneral <;>
      simp [Rule.group, Rule.SelectedFor, hr, hg]
  rw [List.flatMap_cons, List.flatMap_cons, List.flatMap_singleton, hcritical, hown, hgeneral,
    selection, List.partition_eq_filter_filter, ← List.append_assoc]
  rfl

/-- The places of the rules for a domain, group by group. -/
def selectedPlaces (rules : List Rule) (d : Domain) : List (Fin rules.length) :=
  [0, 1, 2].flatMap fun g =>
    placesByPriority rules fun r => r.group == g && decide (r.SelectedFor d)

theorem selection_eq_map (rules : List Rule) (d : Domain) :
    selection rules d = (selectedPlaces rules d).map rules.get := by
  simp only [selectedPlaces, List.map_flatMap, map_placesByPriority, selection_eq_groups,
    List.filter_filter]

theorem mem_selectedPlaces {i : Fin rules.length} :
    i ∈ selectedPlaces rules d ↔ (rules.get i).SelectedFor d := by
  have hgroup : (rules.get i).group ∈ [0, 1, 2] := by
    rw [Rule.group]
    split
    · decide
    · split <;> decide
  rw [selectedPlaces, List.mem_flatMap]
  simp only [mem_placesByPriority, Bool.and_eq_true, beq_iff_eq, decide_eq_true_eq]
  exact ⟨fun ⟨g, _, _, hselected⟩ => hselected, fun h => ⟨_, hgroup, rfl, h⟩⟩

/-- **Every place precedes all that follow it**, in its group by priority and else by group. -/
theorem pairwise_selectedPlaces (rules : List Rule) (d : Domain) :
    (selectedPlaces rules d).Pairwise (Precedes rules) := by
  have hgroup : ∀ {g : Nat} {i : Fin rules.length},
      i ∈ placesByPriority rules (fun r => r.group == g && decide (r.SelectedFor d)) →
        (rules.get i).group = g := by
    intro g i hi
    have hboth := mem_placesByPriority.mp hi
    exact eq_of_beq (Bool.and_eq_true_iff.mp hboth).1
  refine List.pairwise_flatMap.mpr ⟨fun g _ => ?_, ?_⟩
  · refine (pairwise_placesByPriority rules _).imp_of_mem fun hi hj hahead => .inr ⟨?_, hahead⟩
    rw [hgroup hi, hgroup hj]
  · have hgroups : [0, 1, 2].Pairwise (· < ·) := by decide
    refine hgroups.imp fun hlt i hi j hj => .inl ?_
    rw [hgroup hi, hgroup hj]
    exact hlt

/-! ## Rules of other domains -/

/-- The second list is the first one with more rules in it, none of which belongs to the selection
for the domain. -/
inductive WithForeign (d : Domain) : List Rule → List Rule → Prop
  | nil : WithForeign d [] []
  | keep {rules rules' : List Rule} (r : Rule) : WithForeign d rules rules' →
    WithForeign d (r :: rules) (r :: rules')
  | insert {rules rules' : List Rule} {r : Rule} : ¬ r.SelectedFor d → WithForeign d rules rules' →
    WithForeign d rules (r :: rules')

theorem WithForeign.filter_eq (h : WithForeign d rules rules') :
    rules'.filter (Rule.SelectedFor d ·) = rules.filter (Rule.SelectedFor d ·) := by
  induction h with
  | nil => rfl
  | keep r _ ih => rw [List.filter_cons, List.filter_cons, ih]
  | insert hr _ ih => rw [List.filter_cons_of_neg (by simpa using hr), ih]

/-- **The rules for a domain are those that belong to it, each at its place by group, priority and
registration, and rules of other domains change nothing.** -/
theorem rulesFor_sorted (rules : List Rule) (d : Domain) :
    (∃ places : List (Fin rules.length),
      (RuleBook.ofRules rules).rulesFor d = places.map rules.get ∧ places.Nodup ∧
        (∀ i, i ∈ places ↔ (rules.get i).SelectedFor d) ∧ places.Pairwise (Precedes rules)) ∧
      ∀ rules', WithForeign d rules rules' →
        (RuleBook.ofRules rules').rulesFor d = (RuleBook.ofRules rules).rulesFor d := by
  have hprecedes := pairwise_selectedPlaces rules d
  refine ⟨⟨selectedPlaces rules d, selection_eq_map rules d, hprecedes.imp Precedes.ne,
    fun i => mem_selectedPlaces, hprecedes⟩, fun rules' h => ?_⟩
  show selection rules' d = selection rules d
  rw [selection_eq_groups, selection_eq_groups, h.filter_eq]

/-- A rule of which only its rank matters. -/
def ranked (id : String) (d : Domain) (p : Priority) : Rule :=
  ⟨id, d, p, .command id 0, .template id, ""⟩

def fewRules : List Rule :=
  [ranked "sum" .general 600, ranked "limit" .calculus 100, ranked "product" .general 700,
    ranked "derivative" .calculus 100, ranked "spaces" .topology 1000]

/-- The same rules between two that belong to another domain. -/
def moreRules : List Rule :=
  ranked "forall" .logic 999 :: (fewRules ++ [ranked "exists" .logic 999])

theorem rulesFor_sorted_moreRules :
    WithForeign .calculus fewRules moreRules ∧
      (RuleBook.ofRules moreRules).rulesFor .calculus =
        [ranked "spaces" .topology 1000, ranked "limit" .calculus 100,
          ranked "derivative" .calculus 100, ranked "product" .general 700,
          ranked "sum" .general 600] := by
  have hforeign : WithForeign .calculus fewRules moreRules :=
    .insert (by decide)
      (.keep _ (.keep _ (.keep _ (.keep _ (.keep _ (.insert (by decide) .nil))))))
  refine ⟨hforeign, ?_⟩
  rw [(rulesFor_sorted fewRules .calculus).2 _ hforeign]
  simp [RuleBook.rulesFor, RuleBook.ofRules, selection, byPriority, fewRules, ranked,
    Priority.isCritical, Priority.tier, Domain.isGeneral, List.mergeSort,
    List.MergeSort.Internal.splitInTwo]

end SpokenMath
