import Mathlib.Data.List.Chain
import Mathlib.Data.List.Forall2

/-!
# Lists

Pairs that a lookup finds are in the list, and the other way round if the keys are different.
Elements at the front may be dropped where they do not matter, and a run ends where they change.
What is counted along chains is counted link by link.
Something is **doubled** in a list if it stands there twice in a row.
-/

namespace SpokenMath

/-- What a lookup finds is in the list. -/
theorem mem_of_lookup {α β : Type} [BEq α] [LawfulBEq α] {l : List (α × β)} {a : α} {b : β}
    (h : l.lookup a = some b) : (a, b) ∈ l := by
  obtain ⟨front, back, rfl, -⟩ := List.lookup_eq_some_iff.mp h
  exact List.mem_append_right front List.mem_cons_self

/-- Where the keys are different, what is in the list is found. -/
theorem lookup_of_mem {α β : Type} [BEq α] [LawfulBEq α] {l : List (α × β)} {a : α} {b : β}
    (hnodup : (l.map Prod.fst).Nodup) (hmem : (a, b) ∈ l) : l.lookup a = some b := by
  obtain ⟨front, back, rfl⟩ := List.append_of_mem hmem
  refine List.lookup_eq_some_iff.mpr ⟨front, back, rfl, fun p hp => ?_⟩
  rw [List.map_append, List.map_cons] at hnodup
  have hne := (List.nodup_append.mp hnodup).2.2 p.1 (List.mem_map_of_mem hp) a List.mem_cons_self
  simpa using hne.symm

/-- What does not depend on certain elements at the front is the same without them. -/
theorem apply_dropWhile {α β : Type} {f : List α → β} {p : α → Bool}
    (h : ∀ a l, p a = true → f (a :: l) = f l) (l : List α) : f (l.dropWhile p) = f l := by
  induction l with
  | nil => rfl
  | cons a l ih =>
    cases ha : p a with
    | true => rw [List.dropWhile_cons_of_pos ha, ih, h a l ha]
    | false => rw [List.dropWhile_cons_of_neg (by simp [ha])]

/-- No run begins with an element that does not belong to it. -/
theorem takeWhile_of_head {α : Type} {p : α → Bool} {l : List α}
    (h : ∀ a ∈ l.head?, p a = false) : l.takeWhile p = [] := by
  cases l with
  | nil => rfl
  | cons a l => exact List.takeWhile_cons_of_neg (by simp [h a rfl])

theorem dropWhile_of_head {α : Type} {p : α → Bool} {l : List α}
    (h : ∀ a ∈ l.head?, p a = false) : l.dropWhile p = l := by
  cases l with
  | nil => rfl
  | cons a l => exact List.dropWhile_cons_of_neg (by simp [h a rfl])

/-- A run ends in front of an element that does not belong to it. -/
theorem takeWhile_append_of_head {α : Type} {p : α → Bool} {l m : List α}
    (hl : ∀ a ∈ l, p a = true) (hm : ∀ a ∈ m.head?, p a = false) : (l ++ m).takeWhile p = l := by
  rw [List.takeWhile_append_of_pos hl, takeWhile_of_head hm, List.append_nil]

theorem dropWhile_append_of_head {α : Type} {p : α → Bool} {l m : List α}
    (hl : ∀ a ∈ l, p a = true) (hm : ∀ a ∈ m.head?, p a = false) : (l ++ m).dropWhile p = m := by
  rw [List.dropWhile_append_of_pos hl, dropWhile_of_head hm]

theorem nodup_eraseDups {α : Type} [BEq α] [LawfulBEq α] (l : List α) : l.eraseDups.Nodup := by
  cases l with
  | nil => exact List.nodup_nil
  | cons a l =>
    rw [List.eraseDups_cons, List.nodup_cons, List.mem_eraseDups]
    exact ⟨fun hmem => by simpa using (List.mem_filter.mp hmem).2, nodup_eraseDups _⟩
termination_by l.length
decreasing_by exact Nat.lt_succ_of_le (List.length_filter_le _ _)

/-- An element at the end is left out if it is there already. -/
theorem eraseDups_concat {α : Type} [DecidableEq α] (l : List α) (a : α) :
    (l ++ [a]).eraseDups = if a ∈ l then l.eraseDups else l.eraseDups ++ [a] := by
  rw [List.eraseDups_append]
  split
  · next hmem => simp [List.removeAll, hmem]
  · next hmem => simp [List.removeAll, hmem, List.eraseDups_cons]

/-- A piece `x` of a list ends with `v` or before it, begins with `v` or behind its front, or goes
beyond both ends of `v`. -/
theorem append_append_eq_cases {α : Type} {front v back f x b : List α}
    (h : front ++ (v ++ back) = f ++ (x ++ b)) :
    (∃ r, front ++ v = f ++ (x ++ r) ∧ b = r ++ back) ∨
      (∃ r, f = front ++ r ∧ v ++ back = r ++ (x ++ b)) ∨
        ∃ y z, y ≠ [] ∧ z ≠ [] ∧ front = f ++ y ∧ x = y ++ (v ++ z) ∧ back = z ++ b := by
  rcases List.append_eq_append_iff.mp h with ⟨r, hr, hrest⟩ | ⟨y, hy, hrest⟩
  · exact .inr (.inl ⟨r, hr, hrest⟩)
  · cases y with
    | nil => exact .inr (.inl ⟨[], by simp [hy], hrest.symm⟩)
    | cons a y =>
      rw [← List.append_assoc] at hrest
      rcases List.append_eq_append_iff.mp hrest with ⟨r, hr, hback⟩ | ⟨z, hz, hback⟩
      · exact .inl ⟨r, by rw [hy, List.append_assoc, hr], hback⟩
      · cases z with
        | nil => exact .inl ⟨[], by rw [hy, List.append_nil, hz]; simp, by rw [hback]; rfl⟩
        | cons d z =>
          refine .inr (.inr ⟨a :: y, d :: z, nofun, nofun, hy, ?_, hback⟩)
          rw [hz, List.append_assoc]

/-- An end of a list begins behind `a`, or at `a` or in front of it. -/
theorem suffix_append_cons {α : Type} {a : α} {l m k : List α} (h : l <:+ m ++ a :: k) :
    l <:+ k ∨ ∃ r, l = r ++ a :: k := by
  obtain ⟨z, hz⟩ := h
  rcases List.append_eq_append_iff.mp hz with ⟨r, -, hl⟩ | ⟨r, -, hr⟩
  · exact .inr ⟨r, hl⟩
  · cases r with
    | nil => exact .inr ⟨[], hr.symm⟩
    | cons b r => exact .inl ⟨r, (List.cons.inj hr).2.symm⟩

/-- An end without `a` is an end of what stands behind `a`. -/
theorem suffix_append_cons_iff {α : Type} {a : α} {l m k : List α} (ha : a ∉ l) :
    l <:+ m ++ a :: k ↔ l <:+ k := by
  refine ⟨fun h => (suffix_append_cons h).resolve_right ?_, fun h =>
    h.trans ((List.suffix_cons a k).trans (List.suffix_append m (a :: k)))⟩
  rintro ⟨r, rfl⟩
  exact ha (by simp)

/-- A list of numbers has no greater one than `k`. -/
theorem foldl_max_le_iff {l : List Nat} {a k : Nat} :
    l.foldl max a ≤ k ↔ a ≤ k ∧ ∀ b ∈ l, b ≤ k := by
  induction l generalizing a with
  | nil => simp
  | cons b l ih => rw [List.foldl_cons, ih, Nat.max_le, List.forall_mem_cons, and_assoc]

/-- What is counted along all chains that begin with an element is counted from the next one on. -/
theorem forall_isChain_iff {α : Type} {R : α → α → Prop} {p : α → Bool} {a : α} {j k : Nat} :
    (∀ l, (a :: l).IsChain R → j + (a :: l).countP p ≤ k) ↔
      j + (if p a then 1 else 0) ≤ k ∧ ∀ b, R a b → ∀ l, (b :: l).IsChain R →
        j + (if p a then 1 else 0) + (b :: l).countP p ≤ k := by
  constructor
  · intro h
    refine ⟨by simpa using h [] (.singleton a), fun b hb l hl => ?_⟩
    have hle := h (b :: l) (List.isChain_cons_cons.mpr ⟨hb, hl⟩)
    rw [List.countP_cons] at hle
    omega
  · rintro ⟨hself, hnext⟩ l hl
    cases l with
    | nil => simpa using hself
    | cons b l =>
      obtain ⟨hb, hl⟩ := List.isChain_cons_cons.mp hl
      have hle := hnext b hb l hl
      rw [List.countP_cons]
      omega

/-- Where two lists are related, so are the parts of both. -/
theorem exists_append_of_forall₂ {α β : Type} {R : α → β → Prop} {l : List α} {m₁ m₂ : List β}
    (h : List.Forall₂ R l (m₁ ++ m₂)) :
    ∃ l₁ l₂, l = l₁ ++ l₂ ∧ List.Forall₂ R l₁ m₁ ∧ List.Forall₂ R l₂ m₂ :=
  ⟨l.take m₁.length, l.drop m₁.length, (List.take_append_drop _ _).symm,
    List.forall₂_take_append l m₁ m₂ h, List.forall₂_drop_append l m₁ m₂ h⟩

/-- A list without a second entry has no neighbours. -/
theorem isChain_of_ne_cons_cons {α : Type} {R : α → α → Prop} {l : List α}
    (h : ∀ a b r, l = a :: b :: r → False) : l.IsChain R := by
  cases l with
  | nil => exact .nil
  | cons a l =>
    cases l with
    | nil => exact .singleton a
    | cons b l => exact (h a b l rfl).elim

/-- What neighbours of one list have in common, the neighbours of a related list have as well. -/
theorem isChain_of_forall₂ {α β : Type} {P : α → β → Prop} {R : α → α → Prop}
    {S : β → β → Prop} {l : List α} {m : List β} (h : List.Forall₂ P l m)
    (step : ∀ {a a' b b'}, P a a' → P b b' → R a b → S a' b') (hl : l.IsChain R) :
    m.IsChain S := by
  induction h with
  | nil => exact .nil
  | cons hab hrest ih =>
    refine (ih hl.tail).cons fun d hd => ?_
    cases hrest with
    | nil => cases hd
    | cons hcd _ =>
      obtain rfl := Option.some.inj hd
      exact step hab hcd (List.isChain_cons_cons.mp hl).1

/-- Something stands twice in a row. -/
def Doubled {α : Type} (a : α) (l : List α) : Prop := [a, a] <:+: l

variable {α β : Type} {a b : α} {c d : β} {l : List α} {m : List β}

@[simp] theorem not_doubled_nil (a : α) : ¬ Doubled a [] := by
  simp [Doubled]

theorem doubled_cons_iff : Doubled a (b :: l) ↔ (b = a ∧ l.head? = some a) ∨ Doubled a l := by
  cases l with
  | nil => simp [Doubled, List.infix_cons_iff]
  | cons c l =>
    simp only [Doubled, List.infix_cons_iff, List.cons_prefix_cons, List.nil_prefix, and_true,
      List.head?_cons, Option.some.injEq]
    rw [eq_comm (a := a) (b := b), eq_comm (a := a) (b := c)]

theorem doubled_cons_of_ne (h : b ≠ a) : Doubled a (b :: l) ↔ Doubled a l := by
  rw [doubled_cons_iff]
  exact or_iff_right fun hb => h hb.1

theorem doubled_cons_congr (hb : b ≠ a) (hd : d ≠ c) (h : Doubled a l ↔ Doubled c m) :
    Doubled a (b :: l) ↔ Doubled c (d :: m) := by
  rw [doubled_cons_of_ne hb, doubled_cons_of_ne hd, h]

/-- Nothing is doubled if no two neighbours are it. -/
theorem not_doubled_iff_isChain : ¬ Doubled a l ↔ l.IsChain fun x y => x = a → y ≠ a := by
  induction l with
  | nil => simp
  | cons b l ih =>
    rw [doubled_cons_iff, not_or, ih, List.isChain_cons]
    refine and_congr_left fun _ => ⟨fun h y hy hb hya => h ⟨hb, hya ▸ hy⟩, fun h hb => ?_⟩
    exact h a hb.2 hb.1 rfl

end SpokenMath
