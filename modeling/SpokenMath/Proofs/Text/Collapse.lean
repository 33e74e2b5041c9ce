import SpokenMath.Text.Basic

/-!
# Collapsed texts

Collapsing a text a second time changes nothing (`collapse_collapse`), and a collapsed text is no
longer than before (`size_collapse_le_squeeze`, `size_squeeze_le`).
-/

namespace SpokenMath.Text

/-! ## Single steps -/

@[simp] theorem squeeze_nil : squeeze [] = [] := rfl

@[simp] theorem squeeze_cons (c : Char) (t : Text) :
    squeeze (c :: t) = squeezeCons c (squeeze t) := by
  rw [squeeze, List.foldr_cons, squeeze]

theorem squeezeCons_of_not_blank {c : Char} (h : isBlank c = false) (t : Text) :
    squeezeCons c t = c :: t :=
  if_neg (by rw [h]; exact Bool.false_ne_true)

theorem squeezeCons_blank_nil {c : Char} (h : isBlank c = true) : squeezeCons c [] = [] :=
  if_pos h

theorem squeezeCons_blank_space {c : Char} (h : isBlank c = true) (t : Text) :
    squeezeCons c (' ' :: t) = ' ' :: t :=
  if_pos h

theorem squeezeCons_blank_cons {c x : Char} (h : isBlank c = true) (hx : x ≠ ' ') (t : Text) :
    squeezeCons c (x :: t) = ' ' :: x :: t := by
  unfold squeezeCons
  rw [if_pos h]
  split
  · contradiction
  · next heq => exact absurd (List.cons.inj heq).1 hx
  · rfl

theorem squeezeCons_blank_twice {c d : Char} (hc : isBlank c = true) (hd : isBlank d = true)
    (t : Text) : squeezeCons c (squeezeCons d t) = squeezeCons d t := by
  cases t with
  | nil => rw [squeezeCons_blank_nil hd, squeezeCons_blank_nil hc]
  | cons x t =>
    by_cases hx : x = ' '
    · subst hx
      rw [squeezeCons_blank_space hd, squeezeCons_blank_space hc]
    · rw [squeezeCons_blank_cons hd hx, squeezeCons_blank_space hc]

theorem size_squeezeCons_le (c : Char) (t : Text) :
    (squeezeCons c t).size ≤ c.utf8Size + t.size := by
  have h₁ : (' ' : Char).utf8Size = 1 := rfl
  have h₂ := c.utf8Size_pos
  unfold squeezeCons
  split
  · split
    · simp
    · simp
    · simp only [size_cons, h₁]
      omega
  · simp

/-! ## The whole text -/

theorem size_squeeze_le (t : Text) : (squeeze t).size ≤ t.size := by
  induction t with
  | nil => simp
  | cons c t ih =>
    have := size_squeezeCons_le c (squeeze t)
    simp only [squeeze_cons, size_cons]
    omega

theorem size_squeeze_cons_le (c : Char) (t : Text) :
    (squeeze (c :: t)).size ≤ c.utf8Size + (squeeze t).size :=
  size_squeezeCons_le c (squeeze t)

/-- A second blank makes no difference. -/
theorem squeeze_blank_twice {c d : Char} (hc : isBlank c = true) (hd : isBlank d = true)
    (t : Text) : squeeze (c :: d :: t) = squeeze (d :: t) :=
  squeezeCons_blank_twice hc hd (squeeze t)

theorem squeeze_append_of_not_blank {s : Text} (h : ∀ c ∈ s, isBlank c = false) (t : Text) :
    squeeze (s ++ t) = s ++ squeeze t := by
  induction s with
  | nil => rfl
  | cons c s ih =>
    obtain ⟨hc, hs⟩ := List.forall_mem_cons.mp h
    rw [List.cons_append, squeeze_cons, ih hs, squeezeCons_of_not_blank hc, List.cons_append]

theorem squeeze_squeeze (t : Text) : squeeze (squeeze t) = squeeze t := by
  induction t with
  | nil => rfl
  | cons c t ih =>
    rw [squeeze_cons]
    by_cases hc : isBlank c = true
    · cases hs : squeeze t with
      | nil => rw [squeezeCons_blank_nil hc, squeeze_nil]
      | cons x r =>
        rw [hs] at ih
        by_cases hx : x = ' '
        · subst hx
          rw [squeezeCons_blank_space hc, ih]
        · rw [squeezeCons_blank_cons hc hx, squeeze_cons, ih,
            squeezeCons_blank_cons (by decide) hx]
    · rw [squeezeCons_of_not_blank (by simpa using hc), squeeze_cons, ih,
        squeezeCons_of_not_blank (by simpa using hc)]

theorem collapse_of_squeeze_cons_space {t r : Text} (h : squeeze t = ' ' :: r) :
    t.collapse = r := by
  simp [collapse, h]

theorem collapse_of_head_ne {t : Text} (h : (squeeze t).head? ≠ some ' ') :
    t.collapse = squeeze t := by
  unfold collapse
  split
  · next heq => simp [heq] at h
  · rfl

/-- What stands behind a leading space of a squeezed text is squeezed, and is no blank. -/
theorem squeeze_tail_of_space {r : Text} (h : squeeze (' ' :: r) = ' ' :: r) :
    squeeze r = r ∧ r.head? ≠ some ' ' := by
  have hb : isBlank ' ' = true := by decide
  rw [squeeze_cons] at h
  cases hs : squeeze r with
  | nil => simp [hs, squeezeCons_blank_nil hb] at h
  | cons x s =>
    rw [hs] at h
    by_cases hx : x = ' '
    · subst hx
      rw [squeezeCons_blank_space hb] at h
      have hsize := size_squeeze_le r
      have hpos := Char.utf8Size_pos ' '
      rw [hs, (List.cons.inj h).2, size_cons] at hsize
      omega
    · rw [squeezeCons_blank_cons hb hx] at h
      have hr : x :: s = r := (List.cons.inj h).2
      refine ⟨hr, ?_⟩
      rw [← hr]
      simpa using hx

theorem collapse_collapse (t : Text) : t.collapse.collapse = t.collapse := by
  have hs := squeeze_squeeze t
  cases h : squeeze t with
  | nil =>
    have : t.collapse = [] := by simp [collapse, h]
    rw [this]
    rfl
  | cons x r =>
    rw [h] at hs
    by_cases hx : x = ' '
    · subst hx
      obtain ⟨hr, hne⟩ := squeeze_tail_of_space hs
      rw [collapse_of_squeeze_cons_space h, collapse_of_head_ne (by rwa [hr]), hr]
    · have hc : t.collapse = x :: r := by
        rw [collapse_of_head_ne (by simpa [h] using hx), h]
      rw [hc, collapse_of_head_ne (by rw [hs]; simpa using hx), hs]

theorem size_collapse_le_squeeze (t : Text) : t.collapse.size ≤ (squeeze t).size := by
  unfold collapse
  split
  · next h => simp [h]
  · exact Nat.le_refl _

end SpokenMath.Text
