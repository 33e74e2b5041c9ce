import SpokenMath.Polish
import SpokenMath.Proofs.Text.Gap
import Mathlib.Data.List.Chain
import Mathlib.Tactic.ByContra

/-!
# Spaces of a polished text

A text is **neat** if its blanks are single spaces between words, and none of them stands in front
of a sign that closes up.

**Theorem (`neat_normalize`, `normalize_of_neat`).** Normalizing makes a text neat, and leaves a
neat text as it is.
-/

namespace SpokenMath

namespace Polish

variable {c : Char} {s t : Text}

/-- Blanks are single spaces, and none stands at an end or in front of a sign that closes up. -/
structure Neat (t : Text) : Prop where
  spaces : ∀ c ∈ t, isBlank c = true → c = ' '
  head : ∀ c ∈ t.head?, isBlank c = false
  last : ∀ c ∈ t.getLast?, isBlank c = false
  apart : t.IsChain fun c d => isBlank c = true → isBlank d = false ∧ closesUp d = false

instance (t : Text) : Decidable (Neat t) :=
  decidable_of_iff (t.all (fun c => !isBlank c || c == ' ') = true ∧
      t.head?.all (fun c => !isBlank c) = true ∧ t.getLast?.all (fun c => !isBlank c) = true ∧
      t.IsChain fun c d => isBlank c = true → isBlank d = false ∧ closesUp d = false)
    ⟨fun h => ⟨by simpa [imp_iff_not_or] using h.1, by simpa [Option.all_eq_true] using h.2.1,
      by simpa [Option.all_eq_true] using h.2.2.1, h.2.2.2⟩,
    fun h => ⟨by simpa [imp_iff_not_or] using h.spaces, by simpa [Option.all_eq_true] using h.head,
      by simpa [Option.all_eq_true] using h.last, h.apart⟩⟩

/-! ## Squeezed texts -/

/-- Blanks are single spaces, and none is the last character. -/
structure Squeezed (t : Text) : Prop where
  spaces : ∀ c ∈ t, isBlank c = true → c = ' '
  last : ∀ c ∈ t.getLast?, isBlank c = false
  apart : t.IsChain fun c d => isBlank c = true → isBlank d = false

theorem Squeezed.nil : Squeezed [] := ⟨nofun, nofun, .nil⟩

theorem Squeezed.tail (h : Squeezed (c :: t)) : Squeezed t where
  spaces d hd := h.spaces d (List.mem_cons_of_mem c hd)
  last d hd := by
    refine h.last d ?_
    obtain ⟨r, rfl⟩ := List.getLast?_eq_some_iff.mp hd
    exact List.getLast?_concat (l := c :: r)
  apart := h.apart.tail

/-- Behind a blank there is something that is none. -/
theorem Squeezed.exists_of_blank (h : Squeezed (c :: t)) (hc : isBlank c = true) :
    ∃ d r, t = d :: r ∧ isBlank d = false := by
  cases t with
  | nil =>
    have hlast := h.last c rfl
    rw [hc] at hlast
    cases hlast
  | cons d r => exact ⟨d, r, rfl, (List.isChain_cons_cons.mp h.apart).1 hc⟩

theorem Squeezed.cons (h : Squeezed t) (hc : isBlank c = false) : Squeezed (c :: t) where
  spaces := List.forall_mem_cons.mpr ⟨fun hblank => by simp [hc] at hblank, h.spaces⟩
  last d hd := by
    cases t with
    | nil =>
      obtain rfl := Option.some.inj hd
      exact hc
    | cons x r =>
      rw [List.getLast?_cons_cons] at hd
      exact h.last d hd
  apart := h.apart.cons fun d _ hblank => by simp [hc] at hblank

theorem Squeezed.space (h : Squeezed t) (hne : t ≠ []) (hhead : ∀ d ∈ t.head?, isBlank d = false) :
    Squeezed (' ' :: t) where
  spaces := List.forall_mem_cons.mpr ⟨fun _ => rfl, h.spaces⟩
  last d hd := by
    obtain ⟨x, r, rfl⟩ := List.exists_cons_of_ne_nil hne
    rw [List.getLast?_cons_cons] at hd
    exact h.last d hd
  apart := h.apart.cons fun d hd _ => hhead d hd

theorem squeezed_squeeze (t : Text) : Squeezed (Text.squeeze t) := by
  induction t with
  | nil => exact .nil
  | cons c t ih =>
    rw [Text.squeeze_cons]
    cases hc : isBlank c with
    | false =>
      rw [Text.squeezeCons_of_not_blank hc]
      exact ih.cons hc
    | true =>
      cases hs : Text.squeeze t with
      | nil =>
        rw [Text.squeezeCons_blank_nil hc]
        exact .nil
      | cons d r =>
        rw [hs] at ih
        by_cases hd : d = ' '
        · rw [hd, Text.squeezeCons_blank_space hc, ← hd]
          exact ih
        · rw [Text.squeezeCons_blank_cons hc hd]
          refine ih.space (List.cons_ne_nil d r) fun x hx => ?_
          obtain rfl := Option.some.inj hx
          by_contra hblank
          exact hd (ih.spaces d List.mem_cons_self (by simpa using hblank))

theorem squeeze_of_squeezed (h : Squeezed t) : Text.squeeze t = t := by
  induction t with
  | nil => rfl
  | cons c t ih =>
    rw [Text.squeeze_cons, ih h.tail]
    cases hc : isBlank c with
    | false => exact Text.squeezeCons_of_not_blank hc t
    | true =>
      obtain ⟨d, r, rfl, hd⟩ := h.exists_of_blank hc
      have hne : d ≠ ' ' := by
        rintro rfl
        rw [isBlank_space] at hd
        cases hd
      rw [Text.squeezeCons_blank_cons hc hne, h.spaces c List.mem_cons_self hc]

/-- A collapsed text is squeezed and does not begin with a blank. -/
theorem squeezed_collapse (t : Text) :
    Squeezed t.collapse ∧ ∀ c ∈ t.collapse.head?, isBlank c = false := by
  have hsqueezed := squeezed_squeeze t
  by_cases hspace : (Text.squeeze t).head? = some ' '
  · obtain ⟨r, hr⟩ := List.head?_eq_some_iff.mp hspace
    rw [hr] at hsqueezed
    obtain ⟨d, r', rfl, hd⟩ := hsqueezed.exists_of_blank isBlank_space
    rw [Text.collapse_of_squeeze_cons_space hr]
    exact ⟨hsqueezed.tail, fun c hc => Option.some.inj hc ▸ hd⟩
  · rw [Text.collapse_of_head_ne hspace]
    refine ⟨hsqueezed, fun c hc => ?_⟩
    by_contra hblank
    have hspaces := hsqueezed.spaces c (List.mem_of_mem_head? hc) (by simpa using hblank)
    exact hspace (hspaces ▸ hc)

/-! ## Signs that close up -/

theorem tighten_cons (c : Char) (t : Text) : tighten (c :: t) =
    if c = ' ' ∧ (tighten t).head?.any closesUp = true then tighten t else c :: tighten t := by
  simp [tighten]

/-- A space is left out only in front of a sign, so a word keeps its place at the front. -/
theorem head?_tighten (h : ∀ c ∈ t.head?, isBlank c = false) : (tighten t).head? = t.head? := by
  cases t with
  | nil => rfl
  | cons c t =>
    have hc : c ≠ ' ' := by
      rintro rfl
      have hblank := h ' ' rfl
      rw [isBlank_space] at hblank
      cases hblank
    rw [tighten_cons, if_neg fun hspace => hc hspace.1]
    rfl

theorem neat_tighten (h : Squeezed t) : Squeezed (tighten t) ∧
    (tighten t).IsChain fun c d => isBlank c = true → isBlank d = false ∧ closesUp d = false := by
  induction t with
  | nil => exact ⟨.nil, .nil⟩
  | cons c t ih =>
    obtain ⟨hsqueezed, hapart⟩ := ih h.tail
    rw [tighten_cons]
    split
    · exact ⟨hsqueezed, hapart⟩
    · next hkeep =>
      cases hc : isBlank c with
      | false => exact ⟨hsqueezed.cons hc, hapart.cons fun d _ hblank => by simp [hc] at hblank⟩
      | true =>
        obtain rfl : c = ' ' := h.spaces c List.mem_cons_self hc
        obtain ⟨d, r, rfl, hd⟩ := h.exists_of_blank hc
        have hhead : (tighten (d :: r)).head? = some d :=
          head?_tighten fun x hx => Option.some.inj hx ▸ hd
        rw [hhead] at hkeep
        have hnone : ∀ x ∈ (tighten (d :: r)).head?, isBlank x = false ∧ closesUp x = false := by
          rw [hhead]
          rintro x ⟨⟩
          exact ⟨hd, by simpa using hkeep⟩
        refine ⟨hsqueezed.space ?_ fun x hx => (hnone x hx).1, hapart.cons fun x hx _ => hnone x hx⟩
        intro hnil
        rw [hnil] at hhead
        cases hhead

theorem tighten_of_apart
    (h : t.IsChain fun c d => isBlank c = true → isBlank d = false ∧ closesUp d = false) :
    tighten t = t := by
  induction t with
  | nil => rfl
  | cons c t ih =>
    rw [tighten_cons, ih h.tail, if_neg]
    rintro ⟨rfl, hcloses⟩
    obtain ⟨d, hd, hsign⟩ := (Option.any_eq_true _ _).mp hcloses
    have hkeep := ((List.isChain_cons.mp h).1 d hd isBlank_space).2
    rw [hsign] at hkeep
    cases hkeep

/-! ## Neat texts -/

theorem Neat.squeezed (h : Neat t) : Squeezed t where
  spaces := h.spaces
  last := h.last
  apart := h.apart.imp fun _ _ hcd hc => (hcd hc).1

/-- **Normalizing makes a text neat.** -/
theorem neat_normalize (t : Text) : Neat (normalize t) := by
  obtain ⟨hsqueezed, hhead⟩ := squeezed_collapse t
  obtain ⟨htight, hapart⟩ := neat_tighten hsqueezed
  exact {
    spaces := htight.spaces
    head := by rwa [normalize, head?_tighten hhead]
    last := htight.last
    apart := hapart }

/-- **A neat text is normal.** -/
theorem normalize_of_neat (h : Neat t) : normalize t = t := by
  have hhead : (Text.squeeze t).head? ≠ some ' ' := by
    intro hspace
    rw [squeeze_of_squeezed h.squeezed] at hspace
    have hblank := h.head ' ' hspace
    rw [isBlank_space] at hblank
    cases hblank
  rw [normalize, Text.collapse_of_head_ne hhead, squeeze_of_squeezed h.squeezed,
    tighten_of_apart h.apart]

end Polish

end SpokenMath
