import SpokenMath.Proofs.Text.Collapse

/-!
# Collapsing from the left

A text that is collapsed piece by piece needs to know what stands before a piece: nothing, a
character that is no blank, or blanks that are not written yet. This is a `Gap`. A blank is written
together with the next character that is none, so blanks at the end are never written.

**Theorem (`collapseFrom_start`).** From the start, this is `collapse`.

**Theorem (`collapseFrom_collapseFrom`).** A collapsed piece is collapsed no further.
-/

namespace SpokenMath

theorem isBlank_space : isBlank ' ' = true := by decide

/-- What stands before a piece of text. -/
inductive Gap
  /-- Nothing but blanks. -/
  | start
  /-- A character that is no blank. -/
  | solid
  /-- Blanks behind a character that is none. -/
  | blank
  deriving DecidableEq

namespace Gap

/-- What stands before the next piece. -/
def after (g : Gap) (c : Char) : Gap :=
  if isBlank c then if g = start then start else blank else solid

def afterText (g : Gap) (t : Text) : Gap := t.foldl after g

/-- What is still to be written. -/
def space : Gap → Text
  | blank => [' ']
  | _ => []

@[simp] theorem afterText_nil (g : Gap) : g.afterText [] = g := rfl

@[simp] theorem afterText_cons (g : Gap) (c : Char) (t : Text) :
    g.afterText (c :: t) = (g.after c).afterText t := by
  rw [afterText, List.foldl_cons, afterText]

@[simp] theorem afterText_append (g : Gap) (s t : Text) :
    g.afterText (s ++ t) = (g.afterText s).afterText t :=
  List.foldl_append

@[simp] theorem space_start : space start = [] := rfl

@[simp] theorem space_solid : space solid = [] := rfl

@[simp] theorem space_blank : space blank = [' '] := rfl

theorem after_of_not_blank {c : Char} (h : isBlank c = false) (g : Gap) : g.after c = solid :=
  if_neg (by rw [h]; exact Bool.false_ne_true)

theorem after_of_blank {c : Char} (h : isBlank c = true) (g : Gap) :
    g.after c = if g = start then start else blank :=
  if_pos h

/-- There is as much before one piece as before the other, but perhaps for a blank that is due. -/
def Reaches (G g : Gap) : Prop := G = g ∨ G = solid ∧ g = blank

theorem Reaches.refl (g : Gap) : Reaches g g := .inl rfl

theorem Reaches.after_blank {G g : Gap} (h : Reaches G g) {c : Char} (hc : isBlank c = true) :
    Reaches G (g.after c) := by
  rw [after_of_blank hc]
  rcases h with rfl | ⟨rfl, rfl⟩
  · cases G
    · exact .inl rfl
    · exact .inr ⟨rfl, rfl⟩
    · exact .inl rfl
  · exact .inr ⟨rfl, rfl⟩

end Gap

namespace Text

/-- The text with single spaces for its blank runs, as it is written behind a gap. -/
def collapseFrom (g : Gap) : Text → Text
  | [] => []
  | c :: t => if isBlank c then collapseFrom (g.after c) t else g.space ++ c :: collapseFrom .solid t

variable {g G : Gap} {c : Char}

@[simp] theorem collapseFrom_nil (g : Gap) : collapseFrom g [] = [] := rfl

theorem collapseFrom_cons_of_blank (h : isBlank c = true) (g : Gap) (t : Text) :
    collapseFrom g (c :: t) = collapseFrom (g.after c) t :=
  if_pos h

theorem collapseFrom_cons_of_not_blank (h : isBlank c = false) (g : Gap) (t : Text) :
    collapseFrom g (c :: t) = g.space ++ c :: collapseFrom .solid t :=
  if_neg (by rw [h]; exact Bool.false_ne_true)

theorem collapseFrom_append (g : Gap) (s t : Text) :
    collapseFrom g (s ++ t) = collapseFrom g s ++ collapseFrom (g.afterText s) t := by
  induction s generalizing g with
  | nil => rfl
  | cons c s ih =>
    cases hc : isBlank c with
    | true =>
      rw [List.cons_append, collapseFrom_cons_of_blank hc, collapseFrom_cons_of_blank hc, ih]
      rfl
    | false =>
      rw [List.cons_append, collapseFrom_cons_of_not_blank hc, collapseFrom_cons_of_not_blank hc,
        ih, Gap.afterText_cons, Gap.after_of_not_blank hc, List.append_assoc, List.cons_append]

theorem squeezeCons_of_blank (h : isBlank c = true) (t : Text) :
    squeezeCons c t = squeezeCons ' ' t := by
  unfold squeezeCons
  rw [if_pos h, if_pos isBlank_space]

theorem collapse_cons_of_blank (h : isBlank c = true) (t : Text) :
    collapse (c :: t) = collapse t := by
  cases hs : squeeze t with
  | nil => simp [collapse, hs, squeezeCons_blank_nil h]
  | cons x r =>
    by_cases hx : x = ' '
    · simp [collapse, hs, hx, squeezeCons_blank_space h]
    · rw [collapse_of_squeeze_cons_space (r := x :: r), collapse_of_head_ne, hs]
      · simpa [hs] using hx
      · rw [squeeze_cons, hs, squeezeCons_blank_cons h hx]

theorem collapseFrom_append_of_not_blank {s : Text} (h : ∀ c ∈ s, isBlank c = false) (t : Text) :
    collapseFrom .solid (s ++ t) = s ++ collapseFrom .solid t := by
  induction s with
  | nil => rfl
  | cons c s ih =>
    obtain ⟨hc, hs⟩ := List.forall_mem_cons.mp h
    rw [List.cons_append, collapseFrom_cons_of_not_blank hc, ih hs]
    rfl

/-- Behind any gap a text is squeezed, with one more blank where one is due. -/
theorem collapseFrom_eq (t : Text) :
    collapseFrom .solid t = squeeze t ∧ collapseFrom .blank t = squeezeCons ' ' (squeeze t) ∧
      collapseFrom .start t = collapse t := by
  induction t with
  | nil => exact ⟨rfl, rfl, rfl⟩
  | cons c t ih =>
    obtain ⟨hsolid, hblank, hstart⟩ := ih
    cases hc : isBlank c with
    | true =>
      simp only [collapseFrom_cons_of_blank hc, Gap.after_of_blank hc, reduceCtorEq, if_false,
        if_true, squeeze_cons, hblank, hstart, squeezeCons_of_blank hc,
        squeezeCons_blank_twice isBlank_space isBlank_space, collapse_cons_of_blank hc, and_self]
    | false =>
      have hne : c ≠ ' ' := by
        rintro rfl
        rw [isBlank_space] at hc
        cases hc
      refine ⟨?_, ?_, ?_⟩
      · rw [collapseFrom_cons_of_not_blank hc, hsolid, squeeze_cons, squeezeCons_of_not_blank hc]
        rfl
      · rw [collapseFrom_cons_of_not_blank hc, hsolid, squeeze_cons, squeezeCons_of_not_blank hc,
          squeezeCons_blank_cons isBlank_space hne]
        rfl
      · rw [collapseFrom_cons_of_not_blank hc, hsolid, collapse_of_head_ne, squeeze_cons,
          squeezeCons_of_not_blank hc]
        · rfl
        · rw [squeeze_cons, squeezeCons_of_not_blank hc]
          simpa using hne

theorem collapseFrom_start (t : Text) : collapseFrom .start t = t.collapse :=
  (collapseFrom_eq t).2.2

/-- A collapsed piece is collapsed no further. -/
theorem collapseFrom_collapseFrom (h : G.Reaches g) (t : Text) :
    collapseFrom G (collapseFrom g t) = collapseFrom g t := by
  induction t generalizing G g with
  | nil => rfl
  | cons c t ih =>
    cases hc : isBlank c with
    | true =>
      rw [collapseFrom_cons_of_blank hc]
      exact ih (h.after_blank hc)
    | false =>
      have hspace : collapseFrom G (g.space ++ c :: collapseFrom .solid t) =
          g.space ++ c :: collapseFrom .solid (collapseFrom .solid t) := by
        rcases h with rfl | ⟨rfl, rfl⟩
        · cases G <;> simp [collapseFrom, hc, Gap.after, isBlank_space]
        · simp [collapseFrom, hc, Gap.after, isBlank_space]
      rw [collapseFrom_cons_of_not_blank hc, hspace, ih (.refl _)]

/-- What stands behind a collapsed piece, but perhaps for a blank that is due. -/
theorem reaches_afterText (h : G.Reaches g) (t : Text) :
    (G.afterText (collapseFrom g t)).Reaches (g.afterText t) := by
  induction t generalizing G g with
  | nil => exact h
  | cons c t ih =>
    cases hc : isBlank c with
    | true =>
      rw [collapseFrom_cons_of_blank hc]
      exact ih (h.after_blank hc)
    | false =>
      rw [collapseFrom_cons_of_not_blank hc, Gap.afterText_append, Gap.afterText_cons,
        Gap.after_of_not_blank hc, Gap.afterText_cons, Gap.after_of_not_blank hc]
      exact ih (.refl _)

theorem mem_collapseFrom {t : Text} {x : Char} (h : x ∈ collapseFrom g t) : x ∈ t ∨ x = ' ' := by
  induction t generalizing g with
  | nil => cases h
  | cons c t ih =>
    cases hc : isBlank c with
    | true =>
      rw [collapseFrom_cons_of_blank hc] at h
      exact (ih h).imp_left (List.mem_cons_of_mem c)
    | false =>
      rw [collapseFrom_cons_of_not_blank hc] at h
      rcases List.mem_append.mp h with h | h
      · cases g <;> simp at h
        exact .inr h
      · rcases List.mem_cons.mp h with rfl | h
        · exact .inl List.mem_cons_self
        · exact (ih h).imp_left (List.mem_cons_of_mem c)

/-! ## The ends of a collapsed piece -/

/-- At the start nothing has been written. -/
theorem collapseFrom_of_afterText_start {t : Text} (h : g.afterText t = .start) :
    g = .start ∧ collapseFrom g t = [] := by
  induction t generalizing g with
  | nil => exact ⟨h, rfl⟩
  | cons c t ih =>
    obtain ⟨hafter, hnil⟩ := ih h
    cases hc : isBlank c with
    | true =>
      rw [collapseFrom_cons_of_blank hc]
      rw [Gap.after_of_blank hc] at hafter
      split at hafter
      · next hstart => exact ⟨hstart, hnil⟩
      · cases hafter
    | false =>
      rw [Gap.after_of_not_blank hc] at hafter
      cases hafter

/-- A blank that is due is written before anything else, or is still due. -/
theorem collapseFrom_blank (t : Text) :
    (∃ r, collapseFrom .blank t = ' ' :: r) ∨
      collapseFrom .blank t = [] ∧ Gap.blank.afterText t = .blank := by
  induction t with
  | nil => exact .inr ⟨rfl, rfl⟩
  | cons c t ih =>
    cases hc : isBlank c with
    | true =>
      rw [collapseFrom_cons_of_blank hc, Gap.afterText_cons, Gap.after_of_blank hc,
        if_neg (by decide)]
      exact ih
    | false =>
      rw [collapseFrom_cons_of_not_blank hc]
      exact .inl ⟨_, rfl⟩

/-- A character that is no blank is written at once. -/
theorem getLast?_collapseFrom {t : Text} (hne : t ≠ []) (h : g.afterText t = .solid) :
    (collapseFrom g t).getLast? = t.getLast? := by
  obtain ⟨r, hr⟩ := List.getLast?_eq_some_iff.mp (List.getLast?_eq_some_getLast hne)
  generalize t.getLast hne = c at hr
  subst hr
  cases hc : isBlank c with
  | true =>
    rw [Gap.afterText_append, Gap.afterText_cons, Gap.after_of_blank hc] at h
    split at h <;> cases h
  | false =>
    rw [collapseFrom_append, collapseFrom_cons_of_not_blank hc, collapseFrom_nil,
      ← List.append_assoc, List.getLast?_concat, List.getLast?_concat]

/-! ## Solid texts -/

/-- There is no blank at either end. -/
structure Solid (t : Text) : Prop where
  head : ∃ c ∈ t.head?, isBlank c = false
  last : ∃ c ∈ t.getLast?, isBlank c = false

theorem collapseFrom_of_head {t : Text} (h : ∃ c ∈ t.head?, isBlank c = false) (g : Gap) :
    collapseFrom g t = g.space ++ collapseFrom .solid t := by
  obtain ⟨c, hc, hblank⟩ := h
  obtain ⟨r, rfl⟩ := List.head?_eq_some_iff.mp hc
  rw [collapseFrom_cons_of_not_blank hblank, collapseFrom_cons_of_not_blank hblank]
  rfl

theorem afterText_of_last {t : Text} (h : ∃ c ∈ t.getLast?, isBlank c = false) (g : Gap) :
    g.afterText t = .solid := by
  obtain ⟨c, hc, hblank⟩ := h
  obtain ⟨r, rfl⟩ := List.getLast?_eq_some_iff.mp hc
  rw [Gap.afterText_append, Gap.afterText_cons, Gap.after_of_not_blank hblank, Gap.afterText_nil]

theorem Solid.append {s t : Text} (hs : Solid s) (ht : t = [] ∨ Solid t) : Solid (s ++ t) := by
  rcases ht with rfl | ht
  · rwa [List.append_nil]
  · obtain ⟨c, hc, hblank⟩ := hs.head
    obtain ⟨d, hd, hblank'⟩ := ht.last
    rw [Option.mem_def] at hc hd
    exact ⟨⟨c, by simp [hc], hblank⟩, ⟨d, by simp [hd], hblank'⟩⟩

theorem solid_of_forall {t : Text} (hne : t ≠ []) (h : ∀ c ∈ t, isBlank c = false) : Solid t :=
  ⟨⟨t.head hne, List.head?_eq_some_head hne, h _ (List.head_mem hne)⟩,
    ⟨t.getLast hne, List.getLast?_eq_some_getLast hne, h _ (List.getLast_mem hne)⟩⟩

theorem solid_delimited {o c : Char} (ho : isBlank o = false) (hc : isBlank c = false) (t : Text) :
    Solid (o :: (t ++ [c])) :=
  ⟨⟨o, rfl, ho⟩, ⟨c, by rw [← List.cons_append]; exact List.getLast?_concat, hc⟩⟩

/-- A solid piece goes on with no blank due. -/
theorem Solid.collapseFrom_append {s : Text} (h : Solid s) (g : Gap) (t : Text) :
    collapseFrom g (s ++ t) = g.space ++ collapseFrom .solid s ++ collapseFrom .solid t := by
  rw [Text.collapseFrom_append, collapseFrom_of_head h.head, afterText_of_last h.last]

/-- What is written before a solid piece is written once. -/
theorem Solid.collapseFrom_space_append {t : Text} (h : Solid t) (hreaches : G.Reaches g) :
    collapseFrom G (g.space ++ t) = g.space ++ collapseFrom .solid t := by
  rw [Text.collapseFrom_append]
  rcases hreaches with rfl | ⟨rfl, rfl⟩
  · cases G
    · exact collapseFrom_of_head h.head _
    · exact collapseFrom_of_head h.head _
    · rw [Gap.space_blank, collapseFrom_cons_of_blank isBlank_space]
      exact collapseFrom_of_head h.head _
  · rw [Gap.space_blank, collapseFrom_cons_of_blank isBlank_space]
    exact collapseFrom_of_head h.head _

/-! ## Between delimiters -/

/-- The text with single spaces for its blank runs, also for those at its ends. -/
def spaced (t : Text) : Text := collapseFrom .solid t ++ (Gap.solid.afterText t).space

/-- Between delimiters, which are no blanks, every blank run is written. -/
theorem collapseFrom_delimited {o c : Char} (ho : isBlank o = false) (hc : isBlank c = false)
    (s t : Text) :
    collapseFrom .solid (o :: (s ++ c :: t)) = o :: (spaced s ++ c :: collapseFrom .solid t) := by
  rw [collapseFrom_cons_of_not_blank ho, Text.collapseFrom_append,
    collapseFrom_cons_of_not_blank hc, spaced, List.append_assoc]
  rfl

end Text

end SpokenMath
