import SpokenMath.Proofs.Text.Gap

/-!
# Texts that differ in blanks only

Two texts are **alike** if they are the same once they are collapsed, wherever they stand: what is
in front of a text decides whether a blank at its front is written.

**Theorem (`alike_collapseFrom`).** A text that was collapsed behind a gap is alike to what it was
before, blanks that are due included.
-/

namespace SpokenMath

/-- The texts are the same once they are collapsed, behind any gap. -/
def Alike (s t : Text) : Prop :=
  ∀ g : Gap, s.collapseFrom g = t.collapseFrom g ∧ g.afterText s = g.afterText t

namespace Alike

variable {s s' t t' u : Text}

theorem refl (t : Text) : Alike t t := fun _ => ⟨rfl, rfl⟩

theorem symm (h : Alike s t) : Alike t s := fun g => ⟨(h g).1.symm, (h g).2.symm⟩

theorem trans (h : Alike s t) (h' : Alike t u) : Alike s u :=
  fun g => ⟨(h g).1.trans (h' g).1, (h g).2.trans (h' g).2⟩

theorem append (h : Alike s t) (h' : Alike s' t') : Alike (s ++ s') (t ++ t') := by
  intro g
  obtain ⟨htext, hgap⟩ := h g
  constructor
  · rw [Text.collapseFrom_append, Text.collapseFrom_append, htext, hgap, (h' _).1]
  · rw [Gap.afterText_append, Gap.afterText_append, hgap, (h' _).2]

theorem append_left (h : Alike s t) (u : Text) : Alike (u ++ s) (u ++ t) := (refl u).append h

theorem append_right (h : Alike s t) (u : Text) : Alike (s ++ u) (t ++ u) := h.append (refl u)

theorem collapse_eq (h : Alike s t) : s.collapse = t.collapse := by
  rw [← Text.collapseFrom_start, ← Text.collapseFrom_start, (h .start).1]

/-- One blank is like another, and like two of them. -/
theorem blank_blank {c d : Char} (hc : isBlank c = true) (hd : isBlank d = true) :
    Alike [c, d] [' '] := by
  intro g
  cases g <;> simp [Text.collapseFrom, Gap.after, hc, hd, isBlank_space]

end Alike

/-- A text that was collapsed behind a gap, with the blank that is still due. -/
theorem alike_collapseFrom {g : Gap} (hg : g ≠ .start) (t : Text) :
    Alike (t.collapseFrom g ++ (g.afterText t).space) (g.space ++ t) := by
  induction t generalizing g with
  | nil =>
    rw [Text.collapseFrom_nil, Gap.afterText_nil, List.nil_append, List.append_nil]
    exact .refl _
  | cons c t ih =>
    cases hc : isBlank c with
    | true =>
      have hafter : g.after c = .blank := by rw [Gap.after_of_blank hc, if_neg hg]
      have hspace : Alike [' '] (g.space ++ [c]) := by
        cases g with
        | start => exact absurd rfl hg
        | solid =>
          intro G
          cases G <;> simp [Text.collapseFrom, Gap.after, hc, isBlank_space]
        | blank => exact (Alike.blank_blank isBlank_space hc).symm
      rw [Text.collapseFrom_cons_of_blank hc, Gap.afterText_cons, hafter]
      have hbehind := (ih (g := .blank) (by decide)).trans (hspace.append_right t)
      rwa [List.append_assoc] at hbehind
    | false =>
      rw [Text.collapseFrom_cons_of_not_blank hc, Gap.afterText_cons, Gap.after_of_not_blank hc,
        List.append_assoc, List.cons_append]
      exact ((ih (g := .solid) (by decide)).append_left [c]).append_left g.space

end SpokenMath
