import SpokenMath.Text.Basic
import SpokenMath.Unicode.WordChars
import Mathlib

/-!
# Letters

Case is that of the ASCII letters, and every other character stays as it is. So two characters that
are the same up to case are the same or letters (`eq_or_isAlpha_of_toLower_eq`).
-/

namespace SpokenMath

variable {c d : Char}

theorem isAlpha_of_isLower (h : c.isLower = true) : c.isAlpha = true := by simp [Char.isAlpha, h]

theorem isAlpha_toUpper (h : c.isLower = true) : c.toUpper.isAlpha = true :=
  (Char.isAlpha_toUpper_eq_isAlpha c).trans (isAlpha_of_isLower h)

theorem toLower_of_isLower (h : c.isLower = true) : c.toLower = c :=
  Char.toLower_eq_of_not_isUpper (Char.not_isUpper_of_isLower h)

theorem toLower_of_not_isAlpha (h : c.isAlpha = false) : c.toLower = c := by
  refine Char.toLower_eq_of_not_isUpper fun hupper => ?_
  simp [Char.isAlpha, hupper] at h

/-- Characters that are the same up to case are the same or letters. -/
theorem eq_or_isAlpha_of_toLower_eq (h : c.toLower = d.toLower) :
    c = d ∨ c.isAlpha = true ∧ d.isAlpha = true := by
  have halpha : d.isAlpha = c.isAlpha := by
    rw [← Char.isAlpha_toLower_eq_isAlpha d, ← h, Char.isAlpha_toLower_eq_isAlpha]
  cases hc : c.isAlpha with
  | true => exact .inr ⟨rfl, halpha.trans hc⟩
  | false =>
    rw [toLower_of_not_isAlpha hc, toLower_of_not_isAlpha (halpha.trans hc)] at h
    exact .inl h

theorem utf8Size_of_isAlpha (h : c.isAlpha = true) : c.utf8Size = 1 := by
  have hbounds := isAlpha_iff.mp h
  refine Char.utf8Size_eq_one_iff.mpr (UInt32.le_iff_toNat_le.mpr ?_)
  show c.toNat ≤ 127
  omega

theorem isWordChar_of_isAlpha (h : c.isAlpha = true) : isWordChar c = true := by
  have hbounds := isAlpha_iff.mp h
  rw [isWordChar, if_pos (by omega), isAsciiWordChar, Char.isAlphanum, h]
  rfl

theorem isDigit_of_isAlpha (h : c.isAlpha = true) : c.isDigit = false := by
  have hbounds := isAlpha_iff.mp h
  simp [Char.isDigit, UInt32.le_iff_toNat_le]
  omega

end SpokenMath
