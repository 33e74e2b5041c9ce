import SpokenMath.Proofs.Lists
import SpokenMath.Proofs.Screening.Reading
import SpokenMath.Screening.Cleaning

/-!
# What follows what is skipped

Cleaning skips comments, groups and the arguments of commands. What follows is always the end of
what was there, so a text does not grow.

Comments and groups end between two pieces, and the pieces of what follows are the last pieces of
the text (`pieces_rest_suffix`). This is not so for the arguments of forbidden commands, where a
backslash may be skipped without the character behind it.
-/

namespace SpokenMath

namespace Cleaning

/-! ## The end of a text -/

theorem skipLine_suffix (t : Text) : skipLine t <:+ t :=
  (List.drop_suffix 1 _).trans (List.dropWhile_suffix _)

theorem trimStart_suffix (t : Text) : t.trimStart <:+ t := List.dropWhile_suffix _

theorem skipToClose_suffix (depth : Nat) (t : Text) : skipToClose depth t <:+ t := by
  fun_induction skipToClose depth t with
  | case1 => exact List.suffix_rfl
  | case2 => exact List.nil_suffix
  | case3 depth c t ih => exact ih.trans ((List.suffix_cons _ _).trans (List.suffix_cons _ _))
  | case4 depth t _ _ ih => exact ih.trans (List.suffix_cons _ _)
  | case5 depth t _ _ hne hdepth => exact List.suffix_cons _ _
  | case6 depth t _ _ hne hdepth ih => exact ih.trans (List.suffix_cons _ _)
  | case7 depth c t _ _ hopen hclose ih => exact ih.trans (List.suffix_cons _ _)

theorem skipGroup_suffix (t : Text) : (skipGroup t).2 <:+ t := by
  have h := trimStart_suffix t
  unfold skipGroup
  split
  · next r hr =>
    rw [hr] at h
    exact (skipToClose_suffix 1 r).trans ((List.suffix_cons _ _).trans h)
  · exact h

theorem skipGroups_suffix (n : Nat) (t : Text) : skipGroups n t <:+ t := by
  induction n generalizing t with
  | zero => exact List.suffix_rfl
  | succ n ih =>
    have h := skipGroup_suffix t
    unfold skipGroups
    split
    · next r hr =>
      rw [hr] at h
      exact (ih r).trans h
    · next r hr =>
      rw [hr] at h
      exact h

theorem skipControlWord_suffix (t : Text) : skipControlWord t <:+ t := by
  have h := trimStart_suffix t
  unfold skipControlWord
  split
  · next r hr =>
    rw [hr] at h
    exact (List.dropWhile_suffix _).trans ((List.suffix_cons _ _).trans h)
  · exact h

/-- What follows a control word and its arguments. -/
theorem rest_suffix (elide : Bool) (name : String) (rest : Text) :
    (word elide name rest).2.1 <:+ rest := by
  unfold word
  split
  · exact skipGroup_suffix rest
  · split
    · exact List.suffix_rfl
    · split
      · exact (skipGroups_suffix _ _).trans (skipControlWord_suffix rest)
      · exact List.suffix_rfl

/-! ## The last pieces of a text -/

theorem pieces_nil_suffix (ps : List Piece) : pieces [] <:+ ps := by
  rw [pieces_nil]
  exact List.nil_suffix

theorem skipLine_cons_of_ne {c : Char} (h : c ≠ '\n') (t : Text) :
    skipLine (c :: t) = skipLine t := by
  unfold skipLine
  rw [List.dropWhile_cons_of_pos (by simpa using h)]

theorem skipLine_cons_newline (t : Text) : skipLine ('\n' :: t) = t := rfl

theorem skipLine_dropWhile_isAlpha (t : Text) :
    skipLine (t.dropWhile Char.isAlpha) = skipLine t := by
  refine apply_dropWhile (fun c t halpha => skipLine_cons_of_ne ?_ t) t
  rintro rfl
  cases halpha

theorem pieces_skipLine_suffix (t : Text) : pieces (skipLine t) <:+ pieces t := by
  fun_induction pieces t with
  | case1 => exact pieces_nil_suffix _
  | case2 =>
    rw [skipLine_cons_of_ne (by decide)]
    exact pieces_nil_suffix _
  | case3 c t hc ih =>
    have hne : c ≠ '\n' := by
      rintro rfl
      cases hc
    rw [skipLine_cons_of_ne (by decide), skipLine_cons_of_ne hne, ← skipLine_dropWhile_isAlpha]
    exact ih.trans (List.suffix_cons _ _)
  | case4 c t hc ih =>
    rw [skipLine_cons_of_ne (by decide)]
    by_cases hne : c = '\n'
    · rw [hne, skipLine_cons_newline]
      exact List.suffix_cons _ _
    · rw [skipLine_cons_of_ne hne]
      exact ih.trans (List.suffix_cons _ _)
  | case5 c t hend hpair ih =>
    by_cases hne : c = '\n'
    · rw [hne, skipLine_cons_newline]
      exact List.suffix_cons _ _
    · rw [skipLine_cons_of_ne hne]
      exact ih.trans (List.suffix_cons _ _)

theorem pieces_trimStart_suffix (t : Text) : pieces t.trimStart <:+ pieces t := by
  unfold Text.trimStart
  induction t with
  | nil => exact List.suffix_rfl
  | cons c t ih =>
    cases hblank : isBlank c with
    | true =>
      rw [List.dropWhile_cons_of_pos hblank, pieces_blank hblank]
      exact ih.trans (List.suffix_cons _ _)
    | false =>
      have hstays : (c :: t).dropWhile isBlank = c :: t :=
        List.dropWhile_cons_of_neg (by simp [hblank])
      exact ⟨[], congrArg pieces hstays⟩

theorem skipToClose_cons_other {c : Char} (hc : c ≠ '\\') (hopen : c ≠ '{') (hclose : c ≠ '}')
    (depth : Nat) (t : Text) : skipToClose depth (c :: t) = skipToClose depth t := by
  rw [skipToClose.eq_4 _ _ _ (by simp [hc]) (by simp [hc]), if_neg hopen, if_neg hclose]

theorem skipToClose_dropWhile_isAlpha (depth : Nat) (t : Text) :
    skipToClose depth (t.dropWhile Char.isAlpha) = skipToClose depth t := by
  refine apply_dropWhile (fun c t halpha => skipToClose_cons_other ?_ ?_ ?_ depth t) t
  all_goals
    rintro rfl
    cases halpha

theorem pieces_skipToClose_suffix (depth : Nat) (t : Text) :
    pieces (skipToClose depth t) <:+ pieces t := by
  fun_induction pieces t generalizing depth with
  | case1 =>
    rw [skipToClose]
    exact pieces_nil_suffix _
  | case2 =>
    rw [skipToClose]
    exact pieces_nil_suffix _
  | case3 c t hc ih =>
    rw [skipToClose, ← skipToClose_dropWhile_isAlpha]
    exact (ih depth).trans (List.suffix_cons _ _)
  | case4 c t hc ih =>
    rw [skipToClose]
    exact (ih depth).trans (List.suffix_cons _ _)
  | case5 c t hend hpair ih =>
    rw [skipToClose.eq_4 _ _ _ hend hpair]
    split
    · exact (ih _).trans (List.suffix_cons _ _)
    · split
      · split
        · exact List.suffix_cons _ _
        · exact (ih _).trans (List.suffix_cons _ _)
      · exact (ih _).trans (List.suffix_cons _ _)

theorem pieces_skipGroup_suffix (t : Text) : pieces (skipGroup t).2 <:+ pieces t := by
  have h := pieces_trimStart_suffix t
  unfold skipGroup
  split
  · next r hr =>
    rw [hr, pieces_sign (by decide) (by decide)] at h
    exact (pieces_skipToClose_suffix 1 r).trans ((List.suffix_cons _ _).trans h)
  · exact h

/-- **What follows a control word that is not left out as forbidden ends the pieces.** -/
theorem pieces_rest_suffix {elide : Bool} {name : String} {rest : Text}
    (h : (word elide name rest).2.2 = none) :
    pieces (word elide name rest).2.1 <:+ pieces rest := by
  unfold word at h ⊢
  split
  · exact pieces_skipGroup_suffix rest
  · next harg =>
    rw [if_neg harg] at h
    split
    · exact List.suffix_rfl
    · next hbare =>
      rw [if_neg hbare] at h
      split
      · next hforbidden =>
        rw [if_pos hforbidden] at h
        cases h
      · exact List.suffix_rfl

end Cleaning

end SpokenMath
