import SpokenMath.Proofs.Screening.Accepted
import SpokenMath.Proofs.Screening.Counting
import SpokenMath.Proofs.Screening.Thinning

/-!
# Which limits a cleaned text keeps

The screening counts in the raw text, and what it counted need not be there after cleaning: a
comment may hold the braces that close others, and a space between two commands may be all that
keeps them from running on.

**Theorem (`within_iff_of_check`).** The cleaned text of an accepted input is never too long, and
unless a forbidden command was left out, it has not too many scripts. It keeps within the other
limits exactly if the remnants of the raw text do.

The walk that takes the profile is an observer, apart from the number of characters that it counts.
-/

namespace SpokenMath

namespace Profile

/-- The profile of some pieces. -/
def ofPieces (ps : List Piece) : Profile := (ps.foldl Survey.step {}).profile

theorem scan_eq_ofPieces (t : Text) : scan t = ofPieces (pieces t) := rfl

/-- The number of characters that are not blank has no limit. -/
theorem within_nonSpaceChars_iff {p : Profile} {limits : Limits} (n : Nat) :
    ({ p with nonSpaceChars := n } : Profile).Within limits ↔ p.Within limits :=
  ⟨fun ⟨h₁, h₂, h₃, h₄, h₅, h₆, h₇⟩ => ⟨h₁, h₂, h₃, h₄, h₅, h₆, h₇⟩,
    fun ⟨h₁, h₂, h₃, h₄, h₅, h₆, h₇⟩ => ⟨h₁, h₂, h₃, h₄, h₅, h₆, h₇⟩⟩

end Profile

/-! ## The walk observes -/

/-- The profile, except for the number of characters. -/
def Survey.observer : Observer Survey Profile where
  start := {}
  step := Survey.step
  report s := { s.profile with nonSpaceChars := 0 }
  start_blank := rfl
  blank_blank _ := rfl
  report_blank _ := rfl
  escape_blank _ _ _ := rfl
  report_escape _ _ := rfl

theorem Profile.within_clean_iff {limits : Limits} (elide : Bool) (t : Text) :
    (scan (clean elide t).1).Within limits ↔ (ofPieces (remnants elide t)).Within limits := by
  have hobserve := Survey.observer.observe_clean elide t
  rw [← within_nonSpaceChars_iff (p := scan _) 0, ← within_nonSpaceChars_iff (p := ofPieces _) 0]
  exact iff_of_eq (congrArg (Profile.Within · limits) hobserve)

/-! ## Scripts -/

theorem Profile.scripts_ofPieces (ps : List Piece) :
    (ofPieces ps).scripts = ps.countP Piece.isScript := by
  have h := Survey.foldl_count Survey.scripts_step ps {}
  rwa [Nat.zero_add] at h

namespace Piece

theorem countP_afterLetters (ps : List Piece) :
    (afterLetters ps).countP isScript = ps.countP isScript := by
  induction ps with
  | nil => rfl
  | cons p ps ih =>
    cases p with
    | sign c =>
      cases halpha : c.isAlpha with
      | true =>
        have hletter : isScript (.sign c) = false := by
          simp only [isScript, decide_eq_false_iff_not, not_or]
          constructor <;> rintro rfl <;> cases halpha
        rw [List.countP_cons_of_neg (by simp [hletter]), ← ih]
        simp [afterLetters, halpha]
      | false => simp [afterLetters, halpha]
    | _ => rfl

/-- Fusing words takes no script mark. -/
theorem countP_fuse (ps : List Piece) : (fuse ps).countP isScript = ps.countP isScript := by
  induction ps with
  | nil => rfl
  | cons p ps ih =>
    rw [fuse_cons, List.countP_cons, ← ih]
    cases p with
    | word name => exact countP_afterLetters (fuse ps)
    | _ => exact List.countP_cons

end Piece

theorem Profile.scripts_clean (elide : Bool) (t : Text) :
    (scan (clean elide t).1).scripts = (Cleaning.kept elide t).countP Piece.isScript := by
  have hobserve := congrArg Profile.scripts (Survey.observer.observe_clean elide t)
  calc (scan (clean elide t).1).scripts = (ofPieces (remnants elide t)).scripts := hobserve
    _ = (remnants elide t).countP Piece.isScript := scripts_ofPieces _
    _ = (Cleaning.kept elide t).countP Piece.isScript := Piece.countP_fuse _

/-- A text from which no forbidden command is left out does not get more scripts. -/
theorem Profile.scripts_clean_le {elide : Bool} {t : Text} (h : (clean elide t).2 = []) :
    (scan (clean elide t).1).scripts ≤ (scan t).scripts := by
  have hvisible : ∀ ps : List Piece,
      (ps.filter (· ≠ .blank)).countP Piece.isScript = ps.countP Piece.isScript := by
    intro ps
    rw [List.countP_filter]
    congr
    funext p
    cases p <;> simp [Piece.isScript]
  have hthinned : Thinned True (pieces t) (Cleaning.kept elide t) := kept_thinned h fun _ => trivial
  rw [scripts_clean, scan_eq_ofPieces, scripts_ofPieces, ← hvisible]
  exact hthinned.sublist.countP_le

/-! ## Length -/

namespace Cleaning

/-- What is written for a control word, with what is left behind it, is not longer than the control
word and what follows. -/
theorem size_squeeze_written {elide : Bool} {name rest out : Text}
    (hname : ∀ c ∈ name, c.isAlpha = true)
    (hout : (Text.squeeze out).size ≤ Text.size (word elide (String.ofList name) rest).2.1)
    (hgap : (word elide (String.ofList name) rest).2.1.head?.any isBlank = true →
      (Text.squeeze (' ' :: out)).size ≤ Text.size (word elide (String.ofList name) rest).2.1) :
    (Text.squeeze ((word elide (String.ofList name) rest).1 ++ out)).size ≤
      1 + Text.size name + Text.size rest := by
  have hrest := Text.size_le_of_suffix (rest_suffix elide (String.ofList name) rest)
  rw [word_fst]
  cases hleft : isLeftOut elide (String.ofList name) with
  | true =>
    have hcons := Text.size_squeeze_cons_le ' ' out
    have hsize : (' ' : Char).utf8Size = 1 := rfl
    rw [if_pos rfl, List.singleton_append]
    omega
  | false =>
    have hletters : ∀ c ∈ '\\' :: name, isBlank c = false :=
      List.forall_mem_cons.mpr ⟨by decide, fun c hc => isBlank_of_isAlpha (hname c hc)⟩
    have hsize : ('\\' : Char).utf8Size = 1 := rfl
    rw [word_rest hleft] at hout hgap
    rw [if_neg (by decide), String.toList_ofList, ← List.cons_append, List.append_assoc,
      Text.squeeze_append_of_not_blank hletters, Text.size_append, Text.size_cons, hsize]
    refine Nat.add_le_add_left ?_ _
    split
    · next hblank => exact hgap hblank
    · exact hout

/-- What is left is not longer once it is squeezed, and in place of a blank in front there is room
for one more. -/
theorem size_squeeze_strip (elide : Bool) (t : Text) :
    (Text.squeeze (strip elide t).1).size ≤ t.size ∧
      (t.head?.any isBlank = true →
        (Text.squeeze (' ' :: (strip elide t).1)).size ≤ t.size) := by
  -- A gap behind a word takes the place of the blank that follows the word, whatever becomes of it.
  -- So the second part is what the first part needs of the text behind a word.
  have hspace : isBlank ' ' = true := by decide
  have hbackslash : isBlank '\\' = false := by decide
  have hpercent : isBlank '%' = false := by decide
  have hsize : (' ' : Char).utf8Size = 1 := rfl
  fun_induction strip elide t with
  | case1 => simp
  | case2 => simp [hbackslash]
  | case3 c t hc r out elided hstrip ih =>
    have hname : ∀ x ∈ c :: t.takeWhile Char.isAlpha, x.isAlpha = true :=
      List.forall_mem_cons.mpr ⟨hc, List.all_eq_true.mp List.all_takeWhile⟩
    have hsplit : Text.size t = Text.size (t.takeWhile Char.isAlpha) +
        Text.size (t.dropWhile Char.isAlpha) := by
      rw [← Text.size_append, List.takeWhile_append_dropWhile]
    have hwritten : ('\\' : Char).utf8Size = 1 := rfl
    rw [hstrip] at ih
    have hle := size_squeeze_written hname ih.1 ih.2
    refine ⟨?_, fun h => by simp [hbackslash] at h⟩
    refine Nat.le_trans hle ?_
    rw [Text.size_cons, Text.size_cons, Text.size_cons]
    omega
  | case4 c t hc out elided hstrip hspacing ih =>
    have hcons := Text.size_squeeze_cons_le ' ' out
    have hpos := Char.utf8Size_pos '\\'
    rw [hstrip] at ih
    refine ⟨?_, fun h => by simp [hbackslash] at h⟩
    dsimp only [Text.size_cons] at ih ⊢
    omega
  | case5 c t hc out elided hstrip hspacing hhidden ih =>
    rw [hstrip] at ih
    refine ⟨?_, fun h => by simp [hbackslash] at h⟩
    dsimp only [Text.size_cons] at ih ⊢
    omega
  | case6 c t hc out elided hstrip hspacing hhidden ih =>
    have hcons := Text.size_squeeze_cons_le c out
    have hcons' := Text.size_squeeze_cons_le '\\' (c :: out)
    rw [hstrip] at ih
    refine ⟨?_, fun h => by simp [hbackslash] at h⟩
    dsimp only [Text.size_cons] at ih ⊢
    omega
  | case7 t out elided hstrip hend hpair ih =>
    have hcons := Text.size_squeeze_cons_le ' ' out
    have hskip := Text.size_le_of_suffix (skipLine_suffix t)
    have hpos := Char.utf8Size_pos '%'
    rw [hstrip] at ih
    refine ⟨?_, fun h => by simp [hpercent] at h⟩
    dsimp only [Text.size_cons] at ih ⊢
    omega
  | case8 c t hend hpair hne out elided hstrip hgap ih =>
    have hcons := Text.size_squeeze_cons_le ' ' out
    have hpos := Char.utf8Size_pos c
    rw [hstrip] at ih
    dsimp only [Text.size_cons] at ih ⊢
    rw [Text.squeeze_blank_twice hspace hspace]
    omega
  | case9 c t hend hpair hne out elided hstrip hgap hhidden ih =>
    have hcons := Text.size_squeeze_cons_le ' ' out
    have hpos := Char.utf8Size_pos c
    rw [hstrip] at ih
    dsimp only [Text.size_cons] at ih ⊢
    omega
  | case10 c t hend hpair hne out elided hstrip hgap hhidden ih =>
    have hcons := Text.size_squeeze_cons_le c out
    rw [hstrip] at ih
    dsimp only [Text.size_cons] at ih ⊢
    refine ⟨by omega, fun hblank => ?_⟩
    rw [Text.squeeze_blank_twice hspace (by simpa using hblank)]
    omega

end Cleaning

/-- A cleaned text is not longer than the raw text. -/
theorem size_clean_le (elide : Bool) (t : Text) : (clean elide t).1.size ≤ t.size :=
  Nat.le_trans (Text.size_collapse_le_squeeze _) (Cleaning.size_squeeze_strip elide t).1

namespace Screening

/-- **Which limits the cleaned text of an accepted input keeps.** -/
theorem within_iff_of_check {raw : Text} {limits : Limits} {safe : SafeInput}
    (h : check raw limits = .ok safe) :
    safe.text.size ≤ limits.maxLength ∧
      (safe.elided = [] → (Profile.scan safe.text).scripts ≤ limits.maxScripts) ∧
      ((Profile.scan safe.text).Within limits ↔
        (Profile.ofPieces (remnants (!limits.rejectDangerous) raw)).Within limits) := by
  have hraw := within_of_check h
  obtain ⟨-, hsize, -, -, rfl⟩ := check_eq_ok_iff.mp h
  exact ⟨Nat.le_trans (size_clean_le _ raw) hsize,
    fun helided => Nat.le_trans (Profile.scripts_clean_le helided) hraw.scripts,
    Profile.within_clean_iff _ raw⟩

theorem within_iff_of_check_comment :
    check "\x7b\x7b\x7b%\x7d\x7d\x7d\nx".toList {} = .ok ⟨"\x7b\x7b\x7b x".toList, [], 9, 48⟩ ∧
      Text.size "\x7b\x7b\x7b x".toList ≤ ({} : Limits).maxLength ∧
      (Profile.scan "\x7b\x7b\x7b x".toList).scripts ≤ ({} : Limits).maxScripts ∧
      ((Profile.scan "\x7b\x7b\x7b x".toList).Within {} ↔
        (Profile.ofPieces (remnants false "\x7b\x7b\x7b%\x7d\x7d\x7d\nx".toList)).Within {}) :=
  have hcheck := check_eq_ok_iff.mpr (by decide +kernel)
  have h := within_iff_of_check hcheck
  ⟨hcheck, h.1, h.2.1 rfl, h.2.2⟩

/-- The comment holds the braces that close the others. -/
theorem not_within_of_check_comment :
    check "\x7b\x7b\x7b%\x7d\x7d\x7d\nx".toList {} = .ok ⟨"\x7b\x7b\x7b x".toList, [], 9, 48⟩ ∧
      ¬ (Profile.scan "\x7b\x7b\x7b x".toList).Within {} :=
  ⟨check_eq_ok_iff.mpr (by decide +kernel), fun h => absurd h.braces (by decide +kernel)⟩

end Screening

end SpokenMath
