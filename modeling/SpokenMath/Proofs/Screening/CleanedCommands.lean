import SpokenMath.Proofs.Screening.Accepted
import SpokenMath.Proofs.Screening.Counting
import SpokenMath.Proofs.Screening.Thinning
import SpokenMath.Proofs.Screening.Tokens

/-!
# Which commands a cleaned text holds

The screening looks for forbidden commands and caret escapes in the raw text. A hidden character
within a command, or between two carets, keeps it from finding them, and cleaning takes it out.

**Theorem (`harmless_of_check`).** The cleaned text of an accepted input has no new command, no
forbidden command, and no caret escape, exactly if its remnants have none. So it is where the raw
text is visible and nothing dangerous was found in it; it may be otherwise where a command was left
out, because what follows its arguments need not begin with a piece of the raw text.

Control words and carets are found by observers, and so they are the same in the cleaned text and in
the remnants.
-/

namespace SpokenMath

/-! ## Two observers -/

/-- Collects the names of control words. -/
def Observer.names : Observer (List String) (List String) where
  start := []
  step names p := names ++ p.name?.toList
  report names := names
  start_blank := rfl
  blank_blank names := by simp [Piece.name?]
  report_blank names := by simp [Piece.name?]
  escape_blank names c d := by simp [Piece.name?]
  report_escape names c := by simp [Piece.name?]

theorem Observer.readFrom_names (names : List String) (ps : List Piece) :
    Observer.names.readFrom names ps = names ++ ps.filterMap Piece.name? := by
  induction ps generalizing names with
  | nil => exact (List.append_nil names).symm
  | cons p ps ih =>
    rw [readFrom_cons, ih]
    cases hname : p.name? <;> simp [Observer.names, hname]

/-- The control words of a cleaned text are those of the remnants. -/
theorem controlWords_clean (elide : Bool) (t : Text) :
    controlWords (clean elide t).1 = (remnants elide t).filterMap Piece.name? := by
  have hobserve := Observer.names.observe_clean elide t
  rw [Observer.observe, Observer.readFrom_names, Observer.readFrom_names] at hobserve
  rw [← names_pieces]
  exact hobserve

/-- Looks for two carets next to each other, and remembers whether the last piece was a caret. -/
def Observer.carets : Observer (Bool × Bool) Bool where
  start := (false, false)
  step s p := if p = .sign '^' then (s.1 || s.2, true) else (s.1, false)
  report s := s.1
  start_blank := rfl
  blank_blank _ := rfl
  report_blank _ := rfl
  escape_blank _ _ _ := rfl
  report_escape _ _ := rfl

theorem Observer.readFrom_carets (found after : Bool) (ps : List Piece) :
    Observer.carets.readFrom (found, after) ps = true ↔
      found = true ∨ (after = true ∧ ps.head? = some (.sign '^')) ∨ Doubled (.sign '^') ps := by
  induction ps generalizing found after with
  | nil => simp [Observer.carets]
  | cons p ps ih =>
    by_cases hp : p = .sign '^'
    · have hstep : Observer.carets.step (found, after) p = (found || after, true) := if_pos hp
      rw [readFrom_cons, hstep, ih, doubled_cons_iff]
      simp [hp, or_assoc]
    · have hstep : Observer.carets.step (found, after) p = (found, false) := if_neg hp
      rw [readFrom_cons, hstep, ih, doubled_cons_of_ne hp]
      simp [hp]

/-- A cleaned text has a caret escape exactly where the remnants have one. -/
theorem doubled_clean_iff (elide : Bool) (t : Text) :
    Doubled .sup (tokenize (clean elide t).1) ↔ Doubled (.sign '^') (remnants elide t) := by
  have hread : ∀ ps,
      Doubled (.sign '^') ps ↔ Observer.carets.readFrom (false, false) ps = true := by
    intro ps
    rw [Observer.readFrom_carets]
    simp
  rw [doubled_caret_iff, hread, hread]
  exact iff_of_eq (congrArg (· = true) (Observer.carets.observe_clean elide t))

/-! ## What the screening found -/

/-- A text in which nothing dangerous was found has no forbidden command and no caret escape. -/
theorem Profile.harmless_of_dangerous {t : Text} (h : (scan t).dangerous = none) :
    (∀ name, .word name ∈ pieces t → name ∉ forbiddenCommands) ∧
      ¬ Doubled (.sign '^') (pieces t) := by
  rw [scan, Survey.dangerous_foldl, Option.or_eq_none_iff] at h
  obtain ⟨hnames, hcarets⟩ := firstDanger?_eq_none_iff.mp h.2
  exact ⟨fun name hname => hnames name (List.mem_filterMap.mpr ⟨_, hname, rfl⟩), hcarets⟩

/-! ## Words stay apart -/

namespace Piece

/-- The second piece is no letter that would continue a word. -/
def Apart (p q : Piece) : Prop := ∀ name c, p = .word name → q = .sign c → c.isAlpha = false

theorem fuse_of_isChain {ps : List Piece} (h : ps.IsChain Apart) : fuse ps = ps := by
  induction ps with
  | nil => rfl
  | cons p ps ih =>
    obtain ⟨hp, hps⟩ := List.isChain_cons.mp h
    rw [fuse_cons, ih hps]
    cases p with
    | word name =>
      have hletters : leadingLetters ps = [] := by
        cases ps with
        | nil => rfl
        | cons q ps =>
          cases q with
          | sign c => simp [leadingLetters, hp (.sign c) rfl name c rfl rfl]
          | _ => rfl
      rw [fuseCons, hletters, afterLetters_of_leadingLetters hletters]
      simp
    | _ => rfl

end Piece

theorem isChain_pieces (t : Text) : (pieces t).IsChain Piece.Apart := by
  fun_induction pieces t with
  | case1 => exact .nil
  | case2 => exact .singleton _
  | case3 c t hc ih =>
    refine List.isChain_cons.mpr ⟨fun q hq name d _ hd => ?_, ih⟩
    have hhead := head?_of_pieces (hd ▸ hq)
    have hdrop := List.head?_dropWhile_not Char.isAlpha t
    rwa [hhead] at hdrop
  | case4 c t hc ih => exact List.isChain_cons.mpr ⟨fun _ _ _ _ hp => (by cases hp), ih⟩
  | case5 c t hend hpair ih =>
    refine List.isChain_cons.mpr ⟨fun _ _ _ _ hp => ?_, ih⟩
    split at hp <;> cases hp

/-! ## What cleaning makes -/

/-- No control word is new or forbidden, and there is no caret escape. -/
structure Piece.Harmless (raw left : List Piece) : Prop where
  known : ∀ name, .word name ∈ left → .word name ∈ raw
  allowed : ∀ name, .word name ∈ left → name ∉ forbiddenCommands
  carets : ¬ Doubled (.sign '^') left

/-- No control word of the text is new or forbidden, and there is no caret escape in it. -/
structure Harmless (raw text : Text) : Prop where
  known : ∀ name ∈ controlWords text, name ∈ controlWords raw
  allowed : ∀ name ∈ controlWords text, name ∉ forbiddenCommands
  carets : ¬ Doubled .sup (tokenize text)

theorem mem_names_iff {name : String} {ps : List Piece} :
    name ∈ ps.filterMap Piece.name? ↔ .word name ∈ ps := by
  rw [List.mem_filterMap]
  constructor
  · rintro ⟨p, hp, hname⟩
    cases p with
    | word n => exact Option.some.inj hname ▸ hp
    | _ => cases hname
  · exact fun h => ⟨_, h, rfl⟩

/-- What cleaning makes is seen in the remnants. -/
theorem harmless_clean_iff (elide : Bool) (t : Text) :
    Harmless t (clean elide t).1 ↔ Piece.Harmless (pieces t) (remnants elide t) := by
  have hleft : ∀ name, name ∈ controlWords (clean elide t).1 ↔ .word name ∈ remnants elide t := by
    intro name
    rw [controlWords_clean, mem_names_iff]
  have hraw : ∀ name, name ∈ controlWords t ↔ .word name ∈ pieces t := by
    intro name
    rw [← names_pieces, mem_names_iff]
  have hcarets := doubled_clean_iff elide t
  constructor
  · rintro ⟨hknown, hallowed, hnone⟩
    exact ⟨fun name h => (hraw name).mp (hknown name ((hleft name).mpr h)),
      fun name h => hallowed name ((hleft name).mpr h), fun h => hnone (hcarets.mpr h)⟩
  · rintro ⟨hknown, hallowed, hnone⟩
    exact ⟨fun name h => (hraw name).mpr (hknown name ((hleft name).mp h)),
      fun name h => hallowed name ((hleft name).mp h), fun h => hnone (hcarets.mp h)⟩

/-- In a visible text, no word is fused. -/
theorem Visible.remnants_eq {elide : Bool} {t : Text} (h : Visible t)
    (helided : (Cleaning.strip elide t).2 = []) : remnants elide t = Cleaning.kept elide t := by
  have hthinned : Thinned False (pieces t) (Cleaning.kept elide t) :=
    kept_thinned helided fun hv => hv h
  refine Piece.fuse_of_isChain (hthinned.isChain ?_ ?_ (isChain_pieces t))
  · exact fun _ _ _ hp => (nomatch hp)
  · exact fun _ _ _ _ hq => (nomatch hq)

/-- Cleaning makes nothing of a visible text in which nothing dangerous was found. -/
theorem Visible.harmless {t : Text} (h : Visible t) (hdangerous : (Profile.scan t).dangerous = none)
    (elide : Bool) : Piece.Harmless (pieces t) (remnants elide t) := by
  obtain ⟨hwords, hcarets⟩ := Profile.harmless_of_dangerous hdangerous
  have helided : (Cleaning.strip elide t).2 = [] := Cleaning.strip_elided fun name hname => by
    simp [hwords name hname]
  have hthinned : Thinned False (pieces t) (Cleaning.kept elide t) :=
    kept_thinned helided fun hv => hv h
  have hknown : ∀ name, .word name ∈ Cleaning.kept elide t → .word name ∈ pieces t := fun name hn =>
    hthinned.sublist.subset (List.mem_filter.mpr ⟨hn, rfl⟩)
  rw [h.remnants_eq helided]
  refine ⟨hknown, fun name hn => hwords name (hknown name hn), ?_⟩
  rw [not_doubled_iff_isChain] at hcarets ⊢
  refine hthinned.isChain ?_ ?_ hcarets
  · exact fun _ hp => (nomatch hp)
  · exact fun _ _ hq => (nomatch hq)

namespace Screening

/-- **When the cleaned text of an accepted input is harmless.** -/
theorem harmless_of_check {raw : Text} {limits : Limits} {safe : SafeInput}
    (h : check raw limits = .ok safe) :
    (limits.rejectDangerous = true ∨ (Profile.scan raw).dangerous = none → Visible raw →
      Harmless raw safe.text) ∧
      (Harmless raw safe.text ↔
        Piece.Harmless (pieces raw) (remnants (!limits.rejectDangerous) raw)) := by
  have hiff := harmless_clean_iff (!limits.rejectDangerous) raw
  rw [(text_of_check h).1]
  refine ⟨fun hfound hvisible => hiff.mpr (hvisible.harmless ?_ _), hiff⟩
  rcases hfound with hreject | hnone
  · exact dangerous_of_check h hreject
  · exact hnone

theorem harmless_of_check_alpha :
    check "\\alpha x".toList {} = .ok ⟨"\\alpha x".toList, [], 8, 48⟩ ∧
      Harmless "\\alpha x".toList "\\alpha x".toList :=
  have hcheck := check_eq_ok_iff.mpr (by decide +kernel)
  have hpieces : pieces "\\alpha x".toList = [.word "alpha", .blank, .sign 'x'] := by decide +kernel
  have hshown : "\\alpha x".toList.all (fun c => !Cleaning.isHidden c) = true := by decide +kernel
  have hvisible : Visible "\\alpha x".toList := {
    chars := fun c hc hhidden => absurd (List.all_eq_true.mp hshown c hc) (by simp [hhidden])
    escapes := fun c hc => by
      rw [hpieces] at hc
      simp at hc }
  ⟨hcheck, (harmless_of_check hcheck).1 (.inl rfl) hvisible⟩

/-- A character that cannot be seen stands within a command, or between two carets; or the backslash
of a row separator is taken for that of the name behind a command that is left out. -/
theorem not_harmless_of_check_hidden :
    check "\\in\u200bput x".toList {} = .ok ⟨"\\input x".toList, [], 11, 48⟩ ∧
      ¬ Harmless "\\in\u200bput x".toList "\\input x".toList ∧
      check "x^\u200b^41".toList {} = .ok ⟨"x^^41".toList, [], 8, 48⟩ ∧
      ¬ Harmless "x^\u200b^41".toList "x^^41".toList ∧
      check "\\def\\\\foo".toList { rejectDangerous := false } =
        .ok ⟨"\\foo".toList, ["def"], 9, 48⟩ ∧
      ¬ Harmless "\\def\\\\foo".toList "\\foo".toList :=
  ⟨check_eq_ok_iff.mpr (by decide +kernel),
    fun h => h.allowed "input" (by decide +kernel) (by decide),
    check_eq_ok_iff.mpr (by decide +kernel),
    fun h => h.carets ⟨[.text ['x']], [.text ['4', '1']], by decide +kernel⟩,
    check_eq_ok_iff.mpr (by decide +kernel),
    fun h => absurd (h.known "foo" (by decide +kernel)) (by decide +kernel)⟩

end Screening

end SpokenMath
