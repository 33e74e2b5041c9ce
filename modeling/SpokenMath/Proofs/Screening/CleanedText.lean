import SpokenMath.Proofs.Markup.Place
import SpokenMath.Proofs.Polish.Spacing
import SpokenMath.Proofs.Screening.CleanedLimits

/-!
# What a cleaned text is

**Theorem (`cleaned_clean`).** A cleaned text has nothing in it that cannot be seen and no sign of a
comment, its blanks are single spaces between words, it is not longer than the raw text, and without
its spaces it can be read off the raw text from left to right.

Characters that are left out or made into spaces could bring a backslash to another character than
its own. Whether a percent sign has a backslash of its own is therefore not seen character by
character; an observer sees it, and so it is a matter of the remnants.
-/

namespace SpokenMath

variable {c : Char} {t : Text}

/-! ## Signs of comments -/

/-- Looks for percent signs. -/
def Observer.percents : Observer Bool Bool where
  start := false
  step found p := found || p == .sign '%'
  report found := found
  start_blank := rfl
  blank_blank found := by cases found <;> rfl
  report_blank found := by cases found <;> rfl
  escape_blank found _ _ := by cases found <;> rfl
  report_escape found _ := by cases found <;> rfl

theorem Observer.readFrom_percents (found : Bool) (ps : List Piece) :
    Observer.percents.readFrom found ps = (found || ps.contains (.sign '%')) := by
  induction ps generalizing found with
  | nil => exact (Bool.or_false found).symm
  | cons p ps ih =>
    rw [readFrom_cons, ih, List.contains_cons, ← Bool.or_assoc, Bool.beq_comm]
    rfl

/-- A percent sign is a piece of its own where no backslash belongs to it. -/
theorem percent_mem_pieces_iff :
    .sign '%' ∈ pieces t ↔ ∃ rest, Text.Place t ('%' :: rest) := by
  fun_induction pieces t with
  | case1 => simp [Text.place_nil]
  | case2 => simp [Text.place_backslash]
  | case3 c t hc ih =>
    -- What is a letter of the word is neither a backslash nor a percent sign.
    have hletters : ∀ x ∈ t.takeWhile Char.isAlpha, x.isAlpha = true :=
      List.all_eq_true.mp List.all_takeWhile
    have hslash : ∀ x ∈ t.takeWhile Char.isAlpha, x ≠ '\\' := by
      rintro x hx rfl
      cases hletters _ hx
    have hpercent : '%' ∉ t.takeWhile Char.isAlpha := fun hx => by cases hletters _ hx
    have hrest : ∀ rest, Text.Place t ('%' :: rest) ↔
        Text.Place (t.dropWhile Char.isAlpha) ('%' :: rest) := by
      intro rest
      rw [← Text.place_append_of_forall (t := t.dropWhile Char.isAlpha) hslash hpercent,
        List.takeWhile_append_dropWhile]
    simpa [Text.place_pair, hrest] using ih
  | case4 c t hc ih => simpa [Text.place_pair] using ih
  | case5 c t hend hpair ih =>
    have hsign : .sign '%' = (if isBlank c then Piece.blank else .sign c) ↔ c = '%' := by
      cases hblank : isBlank c with
      | true =>
        constructor
        · intro h
          cases h
        · rintro rfl
          cases hblank
      | false => exact ⟨fun h => (Piece.sign.inj h).symm, fun h => by rw [h]; rfl⟩
    rw [List.mem_cons, ih, hsign]
    simp only [Text.place_cons (ne_backslash hend hpair), exists_or, List.cons.injEq]
    simp [eq_comm]

namespace Piece

theorem afterLetters_suffix (ps : List Piece) : afterLetters ps <:+ ps := by
  fun_induction afterLetters ps with
  | case1 c ps hc ih => exact ih.trans (List.suffix_cons _ _)
  | case2 => exact List.suffix_rfl
  | case3 => exact List.suffix_rfl

/-- Fusing words makes no signs. -/
theorem mem_of_sign_mem_fuse {ps : List Piece} (h : .sign c ∈ fuse ps) : .sign c ∈ ps := by
  induction ps with
  | nil => cases h
  | cons p ps ih =>
    have hcases : .sign c = p ∨ .sign c ∈ fuse ps := by
      cases p with
      | word name =>
        have hbehind := (List.mem_cons.mp h).resolve_left nofun
        exact .inr ((afterLetters_suffix _).subset hbehind)
      | _ => exact List.mem_cons.mp h
    exact List.mem_cons.mpr (hcases.imp_right ih)

end Piece

theorem Cleaning.percent_not_mem_kept (elide : Bool) (t : Text) : .sign '%' ∉ kept elide t := by
  fun_induction kept elide t with
  | case3 c t hc name rest ih =>
    have hword : .sign '%' ∉ keptWord elide name rest := by
      unfold keptWord
      split
      · simp
      · split <;> simp
    exact fun h => (List.mem_append.mp h).elim hword ih
  | case11 c t hend hpair hpercent hgap hhidden hblank ih =>
    exact List.not_mem_cons_of_ne_of_not_mem (fun h => hpercent (Piece.sign.inj h).symm) ih
  | _ => simp_all

/-- **Every percent sign of a cleaned text belongs to a backslash.** -/
theorem not_place_percent_clean (elide : Bool) (t rest : Text) :
    ¬ Text.Place (clean elide t).1 ('%' :: rest) := by
  intro hplace
  have hobserve := Observer.percents.observe_clean elide t
  rw [Observer.observe, Observer.readFrom_percents, Observer.readFrom_percents] at hobserve
  have hclean : (pieces (clean elide t).1).contains (.sign '%') = true :=
    List.contains_iff_mem.mpr (percent_mem_pieces_iff.mpr ⟨rest, hplace⟩)
  have hremnants : (remnants elide t).contains (.sign '%') = true := hobserve.symm.trans hclean
  exact Cleaning.percent_not_mem_kept elide t
    (Piece.mem_of_sign_mem_fuse (List.contains_iff_mem.mp hremnants))

/-! ## Characters -/

theorem isHidden_of_isAlpha (h : c.isAlpha = true) : Cleaning.isHidden c = false := by
  have hbounds := isAlpha_iff.mp h
  simp only [Cleaning.isHidden, isControl, Bool.or_eq_false_iff, Bool.and_eq_false_iff,
    decide_eq_false_iff_not, beq_eq_false_iff_ne]
  omega

theorem mem_collapse (h : c ∈ t.collapse) : c ∈ t ∨ c = ' ' := by
  rw [← Text.collapseFrom_start] at h
  exact Text.mem_collapseFrom h

/-- Collapsing changes blanks only. -/
theorem filter_collapse (t : Text) :
    t.collapse.filter (!isBlank ·) = t.filter (!isBlank ·) := by
  have hfrom : ∀ g : Gap, (Text.collapseFrom g t).filter (!isBlank ·) = t.filter (!isBlank ·) := by
    induction t with
    | nil => exact fun _ => rfl
    | cons c t ih =>
      intro g
      cases hc : isBlank c with
      | true =>
        rw [Text.collapseFrom_cons_of_blank hc, ih, List.filter_cons_of_neg (by simp [hc])]
      | false =>
        have hspace : g.space.filter (!isBlank ·) = [] := by cases g <;> rfl
        rw [Text.collapseFrom_cons_of_not_blank hc, List.filter_append, hspace, List.nil_append,
          List.filter_cons_of_pos (by simp [hc]), List.filter_cons_of_pos (by simp [hc]), ih]
  rw [← Text.collapseFrom_start]
  exact hfrom .start

namespace Cleaning

/-- What is written for a control word is a blank, or it stands in the text but for the blank behind
it. -/
theorem filter_word_sublist (elide : Bool) (name rest : Text) :
    ((word elide (String.ofList name) rest).1.filter (!isBlank ·)).Sublist ('\\' :: name) := by
  rw [word_fst]
  split
  · exact List.nil_sublist _
  · have hgap : (if rest.head?.any isBlank then [' '] else []).filter (!isBlank ·) = [] := by
      split <;> rfl
    rw [String.toList_ofList, ← List.cons_append, List.filter_append, hgap, List.append_nil]
    exact List.filter_sublist

theorem not_hidden_word {name : Text} (hname : ∀ c ∈ name, c.isAlpha = true) (elide : Bool)
    (rest : Text) : ∀ c ∈ (word elide (String.ofList name) rest).1, isHidden c = false := by
  have hspace : isHidden ' ' = false := by decide
  rw [word_fst]
  intro c hc
  split at hc
  · rw [List.mem_singleton.mp hc, hspace]
  · rw [String.toList_ofList, List.mem_cons, List.mem_append] at hc
    rcases hc with rfl | hc | hc
    · decide
    · exact isHidden_of_isAlpha (hname c hc)
    · split at hc
      · rw [List.mem_singleton.mp hc, hspace]
      · cases hc

/-- What is left can be seen. -/
theorem not_hidden_strip (elide : Bool) (t : Text) :
    ∀ c ∈ (strip elide t).1, isHidden c = false := by
  have hspace : isHidden ' ' = false := by decide
  fun_induction strip elide t with
  | case1 => simp
  | case2 => simp
  | case3 c t hc r out elided hstrip ih =>
    rw [hstrip] at ih
    have hname : ∀ x ∈ c :: t.takeWhile Char.isAlpha, x.isAlpha = true :=
      List.forall_mem_cons.mpr ⟨hc, List.all_eq_true.mp List.all_takeWhile⟩
    exact fun x hx => (List.mem_append.mp hx).elim (not_hidden_word hname elide _ x) (ih x)
  | case4 c t hc out elided hstrip hspacing ih =>
    rw [hstrip] at ih
    exact List.forall_mem_cons.mpr ⟨hspace, ih⟩
  | case5 c t hc out elided hstrip hspacing hhidden ih =>
    rw [hstrip] at ih
    exact ih
  | case6 c t hc out elided hstrip hspacing hhidden ih =>
    rw [hstrip] at ih
    exact List.forall_mem_cons.mpr
      ⟨by decide, List.forall_mem_cons.mpr ⟨by simpa using hhidden, ih⟩⟩
  | case7 t out elided hstrip hend hpair ih =>
    rw [hstrip] at ih
    exact List.forall_mem_cons.mpr ⟨hspace, ih⟩
  | case8 c t hend hpair hpercent out elided hstrip hgap ih =>
    rw [hstrip] at ih
    exact List.forall_mem_cons.mpr ⟨hspace, ih⟩
  | case9 c t hend hpair hpercent out elided hstrip hgap hhidden ih =>
    rw [hstrip] at ih
    exact ih
  | case10 c t hend hpair hpercent out elided hstrip hgap hhidden ih =>
    rw [hstrip] at ih
    exact List.forall_mem_cons.mpr ⟨by simpa using hhidden, ih⟩

/-- What is left without the blanks stands in the raw text in the same order. -/
theorem filter_strip_sublist (elide : Bool) (t : Text) :
    ((strip elide t).1.filter (!isBlank ·)).Sublist t := by
  fun_induction strip elide t with
  | case1 => exact .slnil
  | case2 => exact List.nil_sublist _
  | case3 c t hc r out elided hstrip ih =>
    rw [hstrip] at ih
    have hsplit : '\\' :: c :: t = ('\\' :: c :: t.takeWhile Char.isAlpha) ++
        t.dropWhile Char.isAlpha := by
      rw [List.cons_append, List.cons_append, List.takeWhile_append_dropWhile]
    rw [List.filter_append, hsplit]
    exact (filter_word_sublist elide _ _).append (ih.trans (rest_suffix elide _ _).sublist)
  | case4 c t hc out elided hstrip hspacing ih =>
    rw [hstrip] at ih
    exact (ih.cons c).cons '\\'
  | case5 c t hc out elided hstrip hspacing hhidden ih =>
    rw [hstrip] at ih
    exact (ih.cons c).cons '\\'
  | case6 c t hc out elided hstrip hspacing hhidden ih =>
    rw [hstrip] at ih
    exact (List.filter_append ['\\', c] out) ▸ (List.filter_sublist (l := ['\\', c])).append ih
  | case7 t out elided hstrip hend hpair ih =>
    rw [hstrip] at ih
    exact (ih.trans (skipLine_suffix t).sublist).cons '%'
  | case8 c t hend hpair hpercent out elided hstrip hgap ih =>
    rw [hstrip] at ih
    exact ih.cons c
  | case9 c t hend hpair hpercent out elided hstrip hgap hhidden ih =>
    rw [hstrip] at ih
    exact ih.cons c
  | case10 c t hend hpair hpercent out elided hstrip hgap hhidden ih =>
    rw [hstrip] at ih
    exact (List.filter_append [c] out) ▸ (List.filter_sublist (l := [c])).append ih

end Cleaning

/-! ## Cleaned texts -/

/-- A text as it may be left of a raw text. -/
structure Cleaned (raw t : Text) : Prop where
  visible : ∀ c ∈ t, Cleaning.isHidden c = false
  percent : ∀ rest, ¬ Text.Place t ('%' :: rest)
  spaces : ∀ c ∈ t, isBlank c = true → c = ' '
  head : ∀ c ∈ t.head?, isBlank c = false
  last : ∀ c ∈ t.getLast?, isBlank c = false
  apart : t.IsChain fun c d => isBlank c = true → isBlank d = false
  size : t.size ≤ raw.size
  sublist : (t.filter (· ≠ ' ')).Sublist raw

/-- **Cleaning leaves a cleaned text.** -/
theorem cleaned_clean (elide : Bool) (t : Text) : Cleaned t (clean elide t).1 := by
  obtain ⟨hsqueezed, hhead⟩ := Polish.squeezed_collapse (Cleaning.strip elide t).1
  exact {
    visible := by
      intro c hc
      rcases mem_collapse hc with hc | rfl
      · exact Cleaning.not_hidden_strip elide t c hc
      · decide
    percent := not_place_percent_clean elide t
    spaces := hsqueezed.spaces
    head := hhead
    last := hsqueezed.last
    apart := hsqueezed.apart
    size := size_clean_le elide t
    sublist := by
      -- In a collapsed text, only spaces are blank.
      have hfilter : (clean elide t).1.filter (· ≠ ' ') = (clean elide t).1.filter (!isBlank ·) := by
        refine List.filter_congr fun c hc => ?_
        cases hblank : isBlank c with
        | true => simp [hsqueezed.spaces c hc hblank]
        | false =>
          have hne : c ≠ ' ' := by
            rintro rfl
            cases hblank
          simp [hne]
      have hstrip : (clean elide t).1 = (Cleaning.strip elide t).1.collapse := rfl
      rw [hfilter, hstrip, filter_collapse]
      exact Cleaning.filter_strip_sublist elide t }

end SpokenMath
