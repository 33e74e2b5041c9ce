import SpokenMath.Proofs.Text.Collapse
import SpokenMath.Screening.Profile

/-!
# Reading pieces of a collapsed text

Collapsing a text changes its pieces: blanks go, a blank behind a backslash becomes a space, and at
the end the backslash is left alone. An **observer** reads the pieces one after the other and cannot
tell these apart.

**Theorem (`Observer.observe_collapse`).** An observer reports the same of a text and of the
collapsed text.
-/

namespace SpokenMath

/-! ## The pieces of a text, case by case -/

@[simp] theorem pieces_nil : pieces [] = [] := by
  unfold pieces
  rfl

theorem pieces_backslash : pieces ['\\'] = [.sign '\\'] := by
  unfold pieces
  rfl

/-- A backslash and the character behind it. -/
theorem pieces_pair (c : Char) (t : Text) :
    pieces ('\\' :: c :: t) =
      if c.isAlpha then
        .word (String.ofList (c :: t.takeWhile Char.isAlpha)) :: pieces (t.dropWhile Char.isAlpha)
      else .escape c :: pieces t := by
  rw [pieces]

/-- A character that does not belong to a backslash. -/
theorem pieces_other {c : Char} {t : Text} (hend : c = '\\' → t = [] → False)
    (hpair : ∀ x r, c = '\\' → t = x :: r → False) :
    pieces (c :: t) = (if isBlank c then .blank else .sign c) :: pieces t := by
  rw [pieces.eq_4 c t hend hpair]

theorem pieces_word {c : Char} (hc : c.isAlpha = true) (t : Text) :
    pieces ('\\' :: c :: t) =
      .word (String.ofList (c :: t.takeWhile Char.isAlpha)) ::
        pieces (t.dropWhile Char.isAlpha) := by
  rw [pieces_pair, if_pos hc]

theorem pieces_escape {c : Char} (hc : c.isAlpha = false) (t : Text) :
    pieces ('\\' :: c :: t) = .escape c :: pieces t := by
  rw [pieces_pair, if_neg (by simp [hc])]

theorem pieces_blank {c : Char} (hc : isBlank c = true) (t : Text) :
    pieces (c :: t) = .blank :: pieces t := by
  have hne : c ≠ '\\' := by
    rintro rfl
    exact absurd hc (by decide)
  rw [pieces_other (by simp [hne]) (by simp [hne]), if_pos hc]

theorem pieces_sign {c : Char} (hne : c ≠ '\\') (hc : isBlank c = false) (t : Text) :
    pieces (c :: t) = .sign c :: pieces t := by
  rw [pieces_other (by simp [hne]) (by simp [hne]), if_neg (by rw [hc]; decide)]

/-- What a walk over a text knows of a character that it takes as a sign. -/
theorem ne_backslash {c : Char} {t : Text} (hend : c = '\\' → t = [] → False)
    (hpair : ∀ x r, c = '\\' → t = x :: r → False) : c ≠ '\\' := by
  rintro rfl
  cases t with
  | nil => exact hend rfl rfl
  | cons x t => exact hpair x t rfl rfl

theorem pieces_suffix_cons {c : Char} {t : Text} (hend : c = '\\' → t = [] → False)
    (hpair : ∀ x r, c = '\\' → t = x :: r → False) : pieces t <:+ pieces (c :: t) := by
  rw [pieces_other hend hpair]
  exact List.suffix_cons _ _

/-- A sign in front of the pieces stands in front of the text. -/
theorem head?_of_pieces {t : Text} {c : Char} (h : (pieces t).head? = some (.sign c)) :
    t.head? = some c := by
  fun_cases pieces t with
  | case5 d t hend hpair =>
    rw [pieces_other hend hpair] at h
    have hpiece := Option.some.inj h
    split at hpiece
    · cases hpiece
    · exact congrArg some (Piece.sign.inj hpiece)
  | case3 d t hd => simp [pieces_word hd] at h
  | case4 d t hd => simp [pieces_escape (by simpa using hd)] at h
  | case1 => simp at h
  | case2 => simpa [pieces_backslash] using h

/-! ## Letters are not squeezed -/

theorem not_isAlpha_of_blank {c : Char} (h : isBlank c = true) : c.isAlpha = false := by
  cases halpha : c.isAlpha with
  | false => rfl
  | true =>
    rw [isBlank_of_isAlpha halpha] at h
    cases h

/-- A blank is squeezed to nothing or to a space. -/
theorem squeezeCons_blank {c : Char} (hc : isBlank c = true) (t : Text) :
    Text.squeezeCons c t = [] ∨ ∃ r, Text.squeezeCons c t = ' ' :: r := by
  cases t with
  | nil => exact .inl (Text.squeezeCons_blank_nil hc)
  | cons x t =>
    by_cases hx : x = ' '
    · exact .inr ⟨t, by rw [hx, Text.squeezeCons_blank_space hc]⟩
    · exact .inr ⟨x :: t, Text.squeezeCons_blank_cons hc hx t⟩

theorem takeWhile_squeeze (t : Text) :
    (Text.squeeze t).takeWhile Char.isAlpha = t.takeWhile Char.isAlpha := by
  induction t with
  | nil => rfl
  | cons c t ih =>
    rw [Text.squeeze_cons]
    cases hblank : isBlank c with
    | false =>
      rw [Text.squeezeCons_of_not_blank hblank, List.takeWhile_cons, List.takeWhile_cons, ih]
    | true =>
      rw [List.takeWhile_cons_of_neg (by simp [not_isAlpha_of_blank hblank])]
      rcases squeezeCons_blank hblank (Text.squeeze t) with h | ⟨r, h⟩ <;> rw [h] <;> rfl

theorem dropWhile_squeeze (t : Text) :
    (Text.squeeze t).dropWhile Char.isAlpha = Text.squeeze (t.dropWhile Char.isAlpha) := by
  induction t with
  | nil => rfl
  | cons c t ih =>
    cases halpha : c.isAlpha with
    | true =>
      rw [Text.squeeze_cons, Text.squeezeCons_of_not_blank (isBlank_of_isAlpha halpha),
        List.dropWhile_cons_of_pos halpha, List.dropWhile_cons_of_pos halpha, ih]
    | false =>
      rw [List.dropWhile_cons_of_neg (by simp [halpha]), Text.squeeze_cons]
      cases hblank : isBlank c with
      | false =>
        rw [Text.squeezeCons_of_not_blank hblank, List.dropWhile_cons_of_neg (by simp [halpha])]
      | true => rcases squeezeCons_blank hblank (Text.squeeze t) with h | ⟨r, h⟩ <;> rw [h] <;> rfl

/-! ## Observers -/

/-- A reader of pieces to whom blanks in a row are one, blanks at the ends are none, and a blank
behind a backslash is like any other character there. -/
structure Observer (σ τ : Type) where
  start : σ
  step : σ → Piece → σ
  report : σ → τ
  start_blank : step start .blank = start
  blank_blank : ∀ s, step (step s .blank) .blank = step s .blank
  report_blank : ∀ s, report (step s .blank) = report s
  escape_blank : ∀ s c d, step (step s (.escape c)) .blank = step s (.escape d)
  report_escape : ∀ s c, report (step s (.escape c)) = report (step s (.sign '\\'))

namespace Observer

variable {σ τ : Type} (o : Observer σ τ)

/-- What is reported of some pieces that are read from a state on. -/
def readFrom (s : σ) (ps : List Piece) : τ := o.report (ps.foldl o.step s)

/-- What is reported of a text. -/
def observe (t : Text) : τ := o.readFrom o.start (pieces t)

@[simp] theorem readFrom_nil (s : σ) : o.readFrom s [] = o.report s := rfl

@[simp] theorem readFrom_cons (s : σ) (p : Piece) (ps : List Piece) :
    o.readFrom s (p :: ps) = o.readFrom (o.step s p) ps := rfl

/-- A blank in front of a squeezed text, as far as it can be told. -/
theorem readFrom_squeezeCons {c : Char} (hc : isBlank c = true) (s : σ) (t : Text) :
    o.readFrom s (pieces (Text.squeezeCons c t)) = o.readFrom (o.step s .blank) (pieces t) := by
  have hspace : isBlank ' ' = true := by decide
  cases t with
  | nil =>
    rw [Text.squeezeCons_blank_nil hc, pieces_nil, readFrom_nil, readFrom_nil, o.report_blank]
  | cons x t =>
    by_cases hx : x = ' '
    · rw [hx, Text.squeezeCons_blank_space hc, pieces_blank hspace, readFrom_cons, readFrom_cons,
        o.blank_blank]
    · rw [Text.squeezeCons_blank_cons hc hx, pieces_blank hspace, readFrom_cons]

/-- A backslash in front of a blank in front of a squeezed text. -/
theorem readFrom_backslash {c : Char} (hc : isBlank c = true) (s : σ) (t : Text) :
    o.readFrom s (pieces ('\\' :: Text.squeezeCons c t)) =
      o.readFrom (o.step s (.escape c)) (pieces t) := by
  have hspace : isBlank ' ' = true := by decide
  have hescape : ∀ r, pieces ('\\' :: ' ' :: r) = .escape ' ' :: pieces r :=
    pieces_escape (by decide)
  cases t with
  | nil =>
    rw [Text.squeezeCons_blank_nil hc, pieces_backslash, pieces_nil, readFrom_cons, readFrom_nil,
      readFrom_nil, o.report_escape]
  | cons x t =>
    by_cases hx : x = ' '
    · rw [hx, Text.squeezeCons_blank_space hc, hescape, pieces_blank hspace, readFrom_cons,
        readFrom_cons, o.escape_blank]
    · rw [Text.squeezeCons_blank_cons hc hx, hescape, readFrom_cons,
        ← o.escape_blank s ' ' ' ', o.escape_blank s ' ' c]

theorem readFrom_squeeze (s : σ) (t : Text) :
    o.readFrom s (pieces (Text.squeeze t)) = o.readFrom s (pieces t) := by
  fun_induction pieces t generalizing s with
  | case1 => rw [Text.squeeze_nil, pieces_nil]
  | case2 => rw [show Text.squeeze ['\\'] = ['\\'] from rfl, pieces_backslash]
  | case3 c t hc ih =>
    rw [Text.squeeze_cons, Text.squeezeCons_of_not_blank (by decide), Text.squeeze_cons,
      Text.squeezeCons_of_not_blank (isBlank_of_isAlpha hc), pieces_word hc, takeWhile_squeeze,
      dropWhile_squeeze, readFrom_cons, readFrom_cons, ih]
  | case4 c t hc ih =>
    rw [Text.squeeze_cons, Text.squeezeCons_of_not_blank (by decide), Text.squeeze_cons]
    cases hblank : isBlank c with
    | true => rw [readFrom_backslash o hblank, ih, readFrom_cons]
    | false =>
      rw [Text.squeezeCons_of_not_blank hblank, pieces_escape (by simpa using hc), readFrom_cons,
        readFrom_cons, ih]
  | case5 c t hend hpair ih =>
    have hne := ne_backslash hend hpair
    rw [Text.squeeze_cons]
    cases hblank : isBlank c with
    | true => rw [readFrom_squeezeCons o hblank, ih, readFrom_cons, if_pos rfl]
    | false =>
      rw [Text.squeezeCons_of_not_blank hblank, pieces_sign hne hblank, readFrom_cons,
        readFrom_cons, ih, if_neg (by decide)]

/-- **An observer reports the same of a text and of the collapsed text.** -/
theorem observe_collapse (t : Text) : o.observe (Text.collapse t) = o.observe t := by
  have hsqueeze := o.readFrom_squeeze o.start t
  unfold observe
  rw [← hsqueeze]
  unfold Text.collapse
  split
  · next r hr => rw [hr, pieces_blank (by decide), readFrom_cons, o.start_blank]
  · rfl

end Observer

end SpokenMath
