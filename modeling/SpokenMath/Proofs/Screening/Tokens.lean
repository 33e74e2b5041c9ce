import SpokenMath.Proofs.Lists
import SpokenMath.Proofs.Screening.Reading

/-!
# Control words and carets, in tokens and in pieces

The reader of the markup cuts a text into tokens, and the screening cuts it into pieces. Runs of
text are one token but many pieces.

**Theorem (`names_pieces`).** Both find the same control words.

**Theorem (`doubled_caret_iff`).** Both find the same carets next to each other.
-/

namespace SpokenMath

/-- The name of a control word. -/
def Token.name? : Token → Option String
  | .command name => some name
  | _ => none

/-- The name of a control word. -/
def Piece.name? : Piece → Option String
  | .word name => some name
  | _ => none

/-- The control words of a text, in order. -/
def controlWords (t : Text) : List String := (tokenize t).filterMap Token.name?

/-! ## Runs -/

theorem isPlain_of_ne {c : Char} (hbackslash : c ≠ '\\') (hopen : c ≠ '{') (hclose : c ≠ '}')
    (hopen' : c ≠ '[') (hclose' : c ≠ ']') (hsub : c ≠ '_') (hsup : c ≠ '^') (halign : c ≠ '&') :
    Token.isPlain c = true := by
  simp [Token.isPlain, Token.isSpecial, *]

/-- A plain character is a piece of no interest. -/
theorem pieces_plain {c : Char} (hc : Token.isPlain c = true) (t : Text) :
    ∃ p : Piece, pieces (c :: t) = p :: pieces t ∧ p.name? = none ∧ p ≠ .sign '^' := by
  have hne : c ≠ '\\' ∧ c ≠ '^' := by constructor <;> rintro rfl <;> cases hc
  cases hblank : isBlank c with
  | true => exact ⟨.blank, pieces_blank hblank t, rfl, nofun⟩
  | false => exact ⟨.sign c, pieces_sign hne.1 hblank t, rfl, fun h => hne.2 (Piece.sign.inj h)⟩

theorem names_pieces_dropWhile (t : Text) :
    (pieces (t.dropWhile Token.isPlain)).filterMap Piece.name? =
      (pieces t).filterMap Piece.name? := by
  refine apply_dropWhile (f := fun t => (pieces t).filterMap Piece.name?) (fun c t hplain => ?_) t
  obtain ⟨p, hp, hname, -⟩ := pieces_plain hplain t
  simp only [hp, List.filterMap_cons_none hname]

theorem doubled_pieces_dropWhile (t : Text) :
    Doubled (.sign '^') (pieces (t.dropWhile Token.isPlain)) ↔ Doubled (.sign '^') (pieces t) := by
  refine iff_of_eq (apply_dropWhile (f := fun t => Doubled (.sign '^') (pieces t)) ?_ t)
  intro c t hplain
  obtain ⟨p, hp, -, hne⟩ := pieces_plain hplain t
  simp only [hp, doubled_cons_of_ne hne]

/-! ## The whole text -/

/-- **The reader and the screening find the same control words.** -/
theorem names_pieces (t : Text) : (pieces t).filterMap Piece.name? = controlWords t := by
  unfold controlWords
  fun_induction tokenize t with
  | case1 => rw [pieces_nil]; rfl
  | case2 => rw [pieces_backslash]; rfl
  | case3 t ih =>
    rw [pieces_escape (by decide)]
    exact ih
  | case4 c t hc halpha ih =>
    rw [pieces_word halpha]
    exact congrArg (_ :: ·) ih
  | case5 c t hc halpha ih =>
    rw [pieces_escape (by simpa using halpha)]
    exact ih
  | case13 c t hend _ hpair hopen hclose hopen' hclose' hsub hsup halign ih =>
    have hplain := isPlain_of_ne (ne_backslash hend hpair) hopen hclose hopen' hclose' hsub hsup
      halign
    obtain ⟨p, hp, hname, -⟩ := pieces_plain hplain t
    rw [hp, List.filterMap_cons_none hname, ← names_pieces_dropWhile]
    exact ih
  | _ t ih =>
    rw [pieces_sign (by decide) (by decide)]
    exact ih

theorem head?_tokenize_eq_sup_iff (t : Text) :
    (tokenize t).head? = some .sup ↔ t.head? = some '^' := by
  fun_cases tokenize t <;> simp_all

theorem head?_pieces_eq_caret_iff (t : Text) :
    (pieces t).head? = some (.sign '^') ↔ t.head? = some '^' := by
  refine ⟨head?_of_pieces, fun h => ?_⟩
  obtain ⟨r, rfl⟩ := List.head?_eq_some_iff.mp h
  rw [pieces_sign (by decide) (by decide)]
  rfl

/-- **The reader and the screening find the same carets next to each other.** -/
theorem doubled_caret_iff (t : Text) :
    Doubled .sup (tokenize t) ↔ Doubled (.sign '^') (pieces t) := by
  fun_induction tokenize t with
  | case1 => simp
  | case2 => simp [pieces_backslash, doubled_cons_iff]
  | case3 t ih =>
    rw [pieces_escape (by decide)]
    exact doubled_cons_congr (by decide) (by decide) ih
  | case4 c t hc halpha ih =>
    rw [pieces_word halpha]
    exact doubled_cons_congr (fun h => nomatch h) (fun h => nomatch h) ih
  | case5 c t hc halpha ih =>
    rw [pieces_escape (by simpa using halpha)]
    exact doubled_cons_congr (fun h => nomatch h) (fun h => nomatch h) ih
  | case11 t ih =>
    rw [pieces_sign (by decide) (by decide), doubled_cons_iff, doubled_cons_iff, ih,
      head?_tokenize_eq_sup_iff, head?_pieces_eq_caret_iff]
    simp
  | case13 c t hend _ hpair hopen hclose hopen' hclose' hsub hsup halign ih =>
    have hplain := isPlain_of_ne (ne_backslash hend hpair) hopen hclose hopen' hclose' hsub hsup
      halign
    obtain ⟨p, hp, -, hne⟩ := pieces_plain hplain t
    rw [hp]
    exact doubled_cons_congr (fun h => nomatch h) hne (ih.trans (doubled_pieces_dropWhile t))
  | _ t ih =>
    rw [pieces_sign (by decide) (by decide)]
    exact doubled_cons_congr (by decide) (by decide) ih

end SpokenMath
