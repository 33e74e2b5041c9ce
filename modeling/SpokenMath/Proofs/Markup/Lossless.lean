import SpokenMath.Markup.Reader
import SpokenMath.Proofs.Markup.Tokens

/-!
# Cutting a text loses nothing

Tokens are taken off a text one by one. Five alternatives are tried in order, and three of them
begin with a backslash: two backslashes, a control word, an escape, a mark, a run. Where none of
them applies there would be no way on, but that is only so for a backslash at the very end, and this
one is dropped (`Token.first?_cases`).

**Theorem (`tokenize_lossless`).** Cutting a text never fails. What its tokens write, one after the
other, is the text without a backslash that stands alone at its end, and is cut into the same tokens
again.

The tokens of a text are **canonical**: each could come from a text, and none runs on from the one
before it. Canonical tokens are read back from what they write (`Token.Canonical.tokenize_source`),
and so they are all the lists of tokens that there are (`exists_tokenize_eq_iff`).
-/

namespace SpokenMath

/-! ## A choice of five -/

namespace Token

/-- Two backslashes. -/
def rowSep? : Text → Option (Token × Text)
  | '\\' :: c :: t => if c = '\\' then some (.rowSep, t) else none
  | _ => none

/-- A backslash and at least one letter. -/
def word? : Text → Option (Token × Text)
  | '\\' :: t =>
    let letters := t.takeWhile Char.isAlpha
    if letters.isEmpty then none
    else some (.command (String.ofList letters), t.dropWhile Char.isAlpha)
  | _ => none

/-- A backslash and a character that is no letter. -/
def escape? : Text → Option (Token × Text)
  | '\\' :: c :: t => if c.isAlpha then none else some (.escaped c, t)
  | _ => none

/-- The characters that are tokens of their own. -/
def marks : List (Char × Token) :=
  [('{', .openBrace), ('}', .closeBrace), ('[', .openBracket), (']', .closeBracket), ('_', .sub),
    ('^', .sup), ('&', .align)]

/-- One of the seven marks. -/
def mark? : Text → Option (Token × Text)
  | c :: t => (marks.lookup c).map (·, t)
  | [] => none

/-- At least one character of a run. -/
def run? (t : Text) : Option (Token × Text) :=
  let run := t.takeWhile isPlain
  if run.isEmpty then none else some (.text run, t.dropWhile isPlain)

/-- The first of five alternatives that applies at the front of a text, and what it leaves. -/
def first? (t : Text) : Option (Token × Text) :=
  rowSep? t <|> word? t <|> escape? t <|> mark? t <|> run? t

/-- Where an alternative applies, it takes what is the first token. -/
theorem first?_cases (t : Text) :
    (first? t = none ∧ (t = [] ∨ t = ['\\'])) ∨
      ∃ tok rest, first? t = some (tok, rest) ∧ tokenize t = tok :: tokenize rest ∧
        rest.length < t.length := by
  fun_cases tokenize t with
  | case1 => exact .inl ⟨rfl, .inl rfl⟩
  | case2 => exact .inl ⟨rfl, .inr rfl⟩
  | case3 t => exact .inr ⟨_, t, rfl, rfl, by simp only [List.length_cons]; omega⟩
  | case4 c t hc halpha =>
    have hword : first? ('\\' :: c :: t) =
        some (.command (String.ofList (c :: t.takeWhile Char.isAlpha)),
          t.dropWhile Char.isAlpha) := by
      simp [first?, rowSep?, word?, halpha, show c ≠ '\\' from hc]
    have hle := length_dropWhile_le Char.isAlpha t
    refine .inr ⟨_, _, hword, rfl, ?_⟩
    simp only [List.length_cons]
    omega
  | case5 c t hc halpha =>
    have hescape : first? ('\\' :: c :: t) = some (.escaped c, t) := by
      simp [first?, rowSep?, word?, escape?, halpha, show c ≠ '\\' from hc]
    exact .inr ⟨_, _, hescape, rfl, by simp only [List.length_cons]; omega⟩
  | case13 c t hend _ hpair hopen hclose hopen' hclose' hsub hsup halign =>
    have hne := ne_backslash hend hpair
    have hplain := isPlain_of_ne hne hopen hclose hopen' hclose' hsub hsup halign
    have hmark : marks.lookup c = none := by
      refine List.lookup_eq_none_iff.mpr fun p hp => ?_
      simp only [marks, List.mem_cons, List.not_mem_nil, or_false] at hp
      rcases hp with rfl | rfl | rfl | rfl | rfl | rfl | rfl <;> simpa
    have hrun : first? (c :: t) = some (.text (c :: t.takeWhile isPlain), t.dropWhile isPlain) := by
      simp [first?, rowSep?, word?, escape?, mark?, run?, hplain, hne, hmark]
    have hle := length_dropWhile_le isPlain t
    refine .inr ⟨_, _, hrun, rfl, ?_⟩
    simp only [List.length_cons]
    omega
  | _ t => exact .inr ⟨_, t, rfl, rfl, by simp only [List.length_cons]; omega⟩

theorem length_first?_lt {t rest : Text} {tok : Token} (h : first? t = some (tok, rest)) :
    rest.length < t.length := by
  rcases first?_cases t with ⟨hnone, -⟩ | ⟨tok', rest', hsome, -, hlt⟩
  · rw [hnone] at h
    cases h
  · rw [hsome] at h
    obtain ⟨-, rfl⟩ := Prod.mk.inj (Option.some.inj h)
    exact hlt

end Token

/-- The tokens of a text, taken one by one. A backslash that is all that is left is dropped; any
other text at which no alternative applies would be an error. -/
def readTokens (t : Text) : Except ReadError (List Token) :=
  if t = [] then .ok []
  else
    match _h : Token.first? t with
    | some (tok, rest) => (readTokens rest).map (tok :: ·)
    | none =>
      if t = ['\\'] then .ok [] else .error (.unreadable (String.ofList (t.take 20)))
termination_by t.length
decreasing_by exact Token.length_first?_lt _h

/-- **Cutting a text never fails.** -/
theorem readTokens_eq (t : Text) : readTokens t = .ok (tokenize t) := by
  fun_induction readTokens t with
  | case1 => rw [tokenize_nil]
  | case2 t hne tok rest h ih =>
    rcases Token.first?_cases t with ⟨hnone, -⟩ | ⟨tok', rest', hsome, htokens, -⟩
    · rw [hnone] at h
      cases h
    · rw [hsome] at h
      obtain ⟨rfl, rfl⟩ := Prod.mk.inj (Option.some.inj h)
      rw [ih, htokens]
      rfl
  | case3 => rw [tokenize]
  | case4 t hne h hend =>
    rcases Token.first?_cases t with ⟨-, hnil | hbackslash⟩ | ⟨tok, rest, hsome, -⟩
    · exact absurd hnil hne
    · exact absurd hbackslash hend
    · rw [hsome] at h
      cases h

/-! ## Written back -/

/-- Backslashes are paired from the left with the characters behind them, and the last character is
a backslash without such a pair. -/
def endsLoose : Text → Bool
  | [] => false
  | ['\\'] => true
  | '\\' :: _ :: t => endsLoose t
  | _ :: t => endsLoose t

theorem endsLoose_cons {c : Char} (hc : c ≠ '\\') (t : Text) :
    endsLoose (c :: t) = endsLoose t := by
  rw [endsLoose] <;> simp [hc]

theorem endsLoose_dropWhile {p : Char → Bool} (hp : p '\\' = false) (t : Text) :
    endsLoose (t.dropWhile p) = endsLoose t := by
  refine apply_dropWhile (fun c t hc => endsLoose_cons ?_ t) t
  rintro rfl
  rw [hp] at hc
  cases hc

/-- **A text is what its tokens write**, with a backslash that stands alone at the end. -/
theorem eq_flatMap_source (t : Text) :
    t = (tokenize t).flatMap Token.source ++ if endsLoose t then ['\\'] else [] := by
  fun_induction tokenize t with
  | case1 => rfl
  | case2 => rfl
  | case3 t ih => exact congrArg ('\\' :: '\\' :: ·) ih
  | case4 c t hc halpha ih =>
    rw [endsLoose_dropWhile rfl] at ih
    have hletters : c :: t = (c :: t.takeWhile Char.isAlpha) ++ t.dropWhile Char.isAlpha := by
      rw [List.cons_append, List.takeWhile_append_dropWhile]
    rw [List.flatMap_cons, Token.source, String.toList_ofList, List.append_assoc, endsLoose, ← ih]
    exact congrArg ('\\' :: ·) hletters
  | case5 c t hc halpha ih => exact congrArg ('\\' :: c :: ·) ih
  | case13 c t hend _ hpair hopen hclose hopen' hclose' hsub hsup halign ih =>
    rw [endsLoose_dropWhile rfl] at ih
    rw [List.flatMap_cons, Token.source, List.append_assoc,
      endsLoose_cons (ne_backslash hend hpair), ← ih, List.cons_append,
      List.takeWhile_append_dropWhile]
  | _ t ih => exact congrArg (_ :: ·) ih

/-! ## Read again -/

namespace Token

/-- The second token does not run on from the first: a run ends in front of a token that is no run,
and the name of a command in front of what is no letter. -/
def Apart : Token → Token → Prop
  | text _, text _ => False
  | command _, text run => ∀ c ∈ run.head?, c.isAlpha = false
  | _, _ => True

/-- Tokens that a text can be cut into. -/
structure Canonical (ts : List Token) : Prop where
  cut : ∀ tok ∈ ts, tok.Cut
  apart : ts.IsChain Apart

/-- The character with which a token is written first. -/
theorem head?_flatMap_source {ts : List Token} (h : ∀ tok ∈ ts, tok.Cut) {c : Char}
    (hc : (ts.flatMap source).head? = some c) :
    (∃ run, ts.head? = some (text run) ∧ run.head? = some c) ∨ isSpecial c = true := by
  cases ts with
  | nil => cases hc
  | cons tok ts =>
    rw [List.flatMap_cons] at hc
    cases tok with
    | text run =>
      have hne : run ≠ [] := (List.forall_mem_cons.mp h).1.1
      rw [source, List.head?_append_of_ne_nil _ hne] at hc
      exact .inl ⟨run, rfl, hc⟩
    | _ =>
      obtain rfl := Option.some.inj hc
      exact .inr rfl

end Token

open Token

/-- No letter is special. -/
theorem not_isAlpha_of_isSpecial {c : Char} (h : isSpecial c = true) : c.isAlpha = false := by
  simp only [isSpecial, Bool.or_eq_true, beq_iff_eq] at h
  rcases h with ((((((rfl | rfl) | rfl) | rfl) | rfl) | rfl) | rfl) | rfl <;> rfl

/-- **Tokens that do not run on are read back from what they write.** -/
theorem Token.Canonical.tokenize_source {ts : List Token} (h : Canonical ts) :
    tokenize (ts.flatMap source) = ts := by
  induction ts with
  | nil => exact tokenize_nil
  | cons tok ts ih =>
    obtain ⟨hcut, hcuts⟩ := List.forall_mem_cons.mp h.cut
    obtain ⟨hapart, hchain⟩ := List.isChain_cons.mp h.apart
    have hrest : tokenize (ts.flatMap source) = ts := ih ⟨hcuts, hchain⟩
    rw [List.flatMap_cons]
    cases tok with
    | text run =>
      obtain ⟨hne, hplain⟩ := hcut
      obtain ⟨c, run, rfl⟩ := List.exists_cons_of_ne_nil hne
      obtain ⟨hc, hrun⟩ := List.forall_mem_cons.mp hplain
      have hstop : ∀ d ∈ (ts.flatMap source).head?, isPlain d = false := by
        intro d hd
        rcases head?_flatMap_source hcuts hd with ⟨run', hhead, -⟩ | hspecial
        · exact (hapart _ hhead).elim
        · simp [isPlain, hspecial]
      rw [source, List.cons_append, tokenize_plain hc, takeWhile_append_of_head hrun hstop,
        dropWhile_append_of_head hrun hstop, hrest]
    | command name =>
      have hstop : ∀ d ∈ (ts.flatMap source).head?, d.isAlpha = false := by
        intro d hd
        rcases head?_flatMap_source hcuts hd with ⟨run, hhead, hd⟩ | hspecial
        · exact hapart _ hhead d hd
        · exact not_isAlpha_of_isSpecial hspecial
      rw [source, List.cons_append, tokenize_word hcut.1 hcut.2 hstop, hrest]
    | escaped c =>
      have htokens := tokenize_escaped hcut.1 hcut.2 (ts.flatMap source)
      rw [hrest] at htokens
      exact htokens
    | rowSep =>
      rw [show rowSep.source ++ ts.flatMap source = '\\' :: '\\' :: ts.flatMap source from rfl,
        tokenize, hrest]
    | _ => exact (tokenize_single (by simp) _).trans (congrArg (_ :: ·) hrest)

/-- A run begins as the text does. -/
theorem head?_of_tokenize_text {t run : Text} (h : (tokenize t).head? = some (.text run)) :
    ∃ c, t.head? = some c ∧ run.head? = some c ∧ isPlain c = true := by
  fun_cases tokenize t with
  | case13 c t hend _ hpair hopen hclose hopen' hclose' hsub hsup halign =>
    have hplain := isPlain_of_ne (ne_backslash hend hpair) hopen hclose hopen' hclose' hsub hsup
      halign
    rw [tokenize_plain hplain] at h
    obtain rfl := Token.text.inj (Option.some.inj h)
    exact ⟨c, rfl, rfl, hplain⟩
  | _ => simp_all [tokenize]

/-- **The tokens of a text do not run on.** -/
theorem canonical_tokenize (t : Text) : Canonical (tokenize t) := by
  refine ⟨cut_of_mem_tokenize, ?_⟩
  fun_induction tokenize t with
  | case1 => exact .nil
  | case2 => exact .nil
  | case4 c t hc halpha ih =>
    refine List.isChain_cons.mpr ⟨fun tok htok => ?_, ih⟩
    cases tok with
    | text run =>
      obtain ⟨d, hd, hrun, -⟩ := head?_of_tokenize_text htok
      have hdrop := List.head?_dropWhile_not Char.isAlpha t
      rw [hd] at hdrop
      intro e he
      obtain rfl := Option.some.inj (hrun.symm.trans he)
      exact hdrop
    | _ => trivial
  | case5 c t hc halpha ih => exact List.isChain_cons.mpr ⟨fun tok _ => trivial, ih⟩
  | case13 c t hend _ hpair hopen hclose hopen' hclose' hsub hsup halign ih =>
    refine List.isChain_cons.mpr ⟨fun tok htok => ?_, ih⟩
    cases tok with
    | text run =>
      obtain ⟨d, hd, -, hplain⟩ := head?_of_tokenize_text htok
      have hdrop := List.head?_dropWhile_not isPlain t
      rw [hd] at hdrop
      exact absurd (hplain.symm.trans hdrop) (by decide)
    | _ => trivial
  | _ t ih => exact List.isChain_cons.mpr ⟨fun tok _ => trivial, ih⟩

/-- Canonical tokens are the tokens of a text, and no others are. -/
theorem exists_tokenize_eq_iff {ts : List Token} : (∃ t, tokenize t = ts) ↔ Canonical ts := by
  refine ⟨?_, fun h => ⟨ts.flatMap source, h.tokenize_source⟩⟩
  rintro ⟨t, rfl⟩
  exact canonical_tokenize t

/-- **Cutting a text loses nothing.** It never fails; what the tokens write is the text, apart from
a backslash that stands alone at its end, and is cut into the same tokens; a run is not empty and
has no special character; and no token runs on from the one before it. -/
theorem tokenize_lossless (t : Text) :
    readTokens t = .ok (tokenize t) ∧
      (t = (tokenize t).flatMap source ++ if endsLoose t then ['\\'] else []) ∧
      tokenize ((tokenize t).flatMap source) = tokenize t ∧
      (∀ run, .text run ∈ tokenize t → run ≠ [] ∧ ∀ c ∈ run, isSpecial c = false) ∧
      (tokenize t).IsChain Apart := by
  have hcanonical := canonical_tokenize t
  refine ⟨readTokens_eq t, eq_flatMap_source t, hcanonical.tokenize_source, fun run hrun => ?_,
    hcanonical.apart⟩
  obtain ⟨hne, hplain⟩ := hcanonical.cut _ hrun
  exact ⟨hne, fun c hc => by simpa [isPlain] using hplain c hc⟩

end SpokenMath
