import SpokenMath.Proofs.Polish.Pauses

/-!
# Words for an audience

Phrases are replaced from left to right. What is not touched by a replacement is copied, together
with what stands at its edges (`exists_of_substitute`). Whether a replacement may touch it can be
seen from the shape of the text alone: a **mask** that says of each character what it may be is
*foreign* to a replacement if no text of that shape begins within the replacement or is entered by
it.

**Theorem (`exists_of_chooseWords`).** A text of a foreign shape that is found after the words were
chosen was there before.

**Theorem (`not_hasPhrase_chooseWords`).** No phrase of the vocabulary is left.
-/

namespace SpokenMath

namespace Polish

variable {c : Char} {p r s t x : Text}

/-! ## Masks -/

/-- What each character of a text may be. -/
abbrev Mask := List (Char → Bool)

/-- A text of this shape. -/
def Fits (m : Mask) (x : Text) : Prop := List.Forall₂ (fun test c => test c = true) m x

/-- As far as both go, the text has this shape. -/
def Mask.agrees (m : Mask) (r : Text) : Bool := (List.zipWith (fun test c => test c) m r).all id

/-- No text of this shape is entered by `r`, or begins within `r`, unless it does so in the middle
of a word. -/
def Mask.foreign (m : Mask) (r : Text) : Bool :=
  (List.range m.length).all (fun n => !Mask.agrees (m.drop n) r) &&
    (List.range (r.length - 1)).all fun n =>
      !m.agrees (r.drop (n + 1)) || (r[n]? != some ' ' && r[n + 1]? != some ' ')

theorem Fits.agrees {m : Mask} {b u : Text} (h : Fits m x) (heq : x ++ b = r ++ u) :
    m.agrees r = true := by
  induction h generalizing r with
  | nil => rfl
  | @cons test c m x hc _ ih =>
    cases r with
    | nil => rfl
    | cons d r =>
      obtain ⟨rfl, hrest⟩ := List.cons.inj heq
      have hbehind := ih hrest
      simp only [Mask.agrees, List.zipWith_cons_cons, List.all_cons, id_eq, hc, Bool.true_and]
      exact hbehind

theorem Fits.append {m m' : Mask} {x' : Text} (h : Fits m x) (h' : Fits m' x') :
    Fits (m ++ m') (x ++ x') := by
  induction h with
  | nil => exact h'
  | cons hc _ ih => exact .cons hc ih

theorem Fits.drop {m : Mask} {x₁ x₂ : Text} (h : Fits m (x₁ ++ x₂)) :
    x₁.length + x₂.length = m.length ∧ Fits (m.drop x₁.length) x₂ :=
  ⟨by rw [List.Forall₂.length_eq h, List.length_append], List.forall₂_drop_append m x₁ x₂ h⟩

/-- A replacement does not begin within a text of a foreign shape. -/
theorem Mask.not_starts {m : Mask} {x₁ x₂ b u : Text} (hm : m.foreign r = true) (h : Fits m x)
    (hx : x = x₁ ++ x₂) (hne : x₂ ≠ []) : x₂ ++ b ≠ r ++ u := by
  intro heq
  subst hx
  obtain ⟨hlength, hdrop⟩ := h.drop
  have hpos := List.length_pos_iff.mpr hne
  have hall := (Bool.and_eq_true_iff.mp hm).1
  have hnot := List.all_eq_true.mp hall x₁.length (List.mem_range.mpr (by omega))
  rw [hdrop.agrees heq] at hnot
  cases hnot

/-- A text of a foreign shape that begins within a replacement begins in the middle of a word. -/
theorem Mask.not_inside {m : Mask} {r₁ r₂ b u : Text} {a d : Char} (hm : m.foreign r = true)
    (h : Fits m x) (hr : r = (r₁ ++ [a]) ++ d :: r₂) (heq : x ++ b = d :: r₂ ++ u) :
    a ≠ ' ' ∧ d ≠ ' ' := by
  subst hr
  have hall := (Bool.and_eq_true_iff.mp hm).2
  have hmem : r₁.length ∈ List.range (((r₁ ++ [a]) ++ d :: r₂).length - 1) := by
    rw [List.mem_range]
    simp only [List.length_append, List.length_cons, List.length_nil]
    omega
  have hnot := List.all_eq_true.mp hall _ hmem
  have hdrop : ((r₁ ++ [a]) ++ d :: r₂).drop (r₁.length + 1) = d :: r₂ := by
    rw [List.drop_append]
    simp
  have ha : ((r₁ ++ [a]) ++ d :: r₂)[r₁.length]? = some a := by simp
  have hd : ((r₁ ++ [a]) ++ d :: r₂)[r₁.length + 1]? = some d := by
    rw [List.getElem?_append_right (by simp)]
    simp
  rw [hdrop, h.agrees heq, ha, hd] at hnot
  simpa using hnot

/-! ## Phrases -/

/-- Small letters and spaces, with letters at both ends. -/
def IsPhrase (p : Text) : Prop :=
  (∀ c ∈ p, c.isLower = true ∨ c = ' ') ∧ p.head?.any Char.isLower = true ∧
    p.getLast?.any Char.isLower = true

instance (p : Text) : Decidable (IsPhrase p) :=
  decidable_of_iff (p.all (fun c => c.isLower || c == ' ') = true ∧
      p.head?.any Char.isLower = true ∧ p.getLast?.any Char.isLower = true)
    (by simp [IsPhrase])

/-- The shape of a phrase, in letters of any case. -/
def phraseMask (p : Text) : Mask := p.map sameLetter

/-- No word goes on behind this text. -/
def WordBegins (f : Text) : Prop := ∀ c ∈ f.getLast?, isWordChar c = false

/-- A phrase stands in the text as words of its own. -/
def HasPhrase (p t : Text) : Prop :=
  ∃ f x b, t = f ++ (x ++ b) ∧ WordBegins f ∧ Fits (phraseMask p) x ∧ wordEnds b = true

/-- A letter of which a phrase may be spelled. -/
def IsLetter (c : Char) : Prop := ∃ a, a.isLower = true ∧ sameLetter a c = true

theorem sameLetter_cases {a : Char} (h : sameLetter a c = true) :
    c.toLower = a ∨ a = 's' ∧ c = 'ſ' ∨ a = 'k' ∧ c = '\u212a' := by
  simpa [sameLetter, or_assoc] using h

theorem IsLetter.cases (h : IsLetter c) : c.isAlpha = true ∨ c = 'ſ' ∨ c = '\u212a' := by
  obtain ⟨a, ha, h⟩ := h
  rcases sameLetter_cases h with hc | ⟨-, hc⟩ | ⟨-, hc⟩
  · rcases eq_or_isAlpha_of_toLower_eq (hc.trans (toLower_of_isLower ha).symm) with rfl | hboth
    · exact .inl (isAlpha_of_isLower ha)
    · exact .inl hboth.1
  · exact .inr (.inl hc)
  · exact .inr (.inr hc)

theorem IsLetter.ne_space (h : IsLetter c) : c ≠ ' ' := by
  rintro rfl
  rcases h.cases with h | h | h <;> exact absurd h (by decide)

theorem IsLetter.ne_comma (h : IsLetter c) : c ≠ ',' := by
  rintro rfl
  rcases h.cases with h | h | h <;> exact absurd h (by decide)

theorem sameLetter_space (h : sameLetter ' ' c = true) : c = ' ' := by
  rcases sameLetter_cases h with hc | ⟨hc, -⟩ | ⟨hc, -⟩
  · refine (eq_or_isAlpha_of_toLower_eq (d := ' ') hc).resolve_right fun halpha => ?_
    exact absurd halpha.2 (by decide)
  · exact absurd hc (by decide)
  · exact absurd hc (by decide)

theorem isWordChar_of_isLower (h : c.isLower = true) : isWordChar c = true :=
  isWordChar_of_isAlpha (isAlpha_of_isLower h)

theorem afterPhrase?_eq_some {b : Text} (h : afterPhrase? p t = some b) :
    ∃ x, t = x ++ b ∧ Fits (phraseMask p) x ∧ wordEnds b = true := by
  fun_induction afterPhrase? p t with
  | case1 t hends =>
    cases h
    exact ⟨[], rfl, .nil, hends⟩
  | case2 => cases h
  | case3 => cases h
  | case4 a p c t hletter ih =>
    obtain ⟨x, rfl, hx, hends⟩ := ih h
    exact ⟨c :: x, rfl, .cons hletter hx, hends⟩
  | case5 => cases h

theorem afterPhrase?_append {b : Text} (hx : Fits (phraseMask p) x) (hb : wordEnds b = true) :
    afterPhrase? p (x ++ b) = some b := by
  induction p generalizing x with
  | nil =>
    cases hx
    exact if_pos hb
  | cons a p ih =>
    obtain ⟨c, y, hc, hy, rfl⟩ := List.forall₂_cons_left_iff.mp hx
    rw [List.cons_append, afterPhrase?, if_pos hc, ih hy]

/-- A phrase is spelled with letters at both ends. -/
theorem Fits.head_isLetter (hx : Fits (phraseMask p) x) (hp : IsPhrase p) :
    ∃ c ∈ x.head?, IsLetter c := by
  obtain ⟨a, ha, hlower⟩ := (Option.any_eq_true _ _).mp hp.2.1
  obtain ⟨p', rfl⟩ := List.head?_eq_some_iff.mp ha
  obtain ⟨c, x', hc, -, rfl⟩ := List.forall₂_cons_left_iff.mp hx
  exact ⟨c, rfl, a, hlower, hc⟩

theorem Fits.last_isLetter (hx : Fits (phraseMask p) x) (hp : IsPhrase p) :
    ∃ c ∈ x.getLast?, IsLetter c := by
  obtain ⟨a, ha, hlower⟩ := (Option.any_eq_true _ _).mp hp.2.2
  obtain ⟨p', rfl⟩ := List.getLast?_eq_some_iff.mp ha
  have hreverse := List.forall₂_reverse_iff.mpr hx
  rw [phraseMask, List.map_append, List.reverse_append] at hreverse
  obtain ⟨c, x', hc, -, hx'⟩ := List.forall₂_cons_left_iff.mp hreverse
  refine ⟨c, ?_, a, hlower, hc⟩
  rw [← List.head?_reverse, hx']
  rfl

/-- A phrase is spelled by letters and spaces. -/
theorem Fits.letters (hx : Fits (phraseMask p) x) (hp : ∀ c ∈ p, c.isLower = true ∨ c = ' ') :
    ∀ c ∈ x, IsLetter c ∨ c = ' ' := by
  induction p generalizing x with
  | nil =>
    cases hx
    exact nofun
  | cons a p ih =>
    obtain ⟨c, y, hc, hy, rfl⟩ := List.forall₂_cons_left_iff.mp hx
    obtain ⟨ha, hp⟩ := List.forall_mem_cons.mp hp
    refine List.forall_mem_cons.mpr ⟨?_, ih hy hp⟩
    rcases ha with hlower | rfl
    · exact .inl ⟨a, hlower, hc⟩
    · exact .inr (sameLetter_space hc)

/-! ## Edges -/

/-- What a replacement leaves of a character next to it: the same one, or a small letter in place of
a letter. -/
def SameEdge (c₀ c : Option Char) : Prop :=
  c₀ = c ∨ (∃ d ∈ c₀, IsLetter d) ∧ ∃ d ∈ c, d.isLower = true

namespace SameEdge

variable {c₀ c₁ c₂ d₀ d₁ : Option Char}

theorem refl (c : Option Char) : SameEdge c c := .inl rfl

theorem trans (h : SameEdge c₀ c₁) (h' : SameEdge c₁ c₂) : SameEdge c₀ c₂ := by
  rcases id h with rfl | ⟨h₀, -⟩
  · exact h'
  · rcases h' with rfl | ⟨-, h₂⟩
    · exact h
    · exact .inr ⟨h₀, h₂⟩

theorem eq_of_not_isLower (h : SameEdge c₀ c₁) (hc : ∀ d ∈ c₁, d.isLower = false) : c₀ = c₁ := by
  rcases h with h | ⟨-, d, hd, hlower⟩
  · exact h
  · rw [hc d hd] at hlower
    cases hlower

theorem none_iff (h : SameEdge c₀ c₁) : c₀ = none ↔ c₁ = none := by
  rcases h with rfl | ⟨⟨d, hd, -⟩, e, he, -⟩
  · rfl
  · rw [Option.mem_def.mp hd, Option.mem_def.mp he]
    exact iff_of_false nofun nofun

theorem or (h : SameEdge c₀ c₁) (h' : SameEdge d₀ d₁) : SameEdge (c₀.or d₀) (c₁.or d₁) := by
  cases c₁ with
  | none =>
    rw [h.none_iff.mpr rfl, Option.none_or, Option.none_or]
    exact h'
  | some c =>
    obtain ⟨e, rfl⟩ := Option.ne_none_iff_exists'.mp fun hnone => nomatch h.none_iff.mp hnone
    exact h

end SameEdge

theorem sameEdge_append {f₀ f g₀ g : Text} (hg : SameEdge g₀.getLast? g.getLast?)
    (hf : SameEdge f₀.getLast? f.getLast?) :
    SameEdge (g₀ ++ f₀).getLast? (g ++ f).getLast? := by
  rw [List.getLast?_append, List.getLast?_append]
  exact hf.or hg

theorem sameEdge_cons {f₀ f : Text} (c : Char) (hf : SameEdge f₀.getLast? f.getLast?) :
    SameEdge (c :: f₀).getLast? (c :: f).getLast? :=
  sameEdge_append (.refl [c].getLast?) hf

theorem not_isLower_of_not_isWordChar (h : isWordChar c = false) : c.isLower = false := by
  by_contra hlower
  rw [isWordChar_of_isLower (by simpa using hlower)] at h
  cases h

theorem WordBegins.of_sameEdge {f₀ f : Text} (hf : WordBegins f)
    (h : SameEdge f₀.getLast? f.getLast?) : WordBegins f₀ := by
  have heq := h.eq_of_not_isLower fun d hd => not_isLower_of_not_isWordChar (hf d hd)
  rwa [WordBegins, heq]

theorem EndsGap.of_sameEdge {f₀ f : Text} (hf : EndsGap f)
    (h : SameEdge f₀.getLast? f.getLast?) : EndsGap f₀ := by
  have heq := h.eq_of_not_isLower fun d hd => by rw [hf d hd]; decide
  rwa [EndsGap, heq]

theorem BeginsGap.of_sameEdge {b₀ b : Text} (hb : BeginsGap b)
    (h : SameEdge b₀.head? b.head?) : BeginsGap b₀ := by
  have heq := h.eq_of_not_isLower fun d hd => by rw [hb d hd]; decide
  rwa [BeginsGap, heq]

theorem wordEnds_of_sameEdge {b₀ b : Text} (hb : wordEnds b = true)
    (h : SameEdge b₀.head? b.head?) : wordEnds b₀ = true := by
  have heq := h.eq_of_not_isLower fun d hd => not_isLower_of_not_isWordChar ?_
  · rwa [wordEnds, heq]
  · rw [wordEnds, hd] at hb
    simpa using hb

/-- No word of small letters goes on from `f` to `x`. -/
def Apart (f x : Text) : Prop :=
  ∀ c ∈ f.getLast?, c.isLower = true → ∀ d ∈ x.head?, d.isLower = false

theorem Apart.of_append {f g : Text} (h : Apart (g ++ f) x) : Apart f x := by
  intro c hc
  obtain ⟨f', rfl⟩ := List.getLast?_eq_some_iff.mp hc
  exact h c (by rw [← List.append_assoc]; exact List.getLast?_concat)

theorem Apart.of_sameEdge {f₀ f : Text} (h : Apart f x) (hedge : SameEdge f₀.getLast? f.getLast?) :
    Apart f₀ x := by
  rcases hedge with heq | ⟨-, c, hc, hlower⟩
  · rwa [Apart, heq]
  · exact fun _ _ _ => h c hc hlower

/-! ## Replacing a phrase -/

/-- A phrase and what replaces it. -/
structure Entry (p r : Text) : Prop where
  phrase : IsPhrase p
  replacement : IsPhrase r
  long : 3 < r.length

theorem Entry.head {y rest t : Text} (he : Entry p r) (hy : Fits (phraseMask p) y) :
    SameEdge (y ++ rest).head? (r ++ t).head? := by
  obtain ⟨c, hc, hletter⟩ := hy.head_isLetter he.phrase
  obtain ⟨d, hd, hlower⟩ := (Option.any_eq_true _ _).mp he.replacement.2.1
  refine .inr ⟨⟨c, ?_, hletter⟩, d, ?_, hlower⟩
  · rw [List.head?_append, hc]; rfl
  · rw [List.head?_append, hd]; rfl

theorem Entry.last {y : Text} (he : Entry p r) (hy : Fits (phraseMask p) y) :
    SameEdge y.getLast? r.getLast? := by
  obtain ⟨c, hc, hletter⟩ := hy.last_isLetter he.phrase
  obtain ⟨d, hd, hlower⟩ := (Option.any_eq_true _ _).mp he.replacement.2.2
  exact .inr ⟨⟨c, hc, hletter⟩, d, hd, hlower⟩

/-- What stands behind something copied: it begins in the same way, and nothing is replaced in it
where it is short. -/
structure Behind (b₀ b : Text) : Prop where
  edge : SameEdge b₀.head? b.head?
  short : b.length ≤ 3 → b₀ = b

theorem Behind.refl (b : Text) : Behind b b := ⟨.refl _, fun _ => rfl⟩

theorem Behind.trans {b₀ b₁ b₂ : Text} (h : Behind b₀ b₁) (h' : Behind b₁ b₂) : Behind b₀ b₂ where
  edge := h.edge.trans h'.edge
  short hlength := by
    obtain rfl := h'.short hlength
    exact h.short hlength

theorem afterPhrase?_of_split {inWord : Bool} {rest : Text}
    (h : (if inWord || p.isEmpty then none else afterPhrase? p t) = some rest) :
    ∃ x, t = x ++ rest ∧ Fits (phraseMask p) x := by
  split at h
  · cases h
  · obtain ⟨x, hx, hfits, -⟩ := afterPhrase?_eq_some h
    exact ⟨x, hx, hfits⟩

theorem behind_substitute (he : Entry p r) (inWord : Bool) (t : Text) :
    Behind t (substitute p r inWord t) := by
  fun_induction substitute p r inWord t with
  | case1 => exact .refl []
  | case2 inWord c t rest hphrase _ =>
    obtain ⟨y, hy, hfits⟩ := afterPhrase?_of_split hphrase
    refine ⟨?_, fun hlength => ?_⟩
    · rw [hy]
      exact he.head hfits
    · rw [List.length_append] at hlength
      have := he.long
      omega
  | case3 inWord c t _ ih =>
    refine ⟨.refl _, fun hlength => ?_⟩
    rw [List.length_cons] at hlength
    exact congrArg (c :: ·) (ih.short (by omega))

theorem sameEdge_substitute (he : Entry p r) (inWord : Bool) (t : Text) :
    SameEdge t.getLast? (substitute p r inWord t).getLast? := by
  fun_induction substitute p r inWord t with
  | case1 => exact .refl _
  | case2 inWord c t rest hphrase ih =>
    obtain ⟨y, hy, hfits⟩ := afterPhrase?_of_split hphrase
    rw [hy]
    exact sameEdge_append (he.last hfits) ih
  | case3 inWord c t _ ih => exact sameEdge_cons c ih

/-- What no replacement begins in is copied. -/
theorem exists_of_substitute_front {inWord : Bool} {b : Text}
    (hx : ∀ x₁ x₂, x = x₁ ++ x₂ → x₂ ≠ [] → ∀ u, x₂ ++ b ≠ r ++ u)
    (h : substitute p r inWord t = x ++ b) :
    ∃ b₀ flag, t = x ++ b₀ ∧ substitute p r flag b₀ = b := by
  induction x generalizing t inWord with
  | nil => exact ⟨t, inWord, rfl, h⟩
  | cons d x ih =>
    unfold substitute at h
    split at h
    · cases h
    · next c t =>
      split at h
      · exact absurd h.symm (hx [] (d :: x) rfl (List.cons_ne_nil d x) _)
      · obtain ⟨rfl, hrest⟩ := List.cons.inj h
        obtain ⟨b₀, flag, rfl, hb⟩ := ih (fun x₁ x₂ hsplit => hx (c :: x₁) x₂ (by rw [hsplit]; rfl))
          hrest
        exact ⟨b₀, flag, rfl, hb⟩

/-- **A text of a foreign shape that is found was there before**, and was not replaced itself. -/
theorem exists_of_substitute {m : Mask} {inWord : Bool} {f b : Text} (he : Entry p r)
    (hm : m.foreign r = true) (hx : Fits m x) (hne : x ≠ []) (hapart : Apart f x)
    (h : substitute p r inWord t = f ++ (x ++ b)) :
    ∃ f₀ b₀, t = f₀ ++ (x ++ b₀) ∧ SameEdge f₀.getLast? f.getLast? ∧ Behind b₀ b ∧
      (WordBegins f → (f = [] → inWord = false) → afterPhrase? p (x ++ b₀) = none) := by
  fun_induction substitute p r inWord t generalizing f with
  | case1 => exact absurd (List.append_eq_nil_iff.mp (List.append_eq_nil_iff.mp h.symm).2).1 hne
  | case2 inWord c t rest hphrase ih =>
    obtain ⟨y, hy, hfits⟩ := afterPhrase?_of_split hphrase
    have hbehind : ∀ f', f = r ++ f' → substitute p r true rest = f' ++ (x ++ b) →
        ∃ f₀ b₀, c :: t = f₀ ++ (x ++ b₀) ∧ SameEdge f₀.getLast? f.getLast? ∧ Behind b₀ b ∧
          (WordBegins f → (f = [] → inWord = false) → afterPhrase? p (x ++ b₀) = none) := by
      rintro f' rfl hrest
      obtain ⟨f₀, b₀, hsplit, hedge, hb, hnone⟩ := ih hapart.of_append hrest
      refine ⟨y ++ f₀, b₀, by rw [hy, hsplit, List.append_assoc],
        sameEdge_append (he.last hfits) hedge, hb, fun hbegins _ => ?_⟩
      -- A replacement ends as a word does.
      have hne' : f' ≠ [] := by
        rintro rfl
        obtain ⟨d, hd, hlower⟩ := (Option.any_eq_true _ _).mp he.replacement.2.2
        rw [List.append_nil] at hbegins
        rw [not_isLower_of_not_isWordChar (hbegins d hd)] at hlower
        cases hlower
      refine hnone (fun d hd => hbegins d ?_) fun hnil => absurd hnil hne'
      rwa [List.getLast?_append_of_ne_nil _ hne']
    rcases List.append_eq_append_iff.mp h with ⟨f', rfl, hrest⟩ | ⟨r', hr, hrest⟩
    · exact hbehind f' rfl hrest
    · cases r' with
      | nil => exact hbehind [] (by simpa using hr.symm) (by simpa using hrest.symm)
      | cons d r' =>
        exfalso
        rcases List.eq_nil_or_concat' f with rfl | ⟨f', a, rfl⟩
        · rw [List.nil_append] at hr
          rw [← hr] at hrest
          exact Mask.not_starts hm hx (List.nil_append x).symm hne hrest
        · obtain ⟨ha, hd⟩ := Mask.not_inside hm hx hr hrest
          have hlower : ∀ e ∈ r, e ≠ ' ' → e.isLower = true := fun e hmem hspace =>
            (he.replacement.1 e hmem).resolve_right hspace
          obtain ⟨e, x', rfl⟩ := List.exists_cons_of_ne_nil hne
          obtain ⟨rfl, -⟩ := List.cons.inj hrest
          have hsmall := hapart a List.getLast?_concat (hlower a (by simp [hr]) ha) e rfl
          rw [hlower e (by simp [hr]) hd] at hsmall
          cases hsmall
  | case3 inWord c t hnone ih =>
    cases f with
    | nil =>
      obtain ⟨d, x', rfl⟩ := List.exists_cons_of_ne_nil hne
      obtain ⟨rfl, hrest⟩ := List.cons.inj h
      have hforeign : ∀ x₁ x₂, x' = x₁ ++ x₂ → x₂ ≠ [] → ∀ u, x₂ ++ b ≠ r ++ u := by
        rintro x₁ x₂ rfl hx₂ u
        have hsplit : c :: (x₁ ++ x₂) = (c :: x₁) ++ x₂ := rfl
        exact Mask.not_starts hm hx hsplit hx₂
      obtain ⟨b₀, flag, rfl, rfl⟩ := exists_of_substitute_front hforeign hrest
      refine ⟨[], b₀, rfl, .refl _, behind_substitute he flag b₀, fun _ hword => ?_⟩
      have hp : p ≠ [] := by
        rintro rfl
        exact absurd he.phrase.2.1 (by decide)
      rwa [hword rfl, dif_neg (by simpa using hp)] at hnone
    | cons d f =>
      obtain ⟨rfl, hrest⟩ := List.cons.inj h
      obtain ⟨f₀, b₀, rfl, hedge, hb, hfree⟩ := ih (hapart.of_append (g := [c])) hrest
      refine ⟨c :: f₀, b₀, rfl, sameEdge_cons c hedge, hb, fun hbegins _ => ?_⟩
      refine hfree (fun e he => ?_) fun hnil => ?_
      · obtain ⟨f', rfl⟩ := List.getLast?_eq_some_iff.mp he
        exact hbegins e (List.getLast?_concat (l := c :: f'))
      · rw [hnil] at hbegins
        exact hbegins c rfl

/-! ## Phrases that are left -/

/-- A phrase that stands in a text is found where it stands. -/
theorem afterPhrase?_eq_none (h : ¬HasPhrase p t) {f b : Text} (hsplit : t = f ++ b)
    (hf : WordBegins f) : afterPhrase? p b = none := by
  refine Option.eq_none_iff_forall_ne_some.mpr fun rest hrest => h ?_
  obtain ⟨x, rfl, hx, hends⟩ := afterPhrase?_eq_some hrest
  exact ⟨f, x, rest, hsplit, hf, hx, hends⟩

/-- Where the phrase does not stand, nothing is replaced. -/
theorem substitute_eq_self (h : ¬HasPhrase p t) : substitute p r false t = t := by
  have hbehind : ∀ inWord f b, t = f ++ b → (inWord = false → WordBegins f) →
      substitute p r inWord b = b := by
    intro inWord f b hsplit hf
    fun_induction substitute p r inWord b generalizing f with
    | case1 => rfl
    | case2 inWord c b rest hphrase _ =>
      split at hphrase
      · cases hphrase
      · next hword =>
        have hfalse : inWord = false := by
          cases inWord with
          | false => rfl
          | true => exact absurd rfl hword
        rw [afterPhrase?_eq_none h hsplit (hf hfalse)] at hphrase
        cases hphrase
    | case3 inWord c b _ ih =>
      rw [ih (f ++ [c]) (by rw [hsplit]; simp)]
      intro hc e he
      rw [List.getLast?_concat] at he
      exact Option.some.inj he ▸ hc
  exact hbehind false [] t rfl fun _ _ hc => absurd hc (Option.not_mem_none _)

theorem Fits.ne_nil (hx : Fits (phraseMask p) x) (hp : IsPhrase p) : x ≠ [] := by
  rintro rfl
  obtain ⟨c, hc, -⟩ := hx.head_isLetter hp
  cases hc

theorem WordBegins.apart {f : Text} (hf : WordBegins f) : Apart f x := by
  intro c hc hlower
  rw [not_isLower_of_not_isWordChar (hf c hc)] at hlower
  cases hlower

/-- Replacing a phrase leaves none of it. -/
theorem not_hasPhrase_substitute (he : Entry p r) (hm : (phraseMask p).foreign r = true) :
    ¬HasPhrase p (substitute p r false t) := by
  rintro ⟨f, x, b, hsplit, hf, hx, hb⟩
  obtain ⟨f₀, b₀, -, -, hbehind, hnone⟩ :=
    exists_of_substitute he hm hx (hx.ne_nil he.phrase) hf.apart hsplit
  rw [afterPhrase?_append hx (wordEnds_of_sameEdge hb hbehind.edge)] at hnone
  exact nomatch hnone hf fun _ => rfl

/-! ## The words for an audience -/

/-- What is kept when one phrase is replaced is kept when words are chosen. -/
theorem chooseWords_induction {P : Text → Prop} {a : Audience}
    (step : ∀ e ∈ vocabulary a, ∀ t, P t → P (substitute e.1.toList e.2.toList false t)) (h : P t) :
    P (chooseWords a t) := by
  unfold chooseWords
  generalize vocabulary a = l at step
  induction l generalizing t with
  | nil => exact h
  | cons e l ih =>
    obtain ⟨he, hl⟩ := List.forall_mem_cons.mp step
    exact ih (he t h) hl

instance (p r : Text) : Decidable (Entry p r) :=
  decidable_of_iff (IsPhrase p ∧ IsPhrase r ∧ 3 < r.length)
    ⟨fun h => ⟨h.1, h.2.1, h.2.2⟩, fun h => ⟨h.phrase, h.replacement, h.long⟩⟩

theorem entry_of_mem_vocabulary {a : Audience} :
    ∀ e ∈ vocabulary a, Entry e.1.toList e.2.toList := by
  cases a <;> decide

/-- A shape that no replacement begins in or is entered by. -/
def ForeignTo (a : Audience) (m : Mask) : Prop :=
  ∀ e ∈ vocabulary a, m.foreign e.2.toList = true

instance (a : Audience) (m : Mask) : Decidable (ForeignTo a m) :=
  inferInstanceAs (Decidable (∀ e ∈ _, _))

theorem foreignTo_phraseMask {a : Audience} :
    ∀ e ∈ vocabulary a, ForeignTo a (phraseMask e.1.toList) := by
  cases a <;> decide

/-- **A text of a foreign shape that is found after the words were chosen was there before.** -/
theorem exists_of_chooseWords {a : Audience} {m : Mask} {f b : Text} (hm : ForeignTo a m)
    (hx : Fits m x) (hne : x ≠ []) (hapart : Apart f x) (h : chooseWords a t = f ++ (x ++ b)) :
    ∃ f₀ b₀, t = f₀ ++ (x ++ b₀) ∧ SameEdge f₀.getLast? f.getLast? ∧ Behind b₀ b := by
  refine chooseWords_induction (a := a) (P := fun s => ∀ f b, Apart f x → s = f ++ (x ++ b) →
    ∃ f₀ b₀, t = f₀ ++ (x ++ b₀) ∧ SameEdge f₀.getLast? f.getLast? ∧ Behind b₀ b) ?_
    (fun f b _ hsplit => ⟨f, b, hsplit, .refl _, .refl b⟩) f b hapart h
  intro e he s ih f b hapart hsplit
  obtain ⟨f₁, b₁, hs, hedge, hbehind, -⟩ :=
    exists_of_substitute (entry_of_mem_vocabulary e he) (hm e he) hx hne hapart hsplit
  obtain ⟨f₀, b₀, ht, hedge₀, hbehind₀⟩ := ih f₁ b₁ (hapart.of_sameEdge hedge) hs
  exact ⟨f₀, b₀, ht, hedge₀.trans hedge, hbehind₀.trans hbehind⟩

theorem sameEdge_chooseWords (a : Audience) (t : Text) :
    SameEdge t.getLast? (chooseWords a t).getLast? :=
  chooseWords_induction (P := fun s => SameEdge t.getLast? s.getLast?)
    (fun e he s hs => hs.trans (sameEdge_substitute (entry_of_mem_vocabulary e he) false s))
    (.refl _)

theorem behind_chooseWords (a : Audience) (t : Text) : Behind t (chooseWords a t) :=
  chooseWords_induction (P := Behind t)
    (fun e he s hs => hs.trans (behind_substitute (entry_of_mem_vocabulary e he) false s)) (.refl t)

theorem hasPhrase_of_substitute {q : Text} (he : Entry p r) (hq : IsPhrase q)
    (hm : (phraseMask q).foreign r = true) (h : HasPhrase q (substitute p r false t)) :
    HasPhrase q t := by
  obtain ⟨f, x, b, hsplit, hf, hx, hb⟩ := h
  obtain ⟨f₀, b₀, ht, hedge, hbehind, -⟩ :=
    exists_of_substitute he hm hx (hx.ne_nil hq) hf.apart hsplit
  exact ⟨f₀, x, b₀, ht, hf.of_sameEdge hedge, hx, wordEnds_of_sameEdge hb hbehind.edge⟩

/-- **No phrase is left once the words are chosen.** -/
theorem not_hasPhrase_chooseWords {a : Audience} :
    ∀ e ∈ vocabulary a, ¬HasPhrase e.1.toList (chooseWords a t) := by
  have hentry := entry_of_mem_vocabulary (a := a)
  have hforeign := foreignTo_phraseMask (a := a)
  unfold ForeignTo at hforeign
  unfold chooseWords
  generalize vocabulary a = l at hentry hforeign
  induction l using List.reverseRecOn with
  | nil => exact nofun
  | append_singleton l e ih =>
    have hlast : e ∈ l ++ [e] := by simp
    have hfront : ∀ {e'}, e' ∈ l → e' ∈ l ++ [e] := List.mem_append_left [e]
    rw [List.foldl_append, List.foldl_cons, List.foldl_nil, List.forall_mem_append,
      List.forall_mem_singleton]
    constructor
    · intro e' he' h
      refine ih (fun d hd => hentry d (hfront hd))
        (fun d hd d' hd' => hforeign d (hfront hd) d' (hfront hd')) e' he' ?_
      exact hasPhrase_of_substitute (hentry e hlast) (hentry e' (hfront he')).phrase
        (hforeign e' (hfront he') e hlast) h
    · exact not_hasPhrase_substitute (hentry e hlast) (hforeign e hlast e hlast)

/-- **Where there is no phrase, nothing is replaced.** -/
theorem chooseWords_eq_self {a : Audience} (h : ∀ e ∈ vocabulary a, ¬HasPhrase e.1.toList t) :
    chooseWords a t = t :=
  chooseWords_induction (P := fun s => s = t)
    (fun e he s hs => by rw [hs]; exact substitute_eq_self (h e he)) rfl

/-! ## What the choice of words keeps -/

theorem apart_of_isBlank {f : Text} (h : isBlank c = true) : Apart f (c :: x) := by
  rintro - - - d ⟨⟩
  by_contra hlower
  rw [isBlank_of_isAlpha (isAlpha_of_isLower (by simpa using hlower))] at h
  cases h

/-- The shape of a blank that is no space. -/
def strayBlank : Mask := [fun c => isBlank c && c != ' ']

/-- The shape of a blank in front of a blank or of a sign that closes up. -/
def strayGap : Mask := [isBlank, fun d => isBlank d || closesUp d]

theorem Neat.chooseWords {a : Audience} (h : Neat t) : Neat (chooseWords a t) where
  spaces c hc hblank := by
    by_contra hspace
    obtain ⟨f, b, hsplit⟩ := List.append_of_mem hc
    have hx : Fits strayBlank [c] := .cons (by simp [hblank, hspace]) .nil
    obtain ⟨f₀, b₀, rfl, -, -⟩ := exists_of_chooseWords (a := a) (by cases a <;> decide) hx nofun
      (apart_of_isBlank hblank) hsplit
    exact hspace (h.spaces c (by simp) hblank)
  head c hc := by
    rcases (behind_chooseWords a t).edge with heq | ⟨-, d, hd, hlower⟩
    · exact h.head c (heq ▸ hc)
    · obtain rfl := Option.mem_unique hc hd
      exact isBlank_of_isAlpha (isAlpha_of_isLower hlower)
  last c hc := by
    rcases sameEdge_chooseWords a t with heq | ⟨-, d, hd, hlower⟩
    · exact h.last c (heq ▸ hc)
    · obtain rfl := Option.mem_unique hc hd
      exact isBlank_of_isAlpha (isAlpha_of_isLower hlower)
  apart := by
    rw [List.isChain_iff_forall_rel_of_append_cons_cons]
    intro c d f b hsplit hblank
    by_contra hstray
    have hx : Fits strayGap [c, d] := by
      refine .cons hblank (.cons ?_ .nil)
      rw [Bool.or_eq_true]
      by_contra hneither
      exact hstray (by simpa using hneither)
    obtain ⟨f₀, b₀, rfl, -, -⟩ := exists_of_chooseWords (a := a) (by cases a <;> decide) hx nofun
      (apart_of_isBlank hblank) hsplit
    exact hstray (List.isChain_iff_forall_rel_of_append_cons_cons.mp h.apart rfl hblank)

/-- The shape of a differential, up to its letter. -/
def differentialMask : Mask := [(· == ' '), (· == 'd'), (· == ' ')]

/-- The choice of words makes no differential without a pause. -/
theorem pauseBeforeDifferential_chooseWords {a : Audience} (h : pauseBeforeDifferential t = t) :
    pauseBeforeDifferential (chooseWords a t) = chooseWords a t := by
  refine pauseBeforeDifferential_eq_iff.mpr fun f c y tail hd => ?_
  have hx : Fits differentialMask [' ', 'd', ' '] := .cons rfl (.cons rfl (.cons rfl .nil))
  obtain ⟨f₀, b₀, rfl, hedge, hbehind⟩ := exists_of_chooseWords (a := a) (f := f ++ [c])
    (b := y :: tail) (by cases a <;> decide) hx nofun (apart_of_isBlank isBlank_space)
    (by rw [hd.eq]; simp)
  have hlength : (y :: tail).length ≤ 3 := by
    rcases hd.tail with rfl | ⟨e, -, rfl | rfl⟩ <;> simp
  rw [List.getLast?_concat] at hedge
  obtain ⟨c₀, hc₀⟩ := Option.ne_none_iff_exists'.mp fun hnone => nomatch hedge.none_iff.mp hnone
  obtain ⟨f₁, rfl⟩ := List.getLast?_eq_some_iff.mp hc₀
  have hcomma := pauseBeforeDifferential_eq_iff.mp h f₁ c₀ y tail
    ⟨by rw [hbehind.short hlength]; simp, hd.letter, hd.tail⟩
  rw [hc₀, hcomma] at hedge
  rcases hedge with heq | ⟨⟨d, hd, hletter⟩, -⟩
  · exact (Option.some.inj heq).symm
  · exact absurd (Option.some.inj hd).symm hletter.ne_comma

end Polish

end SpokenMath
