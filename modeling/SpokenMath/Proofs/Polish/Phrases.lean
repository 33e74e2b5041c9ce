import SpokenMath.Proofs.Polish.Vocabulary

/-!
# Phrases that stay away

Once the words are chosen no phrase is left, and the steps of a round do not bring one back. A pause
is no part of a phrase. A repeated word that is taken out may bring two halves of a phrase together,
as in `is greater than than or equal to`, but only if it is a word from the middle of the phrase.
Such words, and the letter of a differential with the end of the sentence, are **touchy**.

**Theorem (`NoTouchyRepeat.chooseWords`).** The choice of words repeats no touchy word.
-/

namespace SpokenMath

namespace Polish

variable {c d : Char} {p q s t v w x : Text} {a : Audience}

/-! ## The case of letters -/

theorem isWordChar_congr (h : c.toLower = d.toLower) : isWordChar c = isWordChar d := by
  rcases eq_or_isAlpha_of_toLower_eq h with rfl | ⟨hc, hd⟩
  · rfl
  · rw [isWordChar_of_isAlpha hc, isWordChar_of_isAlpha hd]

theorem sameLetter_congr {small : Char} (h : c.toLower = d.toLower) :
    sameLetter small c = sameLetter small d := by
  rcases eq_or_isAlpha_of_toLower_eq h with rfl | ⟨hc, hd⟩
  · rfl
  · have hrest : ∀ {e : Char}, e.isAlpha = true → (e == 'ſ') = false ∧ (e == '\u212a') = false := by
      intro e he
      constructor <;> refine beq_eq_false_iff_ne.mpr ?_ <;> rintro rfl <;>
        exact absurd he (by decide)
    simp [sameLetter, h, (hrest hc).1, (hrest hc).2, (hrest hd).1, (hrest hd).2]

theorem wordBegins_lower {f : Text} : WordBegins f.lower ↔ WordBegins f := by
  unfold WordBegins Text.lower
  rw [List.getLast?_map]
  cases f.getLast? with
  | none => simp
  | some c => simp [isWordChar_congr (Char.toLower_toLower_eq_toLower c)]

theorem wordEnds_lower (b : Text) : wordEnds b.lower = wordEnds b := by
  cases b with
  | nil => rfl
  | cons c b => simp [wordEnds, Text.lower, isWordChar_congr (Char.toLower_toLower_eq_toLower c)]

theorem fits_lower : Fits (phraseMask p) x.lower ↔ Fits (phraseMask p) x := by
  unfold Fits phraseMask Text.lower
  rw [List.forall₂_map_left_iff, List.forall₂_map_left_iff, List.forall₂_map_right_iff]
  simp only [sameLetter_congr (Char.toLower_toLower_eq_toLower _)]

/-- Phrases stand in a text whatever the case of its letters. -/
theorem HasPhrase.congr (h : HasPhrase p s) (hst : s.lower = t.lower) : HasPhrase p t := by
  obtain ⟨f, x, b, rfl, hf, hx, hb⟩ := h
  unfold Text.lower at hst
  rw [List.map_append, List.map_append] at hst
  obtain ⟨f', r, rfl, hf', hr⟩ := List.map_eq_append_iff.mp hst.symm
  obtain ⟨x', b', rfl, hx', hb'⟩ := List.map_eq_append_iff.mp hr
  refine ⟨f', x', b', rfl, ?_, ?_, ?_⟩
  · rw [← wordBegins_lower, Text.lower, hf']
    exact wordBegins_lower.mpr hf
  · rw [← fits_lower, Text.lower, hx']
    exact fits_lower.mpr hx
  · rw [← wordEnds_lower, Text.lower, hb']
    exact (wordEnds_lower b).trans hb

/-! ## Pauses -/

theorem Fits.comma (hx : Fits (phraseMask p) x) (hp : IsPhrase p) : ',' ∉ x := by
  intro hmem
  rcases hx.letters hp.1 ',' hmem with hletter | hspace
  · exact hletter.ne_comma rfl
  · exact absurd hspace (by decide)

/-- A pause is no part of a phrase. -/
theorem HasPhrase.of_paused (h : HasPhrase p t) (hp : IsPhrase p) (hs : Paused s t) :
    HasPhrase p s := by
  obtain ⟨f, x, b, rfl, hf, hx, hb⟩ := h
  obtain ⟨c, hc, hletter⟩ := hx.head_isLetter hp
  obtain ⟨f', b', rfl, hf', hb'⟩ := hs.inside (hx.comma hp) ⟨c, hc, hletter.ne_space⟩
  refine ⟨f', x, b', rfl, ?_, hx, ?_⟩
  · rwa [WordBegins, ← hf'.getLast?]
  · rwa [← hb'.wordEnds_eq]

/-! ## Words from the middle of a phrase -/

/-- The words of a phrase but the first and the last one. -/
def middles (p : Text) : List Text := (pieces p).tail.dropLast

theorem Fits.of_append {x₁ x₂ : Text} (h : Fits (phraseMask p) (x₁ ++ x₂)) :
    ∃ p₁ p₂, p = p₁ ++ p₂ ∧ Fits (phraseMask p₁) x₁ ∧ Fits (phraseMask p₂) x₂ := by
  obtain ⟨m₁, m₂, hm, h₁, h₂⟩ := exists_append_of_forall₂ h
  obtain ⟨p₁, p₂, rfl, rfl, rfl⟩ := List.map_eq_append_iff.mp hm
  exact ⟨p₁, p₂, rfl, h₁, h₂⟩

theorem eq_space_of_fits (hp : ∀ c ∈ p, c.isLower = true ∨ c = ' ')
    (h : Fits (phraseMask p) [' ']) : p = [' '] := by
  cases p with
  | nil => cases h
  | cons c p =>
    obtain ⟨hc, hrest⟩ := List.forall₂_cons.mp h
    obtain rfl : p = [] := List.map_eq_nil_iff.mp (List.forall₂_nil_right_iff.mp hrest)
    rcases hp c List.mem_cons_self with hlower | rfl
    · exact absurd rfl (IsLetter.ne_space ⟨c, hlower, hc⟩)
    · rfl

theorem Fits.mem_space (h : Fits (phraseMask p) x) (hp : ' ' ∈ p) : ' ' ∈ x := by
  induction p generalizing x with
  | nil => cases hp
  | cons a p ih =>
    obtain ⟨c, y, hc, hy, rfl⟩ := List.forall₂_cons_left_iff.mp h
    rcases List.mem_cons.mp hp with rfl | hp
    · rw [sameLetter_space hc]
      exact List.mem_cons_self
    · exact List.mem_cons_of_mem c (ih hy hp)

/-- A word between two others in a phrase. -/
theorem exists_mem_middles {y z : Text} (hp : IsPhrase p) (hy : y ≠ []) (hz : z ≠ [])
    (hgap : EndsGap y) (hgap' : BeginsGap z) (hv : ' ' ∉ v)
    (h : Fits (phraseMask p) (y ++ (v ++ z))) : ∃ q ∈ middles p, Fits (phraseMask q) v := by
  obtain ⟨y, c, rfl⟩ := (List.eq_nil_or_concat' y).resolve_left hy
  obtain ⟨d, z, rfl⟩ := List.exists_cons_of_ne_nil hz
  obtain rfl := hgap c List.getLast?_concat
  obtain rfl := hgap' d rfl
  have hsplit : y ++ [' '] ++ (v ++ ' ' :: z) = y ++ ([' '] ++ (v ++ ([' '] ++ z))) := by simp
  rw [hsplit] at h
  obtain ⟨p₁, r₁, rfl, -, h⟩ := h.of_append
  obtain ⟨g₁, r₂, rfl, hg₁, h⟩ := h.of_append
  obtain ⟨q, r₃, rfl, hq, h⟩ := h.of_append
  obtain ⟨g₂, p₂, rfl, hg₂, -⟩ := h.of_append
  obtain rfl := eq_space_of_fits (fun c hc => hp.1 c (by simp [hc])) hg₁
  obtain rfl := eq_space_of_fits (fun c hc => hp.1 c (by simp [hc])) hg₂
  refine ⟨q, ?_, hq⟩
  have hpieces : pieces (p₁ ++ ([' '] ++ (q ++ ([' '] ++ p₂)))) = pieces p₁ ++ q :: pieces p₂ := by
    rw [List.singleton_append, pieces_append, List.singleton_append,
      pieces_append_space fun hmem => hv (hq.mem_space hmem)]
  obtain ⟨u, us, hus⟩ := List.exists_cons_of_ne_nil (pieces_ne_nil p₁)
  rw [middles, hpieces, hus, List.cons_append, List.tail_cons,
    List.dropLast_append_of_ne_nil (List.cons_ne_nil _ _),
    List.dropLast_cons_of_ne_nil (pieces_ne_nil p₂)]
  simp

/-- A repeated word that is taken out makes a phrase only if it is one from the middle of it. -/
theorem HasPhrase.of_repetition {front back : Text} (hp : IsPhrase p)
    (hr : Repetition front v w back) (hv : ∀ q ∈ middles p, ¬Fits (phraseMask q) v)
    (h : HasPhrase p (front ++ (v ++ back))) :
    HasPhrase p (front ++ (v ++ ' ' :: (w ++ back))) := by
  obtain ⟨f, x, b, hsplit, hf, hx, hb⟩ := h
  rcases append_append_eq_cases hsplit with ⟨r, hfront, rfl⟩ | ⟨r, rfl, hback⟩ |
    ⟨y, z, hy, hz, rfl, rfl, rfl⟩
  · refine ⟨f, x, r ++ ' ' :: (w ++ back), ?_, hf, hx, ?_⟩
    · rw [← List.append_assoc, hfront]
      simp
    · cases r with
      | nil => exact (by decide : wordEnds [' '] = true)
      | cons c r => exact hb
  · -- The second of the two words makes as good a phrase as the first one.
    have hword : HasPhrase p (v ++ back) := by
      refine ⟨r, x, b, hback, fun c hc => hf c ?_, hx, hb⟩
      obtain ⟨r', rfl⟩ := List.getLast?_eq_some_iff.mp hc
      rw [← List.append_assoc]
      exact List.getLast?_concat
    have hlower : Text.lower (v ++ back) = Text.lower (w ++ back) := by
      simp only [Text.lower, List.map_append, hr.repeats.map_toLower]
    obtain ⟨f', x', b', hsecond, hf', hx', hb'⟩ := hword.congr hlower
    refine ⟨front ++ v ++ ' ' :: f', x', b', by rw [hsecond]; simp, ?_, hx', hb'⟩
    cases f' with
    | nil =>
      intro c hc
      rw [List.getLast?_concat] at hc
      obtain rfl := Option.some.inj hc
      decide
    | cons e f' =>
      intro c hc
      rw [List.getLast?_append_of_ne_nil _ (List.cons_ne_nil _ _), List.getLast?_cons_cons] at hc
      exact hf' c hc
  · have hgap : EndsGap y := fun c hc => hr.endsGap c (by
      rw [List.getLast?_append_of_ne_nil _ hy]
      exact hc)
    have hgap' : BeginsGap z := fun c hc => hr.beginsGap c (by
      rw [List.head?_append_of_ne_nil _ hz]
      exact hc)
    obtain ⟨q, hq, hfits⟩ := exists_mem_middles hp hy hz hgap hgap' hr.first hx
    exact absurd hfits (hv q hq)

/-! ## Touchy words -/

/-- A word that makes a difference when the word behind it, which repeats it, is taken out. -/
inductive Touchy (a : Audience) : Text → Prop
  | middle {e : String × String} {q v : Text} (he : e ∈ vocabulary a) (hq : q ∈ middles e.1.toList)
      (hv : Fits (phraseMask q) v) : Touchy a v
  | letter {y e : Char} (hy : y.isAlpha = true) (he : endsSentence e = true) : Touchy a [y, e]

/-- No touchy word is repeated. -/
def NoTouchyRepeat (a : Audience) (t : Text) : Prop :=
  (pieces t).IsChain fun v w => Repeats v w → ¬Touchy a v

theorem noTouchyRepeat_iff : NoTouchyRepeat a t ↔ ∀ front v w back,
    Repetition front v w back → t = front ++ (v ++ ' ' :: (w ++ back)) → ¬Touchy a v := by
  constructor
  · rintro h front v w back hr rfl
    obtain ⟨xs, ys, hpieces, -⟩ := hr.exists_pieces
    exact List.isChain_iff_forall_rel_of_append_cons_cons.mp h hpieces hr.repeats
  · intro h
    refine List.isChain_iff_forall_rel_of_append_cons_cons.mpr fun v w xs ys hpieces hrepeats => ?_
    have hmem : ∀ u ∈ [v, w], ' ' ∉ u := fun u hu =>
      not_mem_of_mem_pieces (t := t) (by rw [hpieces]; simp at hu ⊢; tauto)
    refine h _ v w _ ⟨hrepeats, endsGap_flatMap xs, hmem v (by simp), hmem w (by simp),
      beginsGap_flatMap ys⟩ ?_
    rw [← join_pieces t, hpieces, join_append_cons, List.flatMap_cons, List.cons_append]

theorem NoTouchyRepeat.repetition {front back : Text} (hr : Repetition front v w back)
    (h : NoTouchyRepeat a (front ++ (v ++ ' ' :: (w ++ back)))) :
    NoTouchyRepeat a (front ++ (v ++ back)) := by
  obtain ⟨xs, ys, hold, hnew⟩ := hr.exists_pieces
  unfold NoTouchyRepeat at h ⊢
  rw [hold] at h
  rw [hnew]
  obtain ⟨hfront, hbehind, hjoint⟩ := List.isChain_append.mp h
  refine List.isChain_append.mpr ⟨hfront, ?_, hjoint⟩
  have hv := (List.isChain_cons_cons.mp hbehind).1 hr.repeats
  exact hbehind.tail.tail.cons fun _ _ _ => hv

theorem Touchy.comma (h : Touchy a v) : ',' ∉ v := by
  cases h with
  | @middle e q _ he hq hv =>
    intro hmem
    have hletters : ∀ c ∈ q, c.isLower = true ∨ c = ' ' := by
      intro c hc
      refine (entry_of_mem_vocabulary e he).phrase.1 c ?_
      have hpiece := List.mem_of_mem_tail (List.dropLast_subset _ hq)
      exact mem_of_mem_pieces hc hpiece
    rcases hv.letters hletters ',' hmem with hletter | hspace
    · exact hletter.ne_comma rfl
    · exact absurd hspace (by decide)
  | @letter y e hy he =>
    simp only [List.mem_cons, List.not_mem_nil, or_false]
    rintro (rfl | rfl)
    · exact absurd hy (by decide)
    · exact absurd he (by decide)

theorem NoTouchyRepeat.paused (h : NoTouchyRepeat a s) (hs : Paused s t) :
    NoTouchyRepeat a t := by
  refine isChain_of_forall₂ hs.forall₂_pieces ?_ h
  intro v _ w _ hv hw hkeep hrepeats htouchy
  rcases hv with rfl | rfl
  · rcases hw with rfl | rfl
    · exact hkeep hrepeats htouchy
    · obtain ⟨u, rfl⟩ := hrepeats.exists_comma
      exact htouchy.comma (by simp)
  · exact htouchy.comma (by simp)

/-- The shape of two equal words that letter and end a sentence. -/
def letterTwice : Mask := [Char.isAlpha, endsSentence, (· == ' '), Char.isAlpha, endsSentence]

/-- The shape of a word of a phrase that is said twice. -/
def wordTwice (q : Text) : Mask := phraseMask q ++ (· == ' ') :: phraseMask q

theorem foreignTo_wordTwice :
    ∀ e ∈ vocabulary a, ∀ q ∈ middles e.1.toList, ForeignTo a (wordTwice q) := by
  cases a <;> decide

theorem Touchy.exists_mask (h : Touchy a v) (hw : Repeats v w) :
    ∃ m, ForeignTo a m ∧ Fits m (v ++ ' ' :: w) := by
  cases h with
  | @middle e q _ he hq hv =>
    refine ⟨wordTwice q, foreignTo_wordTwice e he q hq, hv.append (.cons rfl ?_)⟩
    have hlower : Text.lower w = Text.lower v := hw.map_toLower.symm
    exact fits_lower.mp (hlower ▸ fits_lower.mpr hv)
  | @letter y e hy he =>
    refine ⟨letterTwice, by cases a <;> decide, ?_⟩
    obtain ⟨y', u, hy', hu, rfl⟩ := List.forall₂_cons_left_iff.mp hw.forall₂
    obtain ⟨e', u', he', hu', rfl⟩ := List.forall₂_cons_left_iff.mp hu
    obtain rfl : u' = [] := List.forall₂_nil_left_iff.mp hu'
    obtain rfl : e = e' := he'.resolve_right fun halpha => by
      rw [endsSentence_of_isAlpha halpha.1] at he
      cases he
    have hletter : y'.isAlpha = true := hy'.elim (fun heq => heq ▸ hy) And.right
    exact .cons hy (.cons he (.cons rfl (.cons hletter (.cons he .nil))))

/-- **The choice of words repeats no touchy word.** -/
theorem NoTouchyRepeat.chooseWords (h : NoTouchyRepeat a t) :
    NoTouchyRepeat a (chooseWords a t) := by
  refine noTouchyRepeat_iff.mpr fun front v w back hr hsplit htouchy => ?_
  obtain ⟨m, hm, hx⟩ := htouchy.exists_mask hr.repeats
  have hapart : Apart front (v ++ ' ' :: w) := by
    intro c hc hlower
    rw [hr.endsGap c hc] at hlower
    exact absurd hlower (by decide)
  obtain ⟨front₀, back₀, rfl, hedge, hbehind⟩ := exists_of_chooseWords hm hx (by simp) hapart
    (b := back) (by rw [hsplit]; simp)
  refine noTouchyRepeat_iff.mp h front₀ v w back₀ ?_ (by simp) htouchy
  exact ⟨hr.repeats, hr.endsGap.of_sameEdge hedge, hr.first, hr.second,
    hr.beginsGap.of_sameEdge hbehind.edge⟩

/-! ## Words in another case -/

theorem pieces_lower (t : Text) : pieces t.lower = (pieces t).map Text.lower := by
  induction t with
  | nil => rfl
  | cons c t ih =>
    by_cases hc : c = ' '
    · rw [hc, pieces_space, List.map_cons, ← ih]
      rfl
    · have hlower : c.toLower ≠ ' ' := fun heq => hc (sameLetter_space (by simp [sameLetter, heq]))
      obtain ⟨w, ws, hws, hcons⟩ := pieces_cons hc t
      obtain ⟨w', ws', hws', hcons'⟩ := pieces_cons hlower (Text.lower t)
      rw [ih, hws, List.map_cons] at hws'
      obtain ⟨rfl, rfl⟩ := List.cons.inj hws'
      rw [hcons, List.map_cons]
      exact hcons'

theorem lower_lower (t : Text) : t.lower.lower = t.lower := by
  unfold Text.lower
  rw [List.map_map]
  exact List.map_congr_left fun c _ => Char.toLower_toLower_eq_toLower c

theorem mayRepeat_lower (w : Text) : mayRepeat w.lower = mayRepeat w := by
  have hsize : w.lower.size = w.size := by
    induction w with
    | nil => rfl
    | cons c w ih =>
      show c.toLower.utf8Size + Text.size (Text.lower w) = c.utf8Size + Text.size w
      rw [ih]
      rcases eq_or_isAlpha_of_toLower_eq (Char.toLower_toLower_eq_toLower c) with heq | ⟨hc, hd⟩
      · rw [heq]
      · rw [utf8Size_of_isAlpha hc, utf8Size_of_isAlpha hd]
  have hdigits : w.lower.all Char.isDigit = w.all Char.isDigit := by
    unfold Text.lower
    rw [List.all_map]
    refine List.all_congr rfl fun c => ?_
    rcases eq_or_isAlpha_of_toLower_eq (Char.toLower_toLower_eq_toLower c) with heq | ⟨hc, hd⟩
    · rw [Function.comp_apply, heq]
    · rw [Function.comp_apply, isDigit_of_isAlpha hc, isDigit_of_isAlpha hd]
  rw [mayRepeat, mayRepeat, hsize, hdigits, lower_lower]

theorem Repeats.congr {v' w' : Text} (h : Repeats v w) (hv : Text.lower v = Text.lower v')
    (hw : Text.lower w = Text.lower w') : Repeats v' w' := by
  refine ⟨?_, ?_⟩
  · rw [Text.sameIgnoringCase, ← hv, ← hw]
    exact h.1
  · rw [← mayRepeat_lower, ← hw, mayRepeat_lower]
    exact h.2

theorem Touchy.congr (h : Touchy a v) (hw : Text.lower v = Text.lower w) : Touchy a w := by
  cases h with
  | middle he hq hv => exact .middle he hq (fits_lower.mp (hw ▸ fits_lower.mpr hv))
  | @letter y e hy he =>
    obtain ⟨y', u, rfl, hy', hu⟩ := List.map_eq_cons_iff.mp hw.symm
    obtain ⟨e', rfl, he'⟩ := List.map_eq_singleton_iff.mp hu
    refine .letter ?_ ?_
    · rcases eq_or_isAlpha_of_toLower_eq hy' with rfl | halpha
      · exact hy
      · exact halpha.1
    · rcases eq_or_isAlpha_of_toLower_eq he' with rfl | halpha
      · exact he
      · rw [endsSentence_of_isAlpha halpha.2] at he
        cases he

/-- What neighbours have in common whatever the case of their letters. -/
theorem isChain_pieces_congr {R : Text → Text → Prop}
    (hR : ∀ {v v' w w' : Text}, Text.lower v = Text.lower v' → Text.lower w = Text.lower w' →
      R v w → R v' w')
    (h : (pieces s).IsChain R) (hst : Text.lower s = Text.lower t) : (pieces t).IsChain R := by
  have hpieces : (pieces s).map Text.lower = (pieces t).map Text.lower := by
    rw [← pieces_lower, hst, pieces_lower]
  have hrelated : List.Forall₂ (fun v w => Text.lower v = Text.lower w) (pieces s) (pieces t) := by
    rwa [← List.forall₂_eq_eq_eq, List.forall₂_map_left_iff, List.forall₂_map_right_iff] at hpieces
  exact isChain_of_forall₂ hrelated hR h

/-- Words are repeated whatever the case of their letters. -/
theorem NoTouchyRepeat.congr (h : NoTouchyRepeat a s) (hst : Text.lower s = Text.lower t) :
    NoTouchyRepeat a t :=
  isChain_pieces_congr (fun hv hw hkeep hrepeats htouchy =>
    hkeep (hrepeats.congr hv.symm hw.symm) (htouchy.congr hv.symm)) h hst

end Polish

end SpokenMath
