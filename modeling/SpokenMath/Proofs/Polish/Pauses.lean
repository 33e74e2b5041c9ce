import SpokenMath.Proofs.Lists
import SpokenMath.Proofs.Polish.Repetition

/-!
# Pauses

A pause is a comma in front of a space. A text with pauses (`Paused`) is the old text wherever it
has no comma, so what is found there was there before (`Paused.inside`).

**Theorem (`pauseBeforeDifferential_twice`).** A pause in front of the differential is made once.

**Theorem (`Repetition.pauseBeforeDifferential_eq`, `Paused.pauseBeforeDifferential_eq`).** Where
every differential has its pause, none comes without one when a repeated word is taken out or a
pause is made elsewhere.
-/

namespace SpokenMath

namespace Polish

variable {c : Char} {s t u : Text}

/-! ## Texts with pauses -/

/-- A text with commas in front of some of its spaces. -/
inductive Paused : Text → Text → Prop
  | nil : Paused [] []
  | keep {s t : Text} (c : Char) (h : Paused s t) : Paused (c :: s) (c :: t)
  | pause {s t : Text} (h : Paused s t) : Paused (' ' :: s) (',' :: ' ' :: t)

namespace Paused

theorem refl (t : Text) : Paused t t := by
  induction t with
  | nil => exact .nil
  | cons c t ih => exact .keep c ih

theorem append_left (h : Paused s t) (u : Text) : Paused (u ++ s) (u ++ t) := by
  induction u with
  | nil => exact h
  | cons c u ih => exact .keep c ih

theorem head? (h : Paused s t) :
    t.head? = s.head? ∨ t.head? = some ',' ∧ s.head? = some ' ' := by
  cases h with
  | nil => exact .inl rfl
  | keep c _ => exact .inl rfl
  | pause _ => exact .inr ⟨rfl, rfl⟩

theorem getLast? (h : Paused s t) : t.getLast? = s.getLast? := by
  have hcons : ∀ {s t : Text} (c : Char), t.getLast? = s.getLast? →
      (c :: t).getLast? = (c :: s).getLast? := by
    intro s t c h
    rw [List.getLast?_cons, List.getLast?_cons, h]
  induction h with
  | nil => rfl
  | keep c _ ih => exact hcons c ih
  | pause _ ih =>
    rw [List.getLast?_cons_cons]
    exact hcons ' ' ih

/-- What has no comma was there before. -/
theorem front {x : Text} (hx : ',' ∉ x) (h : Paused s (x ++ t)) :
    ∃ s', s = x ++ s' ∧ Paused s' t := by
  induction x generalizing s with
  | nil => exact ⟨s, rfl, h⟩
  | cons c x ih =>
    obtain ⟨hc, hx⟩ := List.ne_and_not_mem_of_not_mem_cons hx
    rw [List.cons_append] at h
    generalize hr : x ++ t = r at h
    cases h with
    | keep _ h =>
      obtain ⟨s', rfl, hs'⟩ := ih hx (hr ▸ h)
      exact ⟨s', rfl, hs'⟩
    | pause _ => exact absurd rfl hc

/-- What has no comma, and does not begin with a space that may have a pause, was there before. -/
theorem inside {f x b : Text} (hx : ',' ∉ x) (hhead : ∃ c ∈ x.head?, c ≠ ' ')
    (h : Paused s (f ++ (x ++ b))) :
    ∃ f' b', s = f' ++ (x ++ b') ∧ Paused f' f ∧ Paused b' b := by
  obtain ⟨c, hc, hspace⟩ := hhead
  generalize ht : f ++ (x ++ b) = t at h
  induction h generalizing f with
  | nil =>
    have hnil : x = [] := by simp_all
    rw [hnil] at hc
    cases hc
  | @keep s t d h ih =>
    cases f with
    | nil =>
      obtain ⟨b', hb', hb⟩ := front hx (ht ▸ Paused.keep d h)
      exact ⟨[], b', hb', .nil, hb⟩
    | cons e f =>
      obtain ⟨hed, hrest⟩ := List.cons.inj ht
      obtain ⟨f', b', rfl, hf, hb⟩ := ih hrest
      exact ⟨d :: f', b', rfl, hed ▸ .keep d hf, hb⟩
  | @pause s t h ih =>
    match f with
    | [] =>
      obtain ⟨b', hb', hb⟩ := front hx (ht ▸ Paused.pause h)
      exact ⟨[], b', hb', .nil, hb⟩
    | [e] =>
      obtain ⟨r, rfl⟩ := List.head?_eq_some_iff.mp hc
      exact absurd (List.cons.inj (List.cons.inj ht).2).1 hspace
    | e :: e' :: f =>
      obtain ⟨hcomma, hrest⟩ := List.cons.inj ht
      obtain ⟨hblank, hrest⟩ := List.cons.inj hrest
      obtain ⟨f', b', rfl, hf, hb⟩ := ih hrest
      exact ⟨' ' :: f', b', rfl, hcomma ▸ hblank ▸ .pause hf, hb⟩

/-- A pause does not change where a word ends. -/
theorem wordEnds_eq (h : Paused s t) : wordEnds t = wordEnds s := by
  rcases h.head? with hsame | ⟨hcomma, hspace⟩
  · rw [wordEnds, wordEnds, hsame]
  · rw [wordEnds, wordEnds, hcomma, hspace]
    decide

/-- The pieces of the text get a comma at their ends. -/
theorem forall₂_pieces (h : Paused s t) :
    List.Forall₂ (fun v w => w = v ∨ w = v ++ [',']) (pieces s) (pieces t) := by
  induction h with
  | nil => exact .cons (.inl rfl) .nil
  | @keep s t c h ih =>
    by_cases hc : c = ' '
    · rw [hc, pieces_space, pieces_space]
      exact .cons (.inl rfl) ih
    · obtain ⟨v, vs, hvs, hcons⟩ := pieces_cons hc s
      obtain ⟨w, ws, hws, hcons'⟩ := pieces_cons hc t
      rw [hvs, hws] at ih
      rw [hcons, hcons']
      obtain ⟨hw, hrest⟩ := List.forall₂_cons.mp ih
      exact .cons (hw.imp (congrArg (c :: ·)) (congrArg (c :: ·))) hrest
  | @pause s t h ih =>
    obtain ⟨w, ws, hws, hcons⟩ := pieces_cons (show ',' ≠ ' ' by decide) (' ' :: t)
    rw [pieces_space] at hws
    obtain ⟨rfl, rfl⟩ := List.cons.inj hws
    rw [hcons, pieces_space]
    exact .cons (.inr rfl) ih

theorem neat (h : Paused s t) (hs : Neat s) : Neat t where
  spaces d hd := by
    have hmem : d ∈ s ∨ d = ',' := by
      clear hs
      induction h with
      | nil => exact .inl hd
      | keep c _ ih =>
        rcases List.mem_cons.mp hd with rfl | hd
        · exact .inl List.mem_cons_self
        · exact (ih hd).imp_left (List.mem_cons_of_mem c)
      | pause _ ih =>
        rcases List.mem_cons.mp hd with rfl | hd
        · exact .inr rfl
        · rcases List.mem_cons.mp hd with rfl | hd
          · exact .inl List.mem_cons_self
          · exact (ih hd).imp_left (List.mem_cons_of_mem ' ')
    rcases hmem with hmem | rfl
    · exact hs.spaces d hmem
    · decide
  head d hd := by
    rcases h.head? with hsame | ⟨hcomma, -⟩
    · exact hs.head d (hsame ▸ hd)
    · rw [hcomma] at hd
      obtain rfl := Option.some.inj hd
      decide
  last d hd := hs.last d (h.getLast? ▸ hd)
  apart := by
    have hapart := hs.apart
    clear hs
    induction h with
    | nil => exact .nil
    | @keep s t c h ih =>
      refine (ih hapart.tail).cons fun d hd hblank => ?_
      have hbehind := (List.isChain_cons.mp hapart).1
      rcases h.head? with hsame | ⟨-, hspace⟩
      · exact hbehind d (hsame ▸ hd) hblank
      · have hcontra := (hbehind ' ' hspace hblank).1
        rw [isBlank_space] at hcontra
        cases hcontra
    | @pause s t h ih =>
      have hbehind := (List.isChain_cons.mp hapart).1
      refine .cons_cons (fun hblank => absurd hblank (by decide)) ((ih hapart.tail).cons ?_)
      intro d hd hblank
      rcases h.head? with hsame | ⟨-, hspace⟩
      · exact hbehind d (hsame ▸ hd) hblank
      · have hcontra := (hbehind ' ' hspace hblank).1
        rw [isBlank_space] at hcontra
        cases hcontra

end Paused

/-! ## The pause in front of a differential -/

/-- What may stand behind a differential at the end of a text. -/
def EndsAfter (tail : Text) : Prop :=
  tail = [] ∨ ∃ e, endsSentence e = true ∧ (tail = [e] ∨ tail = [' ', e])

/-- A differential at the end of a text, behind the character `c`. -/
structure Differential (t f : Text) (c y : Char) (tail : Text) : Prop where
  eq : t = f ++ c :: ' ' :: 'd' :: ' ' :: y :: tail
  letter : y.isAlpha = true
  tail : EndsAfter tail

theorem endsSentence_of_isAlpha (h : c.isAlpha = true) : endsSentence c = false := by
  by_contra hend
  simp only [endsSentence, Bool.not_eq_false, Bool.or_eq_true, beq_iff_eq] at hend
  rcases hend with (rfl | rfl) | rfl <;> exact absurd h (by decide)

theorem closesUp_of_isAlpha (h : c.isAlpha = true) : closesUp c = false := by
  by_contra hcloses
  simp only [closesUp, Bool.not_eq_false, Bool.or_eq_true, beq_iff_eq] at hcloses
  rcases hcloses with ((rfl | rfl) | rfl) | rfl <;> exact absurd h (by decide)

theorem utf8Size_of_endsSentence (h : endsSentence c = true) : c.utf8Size = 1 := by
  simp only [endsSentence, Bool.or_eq_true, beq_iff_eq] at h
  rcases h with (rfl | rfl) | rfl <;> rfl

theorem ne_space_of_isAlpha (h : c.isAlpha = true) : c ≠ ' ' := by
  rintro rfl
  exact absurd h (by decide)

theorem sentenceEnd_tail {y : Char} {tail : Text} (hy : y.isAlpha = true) (h : EndsAfter tail)
    (r : Text) :
    sentenceEnd (tail.reverse ++ y :: ' ' :: r) = (tail.reverse, y :: ' ' :: r) := by
  have hend := endsSentence_of_isAlpha hy
  rcases h with rfl | ⟨e, he, rfl | rfl⟩
  · simp [sentenceEnd, hend]
  · have hspace := ne_space_of_isAlpha hy
    simp only [List.reverse_singleton, List.singleton_append]
    unfold sentenceEnd
    split
    · next heq => exact absurd (List.cons.inj (List.cons.inj heq).2).1 hspace
    · next heq =>
      obtain ⟨rfl, rfl⟩ := List.cons.inj heq
      rw [if_pos he]
    · next heq => cases heq
  · simp [sentenceEnd, he]

theorem endsAfter_sentenceEnd (t : Text) : EndsAfter (sentenceEnd t).1.reverse := by
  unfold sentenceEnd
  split
  · split
    · next h => exact .inr ⟨_, h, .inr rfl⟩
    · exact .inl rfl
  · split
    · next h => exact .inr ⟨_, h, .inl rfl⟩
    · exact .inl rfl
  · exact .inl rfl

/-- A differential gets a pause unless there is one. -/
theorem Differential.pause_eq {f tail : Text} {y : Char} (h : Differential t f c y tail) :
    pauseBeforeDifferential t =
      if c = ',' then t else f ++ c :: ',' :: ' ' :: 'd' :: ' ' :: y :: tail := by
  have hreverse : t.reverse =
      tail.reverse ++ y :: ' ' :: 'd' :: ' ' :: c :: f.reverse := by
    rw [h.eq]
    simp
  rw [pauseBeforeDifferential, hreverse, sentenceEnd_tail h.letter h.tail]
  by_cases hc : c = ','
  · simp [hc]
  · simp [hc, h.letter]

theorem pauseBeforeDifferential_cases (t : Text) : pauseBeforeDifferential t = t ∨
    ∃ f c y tail, Differential t f c y tail ∧ c ≠ ',' := by
  unfold pauseBeforeDifferential
  split
  · next ending x c rest heq =>
    split
    · next hpause =>
      simp only [Bool.and_eq_true, bne_iff_ne] at hpause
      have hsplit := append_sentenceEnd t.reverse
      have htail := endsAfter_sentenceEnd t.reverse
      rw [heq] at hsplit htail
      refine .inr ⟨rest.reverse, c, x, ending.reverse, ⟨?_, hpause.1, htail⟩, hpause.2⟩
      rw [← List.reverse_reverse t, ← hsplit]
      simp
    · exact .inl rfl
  · exact .inl rfl

/-- There is no differential without a pause. -/
theorem pauseBeforeDifferential_eq_iff : pauseBeforeDifferential t = t ↔
    ∀ f c y tail, Differential t f c y tail → c = ',' := by
  constructor
  · intro h f c y tail hd
    by_contra hc
    have heq := hd.pause_eq
    rw [if_neg hc, h, hd.eq] at heq
    exact absurd (congrArg List.length heq) (by simp)
  · intro h
    rcases pauseBeforeDifferential_cases t with heq | ⟨f, c, y, tail, hd, hc⟩
    · exact heq
    · exact absurd (h f c y tail hd) hc

theorem pauseBeforeDifferential_twice (t : Text) :
    pauseBeforeDifferential (pauseBeforeDifferential t) = pauseBeforeDifferential t := by
  rcases pauseBeforeDifferential_cases t with heq | ⟨f, c, y, tail, hd, hc⟩
  · rw [heq, heq]
  · have heq := hd.pause_eq
    rw [if_neg hc] at heq
    have hagain : Differential (pauseBeforeDifferential t) (f ++ [c]) ',' y tail :=
      ⟨by rw [heq]; simp, hd.letter, hd.tail⟩
    rw [hagain.pause_eq, if_pos rfl]

theorem paused_pauseBeforeDifferential (t : Text) : Paused t (pauseBeforeDifferential t) := by
  rcases pauseBeforeDifferential_cases t with heq | ⟨f, c, y, tail, hd, hc⟩
  · rw [heq]
    exact .refl t
  · rw [hd.pause_eq, if_neg hc, hd.eq]
    exact (Paused.keep c (.pause (.refl _))).append_left f

/-- In a neat text, a differential stands behind a word. -/
theorem Differential.ne_space {f tail : Text} {y : Char} (h : Differential t f c y tail)
    (ht : Neat t) : c ≠ ' ' := by
  rintro rfl
  have hapart := ht.apart
  rw [h.eq] at hapart
  have hpair := (List.isChain_append.mp hapart).2.1
  exact absurd ((List.isChain_cons_cons.mp hpair).1 isBlank_space).1 (by decide)

/-- A pause elsewhere makes no differential without one. -/
theorem Paused.pauseBeforeDifferential_eq (h : Paused s t) (ht : Neat t)
    (hs : pauseBeforeDifferential s = s) : pauseBeforeDifferential t = t := by
  refine pauseBeforeDifferential_eq_iff.mpr fun f c y tail hd => ?_
  by_contra hc
  have hcomma : ',' ∉ c :: ' ' :: 'd' :: ' ' :: y :: tail := by
    have hy : ',' ≠ y := by
      rintro rfl
      exact absurd hd.letter (by decide)
    have htail : ',' ∉ tail := by
      rcases hd.tail with rfl | ⟨e, he, rfl | rfl⟩
      · exact List.not_mem_nil
      · rw [List.mem_singleton]
        rintro rfl
        exact absurd he (by decide)
      · simp only [List.mem_cons, List.not_mem_nil, or_false]
        rintro (h | rfl)
        · exact absurd h (by decide)
        · exact absurd he (by decide)
    simp [Ne.symm hc, hy, htail]
  have heq : t = f ++ ((c :: ' ' :: 'd' :: ' ' :: y :: tail) ++ []) := by
    rw [List.append_nil, hd.eq]
  obtain ⟨f', b', rfl, -, hb⟩ := (heq ▸ h).inside hcomma ⟨c, rfl, hd.ne_space ht⟩
  cases hb
  refine hc (pauseBeforeDifferential_eq_iff.mp hs f' c y tail ⟨?_, hd.letter, hd.tail⟩)
  rw [List.append_nil]

theorem pieces_append_differential {xs : List Text} {w : Text} (h : pieces s = xs ++ [w])
    (t : Text) : pieces (s ++ ' ' :: 'd' :: ' ' :: t) = xs ++ w :: ['d'] :: pieces t := by
  have hbehind : pieces ('d' :: ' ' :: t) = ['d'] :: pieces t :=
    pieces_append_space (w := ['d']) (by decide) t
  rw [pieces_append, h, hbehind, List.append_assoc]
  rfl

/-- The last words of a text with a differential. -/
theorem Differential.exists_pieces {f tail : Text} {y : Char} (h : Differential t f c y tail)
    (hc : c ≠ ' ') : ∃ xs w, pieces t = xs ++ (w ++ [c]) :: ['d'] :: pieces (y :: tail) := by
  obtain ⟨xs, w, hw⟩ := pieces_concat hc f
  refine ⟨xs, w, ?_⟩
  rw [← pieces_append_differential hw, h.eq]
  simp

theorem differential_of_pieces {xs : List Text} {w tail : Text} {y : Char}
    (h : pieces t = xs ++ (w ++ [c]) :: ['d'] :: pieces (y :: tail)) (hy : y.isAlpha = true)
    (htail : EndsAfter tail) :
    Differential t (xs.flatMap (· ++ [' ']) ++ w) c y tail := by
  refine ⟨?_, hy, htail⟩
  rw [← join_pieces t, h, join_append_cons, List.flatMap_cons,
    flatMap_cons_space (pieces_ne_nil _), join_pieces]
  simp

/-- The words behind a differential. -/
theorem pieces_tail {y : Char} {tail : Text} (hy : y.isAlpha = true) (h : EndsAfter tail) :
    pieces (y :: tail) = [[y]] ∨ ∃ e, endsSentence e = true ∧
      (pieces (y :: tail) = [[y, e]] ∨ pieces (y :: tail) = [[y], [e]]) := by
  have hspace := (ne_space_of_isAlpha hy).symm
  rcases h with rfl | ⟨e, he, htail⟩
  · exact .inl (pieces_of_not_mem (by simpa using hspace))
  · have hend : ' ' ≠ e := by
      rintro rfl
      exact absurd he (by decide)
    refine .inr ⟨e, he, ?_⟩
    rcases htail with rfl | rfl
    · exact .inl (pieces_of_not_mem (by simp [hspace, hend]))
    · have hsplit := pieces_append_space (w := [y]) (by simpa using hspace) [e]
      rw [pieces_of_not_mem (w := [e]) (by simpa using hend)] at hsplit
      exact .inr hsplit

/-- Without a repeated word there is no differential without a pause either, unless that word is the
differential itself. -/
theorem Repetition.pauseBeforeDifferential_eq {front v w back : Text}
    (hr : Repetition front v w back) (hneat : Neat (front ++ (v ++ ' ' :: (w ++ back))))
    (hv : ∀ y e, v = [y, e] → y.isAlpha = true → endsSentence e = false)
    (h : pauseBeforeDifferential (front ++ (v ++ ' ' :: (w ++ back))) =
      front ++ (v ++ ' ' :: (w ++ back))) :
    pauseBeforeDifferential (front ++ (v ++ back)) = front ++ (v ++ back) := by
  refine pauseBeforeDifferential_eq_iff.mpr fun f c y tail hd => ?_
  have hfree := pauseBeforeDifferential_eq_iff.mp h
  obtain ⟨xs, ys, hold, hnew⟩ := hr.exists_pieces
  obtain ⟨zs, u, hpieces⟩ := hd.exists_pieces (hd.ne_space (hr.neat hneat))
  have hsuffix : (u ++ [c]) :: ['d'] :: pieces (y :: tail) <:+ xs ++ v :: ys :=
    ⟨zs, by rw [← hpieces, hnew]⟩
  have hsingle : ∀ {d : Char}, d.utf8Size = 1 → v ≠ [d] := by
    rintro d hsize rfl
    exact hr.repeats.size_ne_one (by simpa using hsize)
  have hbehind : v ∉ ['d'] :: pieces (y :: tail) := by
    have hletter := hsingle (utf8Size_of_isAlpha hd.letter)
    rw [List.mem_cons, not_or]
    refine ⟨hsingle rfl, ?_⟩
    rcases pieces_tail hd.letter hd.tail with htail | ⟨e, he, htail | htail⟩ <;> rw [htail]
    · simpa using hletter
    · rw [List.mem_singleton]
      intro hend
      rw [hv y e hend hd.letter] at he
      cases he
    · simpa using ⟨hletter, hsingle (utf8Size_of_endsSentence he)⟩
  rcases suffix_append_cons hsuffix with ⟨r, rfl⟩ | ⟨r, hends⟩
  · have hpieces : pieces (front ++ (v ++ ' ' :: (w ++ back))) =
        (xs ++ v :: w :: r) ++ (u ++ [c]) :: ['d'] :: pieces (y :: tail) := by
      rw [hold]
      simp
    exact hfree _ c y tail (differential_of_pieces hpieces hd.letter hd.tail)
  · cases r with
    | nil =>
      -- The word in front of the differential is the one that was repeated.
      obtain ⟨rfl, rfl⟩ := List.cons.inj hends
      obtain ⟨w', c', rfl, hc'⟩ := Repeats.exists_concat hr.repeats.map_toLower
      have hpieces : pieces (front ++ ((u ++ [c]) ++ ' ' :: ((w' ++ [c']) ++ back))) =
          (xs ++ [u ++ [c]]) ++ (w' ++ [c']) :: ['d'] :: pieces (y :: tail) := by
        rw [hold]
        simp
      have hcomma := hfree _ c' y tail (differential_of_pieces hpieces hd.letter hd.tail)
      rcases hc' with rfl | ⟨-, halpha⟩
      · exact hcomma
      · rw [hcomma] at halpha
        exact absurd halpha (by decide)
    | cons x r =>
      rw [(List.cons.inj hends).2] at hbehind
      exact absurd (by simp) hbehind

end Polish

end SpokenMath
