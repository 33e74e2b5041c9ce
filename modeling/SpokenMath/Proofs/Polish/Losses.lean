import SpokenMath.Proofs.Polish.Items
import SpokenMath.Proofs.Polish.Rounds

/-!
# Items that are lost

Numbers and variables may be repeated. But words are compared together with their signs, and `1,` is
no number then: of a list such as `1, 1, 2` one entry is lost. Pauses can bring this about in one
place only. A pause in front of a power stands behind a word of the quantity, which has no comma
before that word, and the next word is no item (`PausedWords`). The pause in front of a differential
makes the two entries of `x, x d y` the same.

**Theorem (`items_polish`).** Polishing adds no items, and it keeps them all exactly if no item is
repeated together with its signs, and none at the end in front of a differential is repeated but for
its pause.
-/

namespace SpokenMath

namespace Polish

variable {c y : Char} {s t v w x : Text} {us ws : List Text} {a : Audience}

/-! ## Pauses in front of powers -/

/-- Words of which some get a pause, behind the word `v`: a word gets one if the word in front of it
has no comma, and the word behind it is no item. -/
inductive PausedWords : Text → List Text → List Text → Prop
  | nil {v : Text} : PausedWords v [] []
  | keep {v w : Text} {us ws : List Text} (h : PausedWords w us ws) :
    PausedWords v (w :: us) (w :: ws)
  | pause {v w x : Text} {us ws : List Text} (hv : ',' ∉ v) (hx : item? x = none)
    (h : PausedWords w (x :: us) ws) : PausedWords v (w :: x :: us) ((w ++ [',']) :: ws)

namespace PausedWords

/-- A pause at the end of words without commas. -/
theorem pause_append {qs : List Text} {l : Text} (hv : ',' ∉ v) (hqs : ∀ q ∈ qs, ',' ∉ q)
    (hx : item? x = none) (h : PausedWords l (x :: us) ws) :
    PausedWords v (qs ++ l :: x :: us) (qs ++ (l ++ [',']) :: ws) := by
  induction qs generalizing v with
  | nil => exact .pause hv hx h
  | cons q qs ih =>
    obtain ⟨hq, hqs⟩ := List.forall_mem_cons.mp hqs
    exact .keep (ih hq hqs)

/-- The first word is as much an item as it was. -/
theorem item?_head (h : PausedWords v (x :: us) ws) : ∀ y ∈ ws.head?, item? y = item? x := by
  rintro y hy
  cases h with
  | keep _ => rw [Option.some.inj hy]
  | pause _ _ _ =>
    rw [← Option.some.inj hy]
    exact item?_concat (by decide) x

/-- Such pauses repeat no items. -/
theorem isChain (h : PausedWords v us ws) (hus : us.IsChain NotAgain) :
    ws.IsChain NotAgain ∧ ((∀ u ∈ us.head?, NotAgain v u) → ∀ w ∈ ws.head?, NotAgain v w) := by
  induction h with
  | nil => exact ⟨.nil, fun h => h⟩
  | @keep v w us ws _ ih =>
    obtain ⟨hws, hhead⟩ := ih hus.tail
    exact ⟨hws.cons (hhead (List.isChain_cons.mp hus).1), fun h => h⟩
  | @pause v w x us ws hv hx h ih =>
    refine ⟨(ih hus.tail).1.cons fun y hy hrepeats => ?_, fun _ y hy hrepeats => ?_⟩
    · exact hrepeats.item?_eq.trans ((h.item?_head y hy).trans hx)
    · obtain rfl := Option.some.inj hy
      obtain ⟨u, rfl⟩ := hrepeats.exists_comma
      exact absurd (by simp) hv

/-- A word stays as it is in front of an item. -/
theorem exists_of_append {xs ys : List Text} {u x' : Text}
    (h : PausedWords v (xs ++ u :: x :: x' :: ys) ws) (hx : item? x ≠ none)
    (hx' : item? x' ≠ none) : ∃ xs' ys', ws = xs' ++ u :: x :: ys' := by
  generalize hus : xs ++ u :: x :: x' :: ys = us at h
  induction h generalizing xs with
  | nil => exact absurd hus (by simp)
  | @keep v w us ws h ih =>
    cases xs with
    | nil =>
      obtain ⟨rfl, rfl⟩ := List.cons.inj hus
      cases h with
      | @keep _ _ _ ws' _ => exact ⟨[], ws', rfl⟩
      | pause _ hnone _ => exact absurd hnone hx'
    | cons z xs =>
      obtain ⟨xs', ys', rfl⟩ := ih (List.cons.inj hus).2
      exact ⟨w :: xs', ys', rfl⟩
  | @pause v w z us ws _ hnone _ ih =>
    cases xs with
    | nil =>
      obtain ⟨-, hbehind⟩ := List.cons.inj hus
      exact absurd ((List.cons.inj hbehind).1 ▸ hnone) hx
    | cons z xs =>
      obtain ⟨xs', ys', rfl⟩ := ih (List.cons.inj hus).2
      exact ⟨(w ++ [',']) :: xs', ys', rfl⟩

end PausedWords

theorem pausedWords_pauseAfterQuantity (t : Text) : ∀ z v, ' ' ∉ z →
    PausedWords v (pieces (z ++ t)) (pieces (z ++ pauseAfterQuantity t)) := by
  fun_induction pauseAfterQuantity t with
  | case1 =>
    intro z v hz
    rw [List.append_nil, pieces_of_not_mem hz]
    exact .keep .nil
  | case2 c t part rest hq ih =>
    intro z v hz
    obtain ⟨q, w, hpower, rfl, -⟩ := exists_power hq
    obtain ⟨qs, l, hqs⟩ := (List.eq_nil_or_concat' (pieces q)).resolve_left (pieces_ne_nil q)
    have hpaused := pieces_append_of_not_mem hqs (u := [',']) (by decide)
    have hthe : ' ' ∉ z ++ "the".toList := by simp [hz]
    have hmark : ∀ r, pieces (z ++ (quantityMark ++ r)) =
        (z ++ "the".toList) :: "quantity".toList :: pieces r := by
      intro r
      have hsplit : z ++ (quantityMark ++ r) =
          (z ++ "the".toList) ++ ' ' :: ("quantity".toList ++ ' ' :: r) := by
        rw [show quantityMark = "the".toList ++ ' ' :: ("quantity".toList ++ [' ']) from rfl]
        simp
      rw [hsplit, pieces_append_space hthe, pieces_append_space (by decide)]
    have hcomma : ∀ q' ∈ qs, ',' ∉ q' := fun q' hq' hmem =>
      hpower.comma (mem_of_mem_pieces hmem (by rw [hqs]; simp [hq']))
    have hword : ∃ x us, pieces (w ++ rest) = x :: us ∧ item? x = none ∧
        PausedWords l (x :: us) (pieces (w ++ pauseAfterQuantity rest)) := by
      have hsingle : ∀ u, ' ' ∉ u → BeginsWithLetters u → ∃ x us, pieces (u ++ rest) = x :: us ∧
          item? x = none ∧ PausedWords l (x :: us) (pieces (u ++ pauseAfterQuantity rest)) := by
        intro u hu hletters
        obtain ⟨z', us, hz'⟩ := exists_pieces_append hu rest
        exact ⟨u ++ z', us, hz', hletters.spoiled [] z', hz' ▸ ih u l hu⟩
      have hcases : w = "squared".toList ∨ w = "cubed".toList ∨ w = "to the".toList := by
        simpa [powerWords] using hpower.word
      rcases hcases with rfl | rfl | rfl
      · exact hsingle _ (by decide) (beginsWithLetters_of_isLower rfl rfl)
      · exact hsingle _ (by decide) (beginsWithLetters_of_isLower rfl rfl)
      · have hto : ∀ r, pieces ("to the".toList ++ r) =
            "to".toList :: pieces ("the".toList ++ r) := fun r =>
          pieces_append_space (w := "to".toList) (by decide) ("the".toList ++ r)
        refine ⟨"to".toList, _, hto rest, by decide, ?_⟩
        rw [hto]
        exact .keep (ih "the".toList "to".toList (by decide))
    obtain ⟨x, us, hx, hnone, hbehind⟩ := hword
    have hnew : quantityMark ++ (q ++ ',' :: ' ' :: w) ++ pauseAfterQuantity rest =
        quantityMark ++ ((q ++ [',']) ++ ' ' :: (w ++ pauseAfterQuantity rest)) := by simp
    rw [hpower.eq, hmark, pieces_append, hqs, hx, hnew, hmark, pieces_append, hpaused,
      List.append_assoc, List.append_assoc]
    exact .keep (.keep (.pause_append (by decide) hcomma hnone hbehind))
  | case3 c t _ ih =>
    intro z v hz
    by_cases hc : c = ' '
    · rw [hc, pieces_append_space hz, pieces_append_space hz]
      exact .keep (ih [] z List.not_mem_nil)
    · have hbehind := ih (z ++ [c]) v (by simp [hz, Ne.symm hc])
      rwa [List.append_assoc, List.append_assoc] at hbehind

theorem noItemRepeats_pauseAfterQuantity (h : NoItemRepeats t) :
    NoItemRepeats (pauseAfterQuantity t) :=
  ((pausedWords_pauseAfterQuantity t [] [] List.not_mem_nil).isChain h).1

/-! ## The pause in front of a differential -/

/-- At the end of the text an item stands in front of a differential, and it repeats the one before
it if it gets the pause. -/
def RepeatsByPause (t : Text) : Prop :=
  ∃ v w y tail, Repeats v (w ++ [',']) ∧ item? v ≠ none ∧ w.getLast? ≠ some ',' ∧
    y.isAlpha = true ∧ EndsAfter tail ∧ v :: w :: ['d'] :: pieces (y :: tail) <:+ pieces t

/-- The words of a text whose differential got its pause. -/
theorem Differential.exists_pieces_pause {f tail : Text} (h : Differential t f c y tail)
    (hc : c ≠ ' ') (hcomma : c ≠ ',') : ∃ xs w,
      pieces t = xs ++ (w ++ [c]) :: ['d'] :: pieces (y :: tail) ∧
      pieces (pauseBeforeDifferential t) =
        xs ++ (w ++ [c] ++ [',']) :: ['d'] :: pieces (y :: tail) := by
  obtain ⟨xs, w, hw⟩ := pieces_concat hc f
  have hpaused := pieces_append_of_not_mem hw (u := [',']) (by decide)
  refine ⟨xs, w, ?_, ?_⟩
  · rw [← pieces_append_differential hw, h.eq]
    simp
  · rw [← pieces_append_differential hpaused, h.pause_eq, if_neg hcomma]
    simp

theorem ne_nil_of_item? (h : item? w ≠ none) : w ≠ [] := by
  rintro rfl
  exact h (by decide)

theorem item?_letter (h : y.isAlpha = true) : item? [y] ≠ none := by
  have hstop : isStop y = false := by
    rw [isStop, closesUp_of_isAlpha h, endsSentence_of_isAlpha h]
    rfl
  simp [item?, bare, isItem, hstop, h]

/-- The item that repeats another one by its pause gets the pause, and it keeps it. -/
theorem not_noItemRepeats_of_repeatsByPause (h : RepeatsByPause t) :
    ¬NoItemRepeats (insertPauses t) := by
  obtain ⟨v, w, y, tail, hrepeats, hitem, hcomma, hy, htail, xs, hxs⟩ := h
  have hw : item? w ≠ none := by
    rwa [← item?_concat (c := ',') (by decide) w, ← hrepeats.item?_eq]
  obtain ⟨w', c, rfl⟩ := (List.eq_nil_or_concat' w).resolve_left (ne_nil_of_item? hw)
  have hcne : c ≠ ',' := by simpa using hcomma
  have hspace : c ≠ ' ' := by
    rintro rfl
    exact not_mem_of_mem_pieces (t := t) (w := w' ++ [' ']) (by rw [← hxs]; simp) (by simp)
  have hpieces : pieces t = (xs ++ [v]) ++ (w' ++ [c]) :: ['d'] :: pieces (y :: tail) := by
    rw [← hxs]
    simp
  obtain ⟨zs, u, hold, hnew⟩ :=
    (differential_of_pieces hpieces hy htail).exists_pieces_pause hspace hcne
  have hends : ((xs ++ [v]) ++ [w' ++ [c]]) ++ ['d'] :: pieces (y :: tail) =
      (zs ++ [u ++ [c]]) ++ ['d'] :: pieces (y :: tail) := by
    rw [List.append_assoc, List.append_assoc, List.append_assoc]
    exact hxs.trans hold
  have hsame : (xs ++ [v]) ++ [w' ++ [c]] = zs ++ [u ++ [c]] := List.append_cancel_right hends
  obtain ⟨hzs, hu⟩ := List.append_inj' hsame rfl
  rw [← hzs, ← (List.cons.inj hu).1, List.append_assoc] at hnew
  have hpaused := pausedWords_pauseAfterQuantity (pauseBeforeDifferential t) [] []
    List.not_mem_nil
  rw [List.nil_append, hnew] at hpaused
  obtain ⟨xs', ys', hkept⟩ := hpaused.exists_of_append (hrepeats.item?_eq ▸ hitem) (by decide)
  intro hnot
  exact hitem (List.isChain_iff_forall_rel_of_append_cons_cons.mp hnot hkept hrepeats)

/-- Without repeated words, pauses repeat items only in front of a differential. -/
theorem noItemRepeats_insertPauses_iff (ht : Neat t)
    (h : (pieces t).IsChain fun v w => ¬Repeats v w) :
    NoItemRepeats (insertPauses t) ↔ ¬RepeatsByPause t := by
  refine ⟨fun hnot hrepeats => not_noItemRepeats_of_repeatsByPause hrepeats hnot, fun hnot => ?_⟩
  refine noItemRepeats_pauseAfterQuantity ?_
  rcases pauseBeforeDifferential_cases t with heq | ⟨f, c, y, tail, hd, hc⟩
  · rw [heq]
    exact h.imp fun v w hfree hrepeats => absurd hrepeats hfree
  · obtain ⟨xs, w, hold, hnew⟩ := hd.exists_pieces_pause (hd.ne_space ht) hc
    rw [hold] at h
    obtain ⟨hfront, hbehind, -⟩ := List.isChain_append.mp h
    unfold NoItemRepeats
    rw [hnew]
    have himp : ∀ v w, ¬Repeats v w → NotAgain v w := fun _ _ hfree hrepeats =>
      absurd hrepeats hfree
    refine List.isChain_append.mpr ⟨hfront.imp himp, (hbehind.tail.imp himp).cons ?_, ?_⟩
    · rintro x hx hrepeats
      obtain rfl := Option.some.inj hx
      exact absurd hrepeats.2 (by decide)
    · rintro v hv x hx hrepeats
      obtain rfl := Option.some.inj hx
      obtain ⟨xs', rfl⟩ := List.getLast?_eq_some_iff.mp hv
      by_contra hitem
      refine hnot ⟨v, w ++ [c], y, tail, hrepeats, hitem, by simpa using hc, hd.letter, hd.tail,
        xs', ?_⟩
      rw [hold]
      simp

/-- Words at the end of a text that are items, or the sign that ends the sentence. -/
theorem item?_ne_none_of_mem_end {u tail : Text} (hrepeats : Repeats v (w ++ [',']))
    (hitem : item? v ≠ none) (hy : y.isAlpha = true) (htail : EndsAfter tail)
    (hu : u ∈ v :: w :: ['d'] :: pieces (y :: tail)) : item? u ≠ none ∨ u.size = 1 := by
  simp only [List.mem_cons] at hu
  rcases hu with rfl | rfl | rfl | hu
  · exact .inl hitem
  · rw [hrepeats.item?_eq, item?_concat (by decide)] at hitem
    exact .inl hitem
  · exact .inr rfl
  · rcases pieces_tail hy htail with heq | ⟨e, he, heq | heq⟩ <;> rw [heq] at hu
    · obtain rfl := List.mem_singleton.mp hu
      exact .inl (item?_letter hy)
    · obtain rfl := List.mem_singleton.mp hu
      have hstop : isStop e = true := by rw [isStop, he, Bool.or_true]
      exact .inl (item?_concat hstop [y] ▸ item?_letter hy)
    · simp only [List.mem_cons, List.not_mem_nil, or_false] at hu
      rcases hu with rfl | rfl
      · exact .inl (item?_letter hy)
      · exact .inr (by simp [utf8Size_of_endsSentence he])

/-- Where no item is repeated, taking out other words does not change which one a pause repeats. -/
theorem repeatsByPause_avoidRepetition_iff (h : NoItemRepeats t) :
    RepeatsByPause (avoidRepetition t) ↔ RepeatsByPause t := by
  refine (avoidRepetition_induction (t := t)
    (P := fun u => NoItemRepeats u ∧ (RepeatsByPause u ↔ RepeatsByPause t)) ?_ ⟨h, .rfl⟩).2
  rintro front v w back hr ⟨hchain, hiff⟩
  obtain ⟨xs, ys, hold, hnew⟩ := hr.exists_pieces
  unfold NoItemRepeats at hchain ⊢
  rw [hold] at hchain
  obtain ⟨hv, hkept⟩ := hr.repeats.notAgain hchain
  refine ⟨hnew ▸ hkept, Iff.trans ?_ hiff⟩
  unfold RepeatsByPause
  rw [hold, hnew]
  refine exists_congr fun v₀ => exists_congr fun w₀ => exists_congr fun y =>
    exists_congr fun tail => and_congr_right fun hrepeats => and_congr_right fun hitem =>
      and_congr_right fun _ => and_congr_right fun hy => and_congr_right fun htail => ?_
  have hwords := fun u => item?_ne_none_of_mem_end (u := u) hrepeats hitem hy htail
  have hv' : v ∉ v₀ :: w₀ :: ['d'] :: pieces (y :: tail) := fun hmem =>
    (hwords v hmem).elim (fun hsome => hsome hv) hr.repeats.size_ne_one
  have hw : item? w = none := hr.repeats.item?_eq ▸ hv
  have hw' : w ∉ v₀ :: w₀ :: ['d'] :: pieces (y :: tail) := fun hmem =>
    (hwords w hmem).elim (fun hsome => hsome hw) hr.repeats.second_size_ne_one
  rw [suffix_append_cons_iff hv', suffix_append_cons_iff hv']
  exact (suffix_append_cons_iff (m := []) hw').symm

/-! ## Rounds -/

/-- In a round only repeated words take items with them. -/
theorem items_round (a : Audience) (h : Neat t) :
    items (round a t) = items (avoidRepetition t) := by
  rw [round, normalize_of_neat h, items_congr (lower_capitalize _), items_chooseWords, insertPauses,
    (paused_pauseAfterQuantity _).items_eq, (paused_pauseBeforeDifferential _).items_eq]

theorem noItemRepeats_congr (h : Text.lower s = Text.lower t) :
    NoItemRepeats s ↔ NoItemRepeats t := by
  have hstep : ∀ {v v' w w' : Text}, Text.lower v = Text.lower v' → Text.lower w = Text.lower w' →
      NotAgain v w → NotAgain v' w' := fun hv hw hkeep hrepeats =>
    (item?_congr hv).symm.trans (hkeep (hrepeats.congr hv.symm hw.symm))
  exact ⟨fun hs => isChain_pieces_congr hstep hs h, fun ht => isChain_pieces_congr hstep ht h.symm⟩

/-- The words that a round leaves repeat an item only if a pause has made it so. -/
theorem noItemRepeats_round_iff (a : Audience) (h : Neat t) :
    NoItemRepeats (round a t) ↔ ¬RepeatsByPause (avoidRepetition t) := by
  rw [round, normalize_of_neat h, noItemRepeats_congr (lower_capitalize _),
    noItemRepeats_chooseWords]
  exact noItemRepeats_insertPauses_iff h.avoidRepetition (isChain_pieces_avoidRepetition t)

/-- Later rounds repeat no items. -/
theorem Settled.noItemRepeats_round (h : Settled a t) : NoItemRepeats (round a t) := by
  rw [h.round_eq]
  exact noItemRepeats_pauseAfterQuantity
    ((isChain_pieces_avoidRepetition t).imp fun _ _ hfree hrepeats => absurd hrepeats hfree)

theorem Settled.items_iterate (h : Settled a t) (hitems : NoItemRepeats t) (n : Nat) :
    items ((round a)^[n] t) = items t := by
  induction n generalizing t with
  | zero => rfl
  | succ n ih =>
    rw [Function.iterate_succ_apply, ih (settled_round a t) h.noItemRepeats_round,
      items_round a h.neat, items_avoidRepetition_eq_iff.mpr hitems]

/-- Only the first two rounds can lose items. -/
theorem items_polish_eq (a : Audience) (t : Text) :
    items (polish a t) = items (avoidRepetition (round a t)) := by
  have hfirst := settled_round a t
  rw [polish, rounds_eq_iterate]
  show items ((round a)^[2] (round a (round a t))) = _
  rw [(settled_round a (round a t)).items_iterate hfirst.noItemRepeats_round,
    items_round a hfirst.neat]

/-- Where an item is repeated together with its signs, polishing loses one. -/
theorem items_polish_ne (a : Audience) (h : Neat t) (ht : ¬NoItemRepeats t) :
    items (polish a t) ≠ items t := by
  intro heq
  have hfirst : (items (polish a t)).Sublist (items (avoidRepetition t)) := by
    rw [items_polish_eq, ← items_round a h]
    exact items_avoidRepetition_sublist _
  have hsublist := items_avoidRepetition_sublist t
  rw [heq] at hfirst
  exact ht (items_avoidRepetition_eq_iff.mp
    (hsublist.eq_of_length (hsublist.length_le.antisymm hfirst.length_le)))

end Polish

open Polish in
/-- **Polishing adds no items, and keeps them all exactly if none is repeated together with its
signs, be it by a pause.** -/
theorem items_polish (a : Audience) {t : Text} (h : Neat t) :
    (items (polish a t)).Sublist (items t) ∧
      (items (polish a t) = items t ↔ NoItemRepeats t ∧ ¬RepeatsByPause t) := by
  have hround := items_round a h
  have hsublist : (items (avoidRepetition (round a t))).Sublist (items (round a t)) :=
    items_avoidRepetition_sublist _
  rw [items_polish_eq]
  refine ⟨?_, fun heq => ?_, fun ⟨hitems, hpause⟩ => ?_⟩
  · exact hsublist.trans (hround ▸ items_avoidRepetition_sublist t)
  · have hitems : NoItemRepeats t := by
      by_contra hnot
      exact items_polish_ne a h hnot ((items_polish_eq a t).trans heq)
    refine ⟨hitems, ?_⟩
    rw [← repeatsByPause_avoidRepetition_iff hitems, ← noItemRepeats_round_iff a h,
      ← items_avoidRepetition_eq_iff, heq, hround, items_avoidRepetition_eq_iff.mpr hitems]
  · have hsecond : NoItemRepeats (round a t) := by
      rwa [noItemRepeats_round_iff a h, repeatsByPause_avoidRepetition_iff hitems]
    rw [items_avoidRepetition_eq_iff.mpr hsecond, hround, items_avoidRepetition_eq_iff.mpr hitems]

open Polish in
/-- The rows of a matrix keep their entries: a word is repeated and another one chosen around them,
but no two neighbours are the same entry with the same signs. -/
theorem items_polish_matrix :
    Neat "the the matrix with rows 1, 2; 2, 2 and x approaches 0".toList ∧
      (items (polish .elementary "the the matrix with rows 1, 2; 2, 2 and x approaches 0".toList)
        ).Sublist (items "the the matrix with rows 1, 2; 2, 2 and x approaches 0".toList) ∧
      items (polish .elementary "the the matrix with rows 1, 2; 2, 2 and x approaches 0".toList) =
        ["1".toList, "2".toList, "2".toList, "2".toList, "x".toList, "0".toList] := by
  generalize ht : "the the matrix with rows 1, 2; 2, 2 and x approaches 0".toList = t
  have hneat : Neat t := ht ▸ (by decide)
  obtain ⟨hsublist, hiff⟩ := items_polish .elementary hneat
  have hpause : ¬RepeatsByPause t := by
    rintro ⟨v, w, y, tail, -, -, -, -, -, hsuffix⟩
    have hmem : ['d'] ∈ Polish.pieces t := hsuffix.subset (by simp)
    exact absurd (ht ▸ hmem) (by decide)
  have hitems : NoItemRepeats t := ht ▸ (by decide)
  exact ⟨hneat, hsublist, (hiff.mpr ⟨hitems, hpause⟩).trans (ht ▸ (by decide))⟩

open Polish in
/-- A list of entries loses one of two that are equal. -/
theorem items_polish_list_ne :
    Neat "1, 1, 2".toList ∧
      items (polish .undergraduate "1, 1, 2".toList) ≠ items "1, 1, 2".toList := by
  have hneat : Neat "1, 1, 2".toList := by decide
  exact ⟨hneat, items_polish_ne .undergraduate hneat (by decide)⟩

end SpokenMath
