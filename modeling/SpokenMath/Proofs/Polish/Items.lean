import SpokenMath.Proofs.Polish.Capitals

/-!
# Numbers and variables

An **item** of a text is a number or a variable: a word of digits or a single letter, when the signs
at its ends are left out. Pauses and capitals keep the items, and so does the choice of words
(`outline_chooseWords`), which also keeps which items stand side by side. So it is only repeated
words that take items with them.

**Theorem (`items_avoidRepetition_eq_iff`).** Taking out repeated words keeps the items exactly if
no item is repeated together with its signs.
-/

namespace SpokenMath

namespace Polish

variable {c d : Char} {p r s t u v w : Text} {vs ws : List Text} {a : Audience}

/-! ## Items -/

/-- Signs that may stand at the end of a word. -/
def isStop (c : Char) : Bool := closesUp c || endsSentence c

/-- A word without the signs at its ends. -/
def bare (w : Text) : Text := ((w.dropWhile isStop).reverse.dropWhile isStop).reverse

/-- Digits, or a single letter. -/
def isItem (w : Text) : Bool :=
  (!w.isEmpty && w.all Char.isDigit) || (w.length == 1 && w.all Char.isAlpha)

/-- The number or the variable that a word is, in small letters. -/
def item? (w : Text) : Option Text := if isItem (bare w) then some (Text.lower (bare w)) else none

/-- The numbers and the variables of a text. -/
def items (t : Text) : List Text := (pieces t).filterMap item?

theorem isStop_congr (h : c.toLower = d.toLower) : isStop c = isStop d := by
  rw [isStop, isStop, closesUp_congr h]
  rcases eq_or_isAlpha_of_toLower_eq h with rfl | ⟨hc, hd⟩
  · rfl
  · rw [endsSentence_of_isAlpha hc, endsSentence_of_isAlpha hd]

theorem bare_lower (w : Text) : bare (Text.lower w) = Text.lower (bare w) := by
  have hstop : isStop ∘ Char.toLower = isStop := funext fun c => isStop_congr (Char.toLower_toLower_eq_toLower c)
  simp only [bare, Text.lower, List.dropWhile_map, hstop, ← List.map_reverse]

theorem isItem_lower (w : Text) : isItem (Text.lower w) = isItem w := by
  have hsame : ∀ c : Char, c.toLower.isDigit = c.isDigit ∧ c.toLower.isAlpha = c.isAlpha := by
    intro c
    rcases eq_or_isAlpha_of_toLower_eq (Char.toLower_toLower_eq_toLower c) with heq | ⟨hl, hc⟩
    · rw [heq]
      exact ⟨rfl, rfl⟩
    · rw [isDigit_of_isAlpha hl, isDigit_of_isAlpha hc, hl, hc]
      exact ⟨rfl, rfl⟩
  simp [isItem, Text.lower, List.all_map, Function.comp_def, hsame]

/-- Words are items whatever the case of their letters. -/
theorem item?_congr (h : Text.lower v = Text.lower w) : item? v = item? w := by
  have hlower : ∀ u : Text, item? u = if isItem (bare (Text.lower u)) then
      some (bare (Text.lower u)) else none := by
    intro u
    rw [item?, bare_lower, isItem_lower]
  rw [hlower, hlower, h]

theorem dropWhile_concat_of_pos {q : Char → Bool} (hc : q c = true) (w : Text) :
    ((w ++ [c]).dropWhile q).reverse.dropWhile q = (w.dropWhile q).reverse.dropWhile q := by
  rw [List.dropWhile_append]
  split
  · next hempty => simp [hc, List.isEmpty_iff.mp hempty]
  · simp [hc]

/-- A sign at the end does not matter. -/
theorem item?_concat (hc : isStop c = true) (w : Text) : item? (w ++ [c]) = item? w := by
  rw [item?, item?, bare, bare, dropWhile_concat_of_pos hc]

theorem isStop_of_isLetter (h : IsLetter c) : isStop c = false := by
  rcases h.cases with halpha | rfl | rfl
  · rw [isStop, closesUp_of_isAlpha halpha, endsSentence_of_isAlpha halpha]
    rfl
  · decide
  · decide

theorem dropWhile_append_of_neg {q : Char → Bool} (hc : q c = false) (u w : Text) :
    ∃ u', (u ++ c :: w).dropWhile q = u' ++ c :: w := by
  induction u with
  | nil => exact ⟨[], by rw [List.nil_append, List.dropWhile_cons_of_neg (by simp [hc])]⟩
  | cons e u ih =>
    cases he : q e with
    | true =>
      rw [List.cons_append, List.dropWhile_cons_of_pos he]
      exact ih
    | false =>
      exact ⟨e :: u, by rw [List.cons_append, List.dropWhile_cons_of_neg (by simp [he])]⟩

/-- A word with two letters side by side is no item. -/
theorem item?_of_isLetter (hc : IsLetter c) (hd : IsLetter d) (u w : Text) :
    item? (u ++ c :: d :: w) = none := by
  obtain ⟨u', hu⟩ := dropWhile_append_of_neg (isStop_of_isLetter hc) u (d :: w)
  obtain ⟨w', hw⟩ := dropWhile_append_of_neg (isStop_of_isLetter hd) w.reverse (c :: u'.reverse)
  have hbare : bare (u ++ c :: d :: w) = u' ++ c :: d :: w'.reverse := by
    rw [bare, hu]
    simp only [List.reverse_append, List.reverse_cons, List.append_assoc, List.cons_append,
      List.nil_append] at hw ⊢
    rw [hw]
    simp
  have hdigit : c.isDigit = false := by
    rcases hc.cases with halpha | rfl | rfl
    · exact isDigit_of_isAlpha halpha
    · decide
    · decide
  rw [item?, hbare, if_neg]
  simp [isItem, hdigit]
  omega

/-! ## Repeated words -/

/-- The second word is no item that repeats the first one together with its signs. -/
def NotAgain (v w : Text) : Prop := Repeats v w → item? v = none

/-- No item repeats the one before it together with its signs. -/
def NoItemRepeats (t : Text) : Prop := (pieces t).IsChain NotAgain

instance (v w : Text) : Decidable (NotAgain v w) := inferInstanceAs (Decidable (Repeats v w → _))

instance (t : Text) : Decidable (NoItemRepeats t) :=
  inferInstanceAs (Decidable (List.IsChain NotAgain _))

theorem Repeats.item?_eq (h : Repeats v w) : item? v = item? w := item?_congr h.map_toLower

theorem items_withoutRepeats_sublist (ws : List Text) :
    ((withoutRepeats ws).filterMap item?).Sublist (ws.filterMap item?) := by
  refine List.Sublist.filterMap item? ?_
  fun_induction withoutRepeats ws with
  | case1 v w ws _ ih => exact ih.trans ((List.sublist_cons_self w ws).cons_cons v)
  | case2 v w ws _ ih => exact ih.cons_cons v
  | case3 ws => exact .refl ws

/-- **No items come by taking out repeated words.** -/
theorem items_avoidRepetition_sublist (t : Text) :
    (items (avoidRepetition t)).Sublist (items t) := by
  rw [items, pieces_avoidRepetition]
  exact items_withoutRepeats_sublist (pieces t)

theorem isChain_of_items_withoutRepeats
    (h : (withoutRepeats ws).filterMap item? = ws.filterMap item?) :
    ws.IsChain NotAgain := by
  fun_induction withoutRepeats ws with
  | case1 v w ws hrepeat ih =>
    simp only [Bool.and_eq_true, Bool.not_eq_eq_eq_not, Bool.not_true] at hrepeat
    have hsame : item? v = item? w := Repeats.item?_eq hrepeat
    have hsublist := items_withoutRepeats_sublist (v :: ws)
    rw [h] at hsublist
    have hlength := hsublist.length_le
    have hnone : item? w = none := by
      by_contra hsome
      obtain ⟨x, hx⟩ := Option.ne_none_iff_exists'.mp hsome
      have hv : item? v = some x := hsame.trans hx
      rw [List.filterMap_cons_some hv, List.filterMap_cons_some hx,
        List.filterMap_cons_some hv] at hlength
      exact absurd hlength (Nat.not_succ_le_self _)
    have hbehind := ih (by rw [h]; simp [hnone, hsame])
    refine .cons_cons (fun _ => hsame.trans hnone) ?_
    exact hbehind.tail.cons fun _ _ _ => hnone
  | case2 v w ws hkeep ih =>
    have hbehind := ih (by
      cases hv : item? v with
      | none => simpa [List.filterMap_cons, hv] using h
      | some x => simpa [List.filterMap_cons, hv] using h)
    refine .cons_cons (fun hrepeat => ?_) hbehind
    exact absurd (by rw [hrepeat.1, hrepeat.2]; rfl) hkeep
  | case3 ws hshape => exact isChain_of_ne_cons_cons hshape

/-- A repeated word is no item, and without it no item is repeated either. -/
theorem Repeats.notAgain {xs ys : List Text} (hr : Repeats v w)
    (h : (xs ++ v :: w :: ys).IsChain NotAgain) :
    item? v = none ∧ (xs ++ v :: ys).IsChain NotAgain := by
  obtain ⟨hfront, hbehind, hjoint⟩ := List.isChain_append.mp h
  have hv := (List.isChain_cons_cons.mp hbehind).1 hr
  exact ⟨hv, List.isChain_append.mpr ⟨hfront, hbehind.tail.tail.cons fun _ _ _ => hv, hjoint⟩⟩

/-- Where a repeated word is no item, the items are the same without it. -/
theorem items_withoutRepeats (h : ws.IsChain NotAgain) :
    (withoutRepeats ws).filterMap item? = ws.filterMap item? := by
  refine (withoutRepeats_induction
    (P := fun us => us.IsChain NotAgain ∧ us.filterMap item? = ws.filterMap item?) ?_ ⟨h, rfl⟩).2
  rintro xs v w ys hrepeats ⟨hchain, hitems⟩
  obtain ⟨hv, hnew⟩ := hrepeats.notAgain hchain
  refine ⟨hnew, ?_⟩
  rw [← hitems, List.filterMap_append, List.filterMap_append]
  simp [hv, hrepeats.item?_eq ▸ hv]

/-- **Taking out repeated words keeps the items exactly if no item is repeated with its signs.** -/
theorem items_avoidRepetition_eq_iff : items (avoidRepetition t) = items t ↔ NoItemRepeats t := by
  rw [items, items, pieces_avoidRepetition]
  exact ⟨isChain_of_items_withoutRepeats, items_withoutRepeats⟩

/-! ## Pauses and capitals -/

/-- Pauses keep the items. -/
theorem Paused.items_eq (h : Paused s t) : items t = items s := by
  have hpieces := h.forall₂_pieces
  unfold items
  generalize pieces s = vs at hpieces
  generalize pieces t = ws at hpieces
  induction hpieces with
  | nil => rfl
  | @cons v w _ _ hw _ ih =>
    have hsame : item? w = item? v := by
      rcases hw with rfl | rfl
      · rfl
      · exact item?_concat (by decide) v
    rw [List.filterMap_cons, List.filterMap_cons, hsame, ih]

/-- A text has the same items whatever the case of its letters. -/
theorem items_congr (h : Text.lower s = Text.lower t) : items s = items t := by
  have hlower : ∀ u : Text, items u = (pieces (Text.lower u)).filterMap item? := by
    intro u
    rw [pieces_lower, List.filterMap_map, items]
    exact List.filterMap_congr fun w _ => item?_congr (lower_lower w).symm
  rw [hlower, hlower, h]

/-! ## The choice of words -/

/-- A gap between items. Gaps side by side are one gap. -/
def gap (l : List (Option Text)) : List (Option Text) :=
  if l.head? = some none then l else none :: l

/-- The items of a list of words, each with its signs, and the gaps between them. -/
def outline : List Text → List (Option Text)
  | [] => []
  | w :: ws => if item? w = none then gap (outline ws) else some w :: outline ws

theorem head?_gap (l : List (Option Text)) : (gap l).head? = some none := by
  unfold gap
  split
  · assumption
  · rfl

theorem gap_of_head? {l : List (Option Text)} (h : l.head? = some none) : gap l = l := if_pos h

theorem outline_cons_of_none (h : item? w = none) (ws : List Text) :
    outline (w :: ws) = gap (outline ws) := if_pos h

/-- The outline tells the items. -/
theorem filterMap_outline (ws : List Text) :
    (outline ws).filterMap (·.bind item?) = ws.filterMap item? := by
  induction ws with
  | nil => rfl
  | cons w ws ih =>
    rw [outline, List.filterMap_cons]
    split
    · next hnone =>
      rw [hnone, ← ih, gap]
      split
      · rfl
      · rfl
    · next hsome =>
      rw [List.filterMap_cons, ih]
      rfl

/-- It tells which items are repeated. -/
theorem isChain_outline (ws : List Text) :
    (outline ws).IsChain (fun x y => ∀ v ∈ x, ∀ w ∈ y, NotAgain v w) ↔ ws.IsChain NotAgain := by
  induction ws with
  | nil => exact iff_of_true .nil .nil
  | cons w ws ih =>
    rw [outline, List.isChain_cons (l := ws), ← ih]
    split
    · next hnone =>
      have hfree : ∀ y ∈ ws.head?, NotAgain w y := fun _ _ _ => hnone
      rw [and_iff_right hfree]
      unfold gap
      split
      · rfl
      · exact List.isChain_cons.trans (and_iff_right fun _ _ _ hnone => nomatch hnone)
    · next hsome =>
      rw [List.isChain_cons]
      refine and_congr_left fun _ => ?_
      cases ws with
      | nil => exact iff_of_true nofun nofun
      | cons y ys =>
        by_cases hy : item? y = none
        · rw [outline_cons_of_none hy, head?_gap]
          refine iff_of_true (fun x hx v _ w hw => ?_) fun x hx hrepeats => ?_
          · rw [← Option.some.inj hx] at hw
            cases hw
          · obtain rfl := Option.some.inj hx
            exact hrepeats.item?_eq.trans hy
        · rw [outline, if_neg hy]
          simp

/-- A beginning of a word that is no item, however the word goes on. -/
def Spoiled (u : Text) : Prop := ∀ z, item? (u ++ z) = none

theorem Spoiled.append (h : Spoiled u) (z : Text) : Spoiled (u ++ z) :=
  fun z' => List.append_assoc u z z' ▸ h (z ++ z')

/-- A word of a phrase begins with two letters. -/
def BeginsWithLetters (w : Text) : Prop := ∃ c d z, w = c :: d :: z ∧ IsLetter c ∧ IsLetter d

theorem sameLetter_self (h : c.isLower = true) : sameLetter c c = true := by
  simp [sameLetter, toLower_of_isLower h]

theorem isLetter_of_isLower (h : c.isLower = true) : IsLetter c := ⟨c, h, sameLetter_self h⟩

theorem beginsWithLetters_of_isLower {z : Text} (hc : c.isLower = true) (hd : d.isLower = true) :
    BeginsWithLetters (c :: d :: z) :=
  ⟨c, d, z, rfl, isLetter_of_isLower hc, isLetter_of_isLower hd⟩

theorem BeginsWithLetters.spoiled (h : BeginsWithLetters w) (u : Text) : Spoiled (u ++ w) := by
  obtain ⟨c, d, z, rfl, hc, hd⟩ := h
  intro z'
  rw [List.append_assoc]
  exact item?_of_isLetter hc hd u (z ++ z')

theorem outline_pieces_of_spoiled (h : Spoiled u) (hu : ' ' ∉ u) (t : Text) :
    (outline (pieces (u ++ t))).head? = some none := by
  obtain ⟨z, ws, hpieces⟩ := exists_pieces_append hu t
  rw [hpieces, outline_cons_of_none (h z), head?_gap]

/-- Of the words of a phrase only the last one matters for the outline, and it is no item. -/
theorem exists_outline_join (hne : ws ≠ []) (hspace : ∀ w ∈ ws, ' ' ∉ w)
    (hletters : ∀ w ∈ ws, BeginsWithLetters w) (hu : ' ' ∉ u) :
    ∃ z, ' ' ∉ z ∧ Spoiled z ∧
      ∀ t, outline (pieces (u ++ (Text.join [' '] ws ++ t))) = outline (pieces (z ++ t)) := by
  induction ws generalizing u with
  | nil => exact absurd rfl hne
  | cons w ws ih =>
    obtain ⟨hw, hws⟩ := List.forall_mem_cons.mp hspace
    obtain ⟨hletter, hletters⟩ := List.forall_mem_cons.mp hletters
    have hfirst : ' ' ∉ u ++ w := by simp [hu, hw]
    cases ws with
    | nil =>
      refine ⟨u ++ w, hfirst, hletter.spoiled u, fun t => ?_⟩
      rw [join_singleton, List.append_assoc]
    | cons w' ws =>
      obtain ⟨z, hz, hspoiled, houtline⟩ := ih (List.cons_ne_nil _ _) hws hletters
        (u := []) List.not_mem_nil
      refine ⟨z, hz, hspoiled, fun t => ?_⟩
      have hsplit : u ++ (Text.join [' '] (w :: w' :: ws) ++ t) =
          (u ++ w) ++ ' ' :: ([] ++ (Text.join [' '] (w' :: ws) ++ t)) := by
        rw [join_cons_cons]
        simp
      have hnone : item? (u ++ w) = none := by simpa using hletter.spoiled u []
      rw [hsplit, pieces_append_space hfirst, outline_cons_of_none hnone, houtline,
        gap_of_head? (outline_pieces_of_spoiled hspoiled hz t)]

/-- The words of a text that spells a phrase. -/
theorem Fits.forall₂_pieces {x : Text} (hx : Fits (phraseMask p) x)
    (hp : ∀ c ∈ p, c.isLower = true ∨ c = ' ') :
    List.Forall₂ (fun q w => Fits (phraseMask q) w) (pieces p) (pieces x) := by
  induction p generalizing x with
  | nil =>
    obtain rfl : x = [] := List.forall₂_nil_left_iff.mp hx
    exact .cons .nil .nil
  | cons a p ih =>
    obtain ⟨c, x, hc, hrest, rfl⟩ := List.forall₂_cons_left_iff.mp hx
    obtain ⟨ha, hletters⟩ := List.forall_mem_cons.mp hp
    rcases ha with hlower | rfl
    · obtain ⟨q, qs, hqs, hcons⟩ := pieces_cons (ne_space_of_isLower hlower) p
      obtain ⟨w, ws, hws, hcons'⟩ := pieces_cons (IsLetter.ne_space ⟨a, hlower, hc⟩) x
      have hpieces := ih hrest hletters
      rw [hqs, hws] at hpieces
      obtain ⟨hfirst, hbehind⟩ := List.forall₂_cons.mp hpieces
      rw [hcons, hcons']
      exact .cons (.cons hc hfirst) hbehind
    · rw [sameLetter_space hc, pieces_space, pieces_space]
      exact .cons .nil (ih hrest hletters)

/-- Every word has two letters or more. -/
def LongWords (p : Text) : Prop := ∀ q ∈ pieces p, 2 ≤ q.length

instance (p : Text) : Decidable (LongWords p) := inferInstanceAs (Decidable (∀ q ∈ _, _))

theorem beginsWithLetters_of_fits {x : Text} (hx : Fits (phraseMask p) x) (hp : IsPhrase p)
    (hlong : LongWords p) : ∀ w ∈ pieces x, BeginsWithLetters w := by
  intro w hw
  obtain ⟨ws₁, ws₂, hws⟩ := List.append_of_mem hw
  have hpieces := hx.forall₂_pieces hp.1
  rw [hws] at hpieces
  obtain ⟨qs₁, r, hqs, -, hr⟩ := exists_append_of_forall₂ hpieces
  obtain ⟨q, qs₂, hfits, -, rfl⟩ := List.forall₂_cons_right_iff.mp hr
  have hmem : q ∈ pieces p := by simp [hqs]
  have hlower : ∀ c ∈ q, c.isLower = true := by
    intro c hc
    refine (hp.1 c (mem_of_mem_pieces hc hmem)).resolve_right ?_
    rintro rfl
    exact not_mem_of_mem_pieces hmem hc
  match q, hlong q hmem with
  | a :: b :: q, _ =>
    obtain ⟨c, w, hc, hrest, rfl⟩ := List.forall₂_cons_left_iff.mp hfits
    obtain ⟨d, z, hd, -, rfl⟩ := List.forall₂_cons_left_iff.mp hrest
    exact ⟨c, d, z, rfl, ⟨a, hlower a (by simp), hc⟩, b, hlower b (by simp), hd⟩

theorem fits_self (hp : ∀ c ∈ p, c.isLower = true ∨ c = ' ') : Fits (phraseMask p) p := by
  unfold Fits phraseMask
  rw [List.forall₂_map_left_iff, List.forall₂_same]
  intro c hc
  rcases hp c hc with hlower | rfl
  · exact sameLetter_self hlower
  · decide

/-- Replacing a phrase keeps the outline. -/
theorem outline_substitute (he : Entry p r) (hp : LongWords p) (hr : LongWords r) (inWord : Bool)
    {u u' : Text} (hu : ' ' ∉ u) (hu' : ' ' ∉ u') (h : u = u' ∨ Spoiled u ∧ Spoiled u') (t : Text) :
    outline (pieces (u ++ t)) = outline (pieces (u' ++ substitute p r inWord t)) := by
  fun_induction substitute p r inWord t generalizing u u' with
  | case1 =>
    rw [List.append_nil, List.append_nil, pieces_of_not_mem hu, pieces_of_not_mem hu']
    rcases h with rfl | ⟨hspoiled, hspoiled'⟩
    · rfl
    · have hnone : item? u = none := by simpa using hspoiled []
      have hnone' : item? u' = none := by simpa using hspoiled' []
      rw [outline_cons_of_none hnone, outline_cons_of_none hnone']
  | case2 inWord c t rest hphrase ih =>
    obtain ⟨y, hy, hfits⟩ := afterPhrase?_of_split hphrase
    obtain ⟨z, hz, hspoiled, houtline⟩ := exists_outline_join (pieces_ne_nil y)
      (fun w hw => not_mem_of_mem_pieces hw) (beginsWithLetters_of_fits hfits he.phrase hp) hu
    obtain ⟨z', hz', hspoiled', houtline'⟩ := exists_outline_join (pieces_ne_nil r)
      (fun w hw => not_mem_of_mem_pieces hw)
      (beginsWithLetters_of_fits (fits_self he.replacement.1) he.replacement hr) hu'
    rw [join_pieces] at houtline houtline'
    rw [hy, houtline, houtline']
    exact ih hz hz' (.inr ⟨hspoiled, hspoiled'⟩)
  | case3 inWord c t _ ih =>
    by_cases hc : c = ' '
    · have hbehind := ih List.not_mem_nil List.not_mem_nil (.inl rfl)
      rw [List.nil_append, List.nil_append] at hbehind
      rw [hc] at hbehind ⊢
      rw [pieces_append_space hu, pieces_append_space hu']
      rcases h with rfl | ⟨hspoiled, hspoiled'⟩
      · rw [outline, outline, hbehind]
      · have hnone : item? u = none := by simpa using hspoiled []
        have hnone' : item? u' = none := by simpa using hspoiled' []
        rw [outline_cons_of_none hnone, outline_cons_of_none hnone', hbehind]
    · have hmore : ∀ v : Text, ' ' ∉ v → ' ' ∉ v ++ [c] := fun v hv => by simp [hv, Ne.symm hc]
      have hbehind := ih (hmore u hu) (hmore u' hu')
        (h.imp (congrArg (· ++ [c])) fun hboth => ⟨hboth.1.append [c], hboth.2.append [c]⟩)
      rwa [List.append_assoc, List.append_assoc] at hbehind

theorem longWords_of_mem_vocabulary {a : Audience} :
    ∀ e ∈ vocabulary a, LongWords e.1.toList ∧ LongWords e.2.toList := by
  cases a <;> decide

/-- **The choice of words keeps the items, and which of them stand side by side.** -/
theorem outline_chooseWords (a : Audience) (t : Text) :
    outline (pieces (chooseWords a t)) = outline (pieces t) := by
  refine chooseWords_induction (P := fun s => outline (pieces s) = outline (pieces t)) ?_ rfl
  intro e he s hs
  obtain ⟨hp, hr⟩ := longWords_of_mem_vocabulary e he
  rw [← hs]
  exact (outline_substitute (entry_of_mem_vocabulary e he) hp hr false List.not_mem_nil
    List.not_mem_nil (.inl rfl) s).symm

theorem items_chooseWords (a : Audience) (t : Text) : items (chooseWords a t) = items t := by
  rw [items, ← filterMap_outline, outline_chooseWords, filterMap_outline, items]

theorem noItemRepeats_chooseWords (a : Audience) :
    NoItemRepeats (chooseWords a t) ↔ NoItemRepeats t := by
  rw [NoItemRepeats, ← isChain_outline, outline_chooseWords, isChain_outline, NoItemRepeats]

end Polish

end SpokenMath
