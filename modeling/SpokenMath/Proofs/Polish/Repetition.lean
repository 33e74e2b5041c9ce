import SpokenMath.Proofs.Lists
import SpokenMath.Proofs.Polish
import SpokenMath.Proofs.Polish.Spacing
import SpokenMath.Proofs.Text.Basic

/-!
# Repeated words

Words are the pieces of a text between spaces. Taking out repeated words takes out one word at a
time, each of which stands right behind a word that is the same up to case (`Repetition`). So a
property that a text keeps when one such word is taken out is a property of the text without any
(`avoidRepetition_induction`).

**Theorem (`isChain_pieces_avoidRepetition`, `avoidRepetition_of_isChain`).** No word repeats the
one before it when repeated words have been taken out, and where no word does so nothing changes.
-/

namespace SpokenMath

namespace Polish

variable {c : Char} {s t v w : Text} {ws : List Text}

/-! ## Pieces between spaces -/

/-- The pieces of a text between spaces. -/
def pieces (t : Text) : List Text := Text.split (· == ' ') t

theorem pieces_space (t : Text) : pieces (' ' :: t) = [] :: pieces t := rfl

theorem pieces_ne_nil (t : Text) : pieces t ≠ [] := by
  cases t with
  | nil => exact List.cons_ne_nil _ _
  | cons c t =>
    simp only [pieces, Text.split, List.foldr_cons]
    split
    · exact List.cons_ne_nil _ _
    · split <;> exact List.cons_ne_nil _ _

theorem pieces_cons (h : c ≠ ' ') (t : Text) :
    ∃ w ws, pieces t = w :: ws ∧ pieces (c :: t) = (c :: w) :: ws := by
  obtain ⟨w, ws, hws⟩ := List.exists_cons_of_ne_nil (pieces_ne_nil t)
  refine ⟨w, ws, hws, ?_⟩
  simp only [pieces, Text.split, List.foldr_cons] at hws ⊢
  rw [hws]
  exact if_neg (by simpa using h)

theorem not_mem_of_mem_pieces (h : w ∈ pieces t) : ' ' ∉ w := by
  induction t generalizing w with
  | nil => rw [List.mem_singleton.mp h]; exact List.not_mem_nil
  | cons c t ih =>
    by_cases hc : c = ' '
    · rw [hc, pieces_space] at h
      rcases List.mem_cons.mp h with rfl | h
      · exact List.not_mem_nil
      · exact ih h
    · obtain ⟨x, xs, hxs, hcons⟩ := pieces_cons hc t
      rw [hcons] at h
      rw [hxs] at ih
      rcases List.mem_cons.mp h with rfl | h
      · exact List.not_mem_cons_of_ne_of_not_mem (Ne.symm hc) (ih List.mem_cons_self)
      · exact ih (List.mem_cons_of_mem x h)

theorem join_cons_cons (v w : Text) (ws : List Text) :
    Text.join [' '] (v :: w :: ws) = v ++ ' ' :: Text.join [' '] (w :: ws) := by
  rw [Text.join, List.intercalate_cons_cons, List.append_assoc]
  rfl

theorem join_singleton (v : Text) : Text.join [' '] [v] = v := List.intercalate_singleton

theorem join_pieces (t : Text) : Text.join [' '] (pieces t) = t := by
  induction t with
  | nil => rfl
  | cons c t ih =>
    by_cases hc : c = ' '
    · obtain ⟨w, ws, hws⟩ := List.exists_cons_of_ne_nil (pieces_ne_nil t)
      rw [hc, pieces_space, hws, join_cons_cons, ← hws, ih]
      rfl
    · obtain ⟨w, ws, hws, hcons⟩ := pieces_cons hc t
      rw [hws] at ih
      rw [hcons, ← ih]
      cases ws with
      | nil => rw [join_singleton, join_singleton]
      | cons x xs => rw [join_cons_cons, join_cons_cons, List.cons_append]

theorem pieces_of_not_mem (h : ' ' ∉ w) : pieces w = [w] := by
  induction w with
  | nil => rfl
  | cons c w ih =>
    obtain ⟨hc, hw⟩ := List.ne_and_not_mem_of_not_mem_cons h
    obtain ⟨x, xs, hxs, hcons⟩ := pieces_cons (Ne.symm hc) w
    rw [ih hw] at hxs
    obtain ⟨rfl, rfl⟩ := List.cons.inj hxs
    exact hcons

theorem pieces_append_space (h : ' ' ∉ w) (t : Text) :
    pieces (w ++ ' ' :: t) = w :: pieces t := by
  induction w with
  | nil => rfl
  | cons c w ih =>
    obtain ⟨hc, hw⟩ := List.ne_and_not_mem_of_not_mem_cons h
    obtain ⟨x, xs, hxs, hcons⟩ := pieces_cons (Ne.symm hc) (w ++ ' ' :: t)
    rw [ih hw] at hxs
    obtain ⟨rfl, rfl⟩ := List.cons.inj hxs
    exact hcons

theorem pieces_join (hne : ws ≠ []) (h : ∀ w ∈ ws, ' ' ∉ w) : pieces (Text.join [' '] ws) = ws := by
  induction ws with
  | nil => exact absurd rfl hne
  | cons w ws ih =>
    obtain ⟨hw, hws⟩ := List.forall_mem_cons.mp h
    cases ws with
    | nil => rw [join_singleton, pieces_of_not_mem hw]
    | cons x xs => rw [join_cons_cons, pieces_append_space hw, ih nofun hws]

/-- A word in its place: every word before it has a space behind it, and every word after it has a
space in front. -/
theorem join_append_cons (xs ys : List Text) (v : Text) : Text.join [' '] (xs ++ v :: ys) =
    xs.flatMap (· ++ [' ']) ++ (v ++ ys.flatMap (' ' :: ·)) := by
  induction xs with
  | nil =>
    show Text.join [' '] (v :: ys) = v ++ ys.flatMap (' ' :: ·)
    induction ys generalizing v with
    | nil => rw [join_singleton, List.flatMap_nil, List.append_nil]
    | cons y ys ih => rw [join_cons_cons, ih, List.flatMap_cons, List.cons_append]
  | cons x xs ih =>
    obtain ⟨y, zs, hzs⟩ := List.exists_cons_of_ne_nil (List.append_ne_nil_of_right_ne_nil xs
      (List.cons_ne_nil v ys))
    rw [List.cons_append, hzs, join_cons_cons, ← hzs, ih]
    simp

/-- What stands in front of a word ends in a space. -/
def EndsGap (front : Text) : Prop := ∀ c ∈ front.getLast?, c = ' '

/-- What stands behind a word begins with a space. -/
def BeginsGap (back : Text) : Prop := ∀ c ∈ back.head?, c = ' '

theorem endsGap_flatMap (xs : List Text) : EndsGap (xs.flatMap (· ++ [' '])) := by
  intro c hc
  rcases List.eq_nil_or_concat' xs with rfl | ⟨ys, x, rfl⟩
  · cases hc
  · rw [List.flatMap_append, List.flatMap_singleton, ← List.append_assoc,
      List.getLast?_concat] at hc
    exact (Option.some.inj hc).symm

theorem beginsGap_flatMap (xs : List Text) : BeginsGap (xs.flatMap (' ' :: ·)) := by
  intro c hc
  cases xs with
  | nil => cases hc
  | cons x xs => exact (Option.some.inj hc).symm

theorem mem_of_mem_pieces {x : Char} (hx : x ∈ w) (h : w ∈ pieces t) : x ∈ t := by
  obtain ⟨xs, ys, hpieces⟩ := List.append_of_mem h
  rw [← join_pieces t, hpieces, join_append_cons]
  simp [hx]

theorem flatMap_append_space (hne : ws ≠ []) :
    ws.flatMap (· ++ [' ']) = Text.join [' '] ws ++ [' '] := by
  induction ws with
  | nil => exact absurd rfl hne
  | cons w ws ih =>
    cases ws with
    | nil => simp [join_singleton]
    | cons x xs =>
      rw [List.flatMap_cons, ih nofun, join_cons_cons]
      simp

theorem flatMap_cons_space (hne : ws ≠ []) :
    ws.flatMap (' ' :: ·) = ' ' :: Text.join [' '] ws := by
  induction ws with
  | nil => exact absurd rfl hne
  | cons w ws ih =>
    cases ws with
    | nil => simp [join_singleton]
    | cons x xs =>
      rw [List.flatMap_cons, ih nofun, join_cons_cons]
      simp

theorem EndsGap.exists_flatMap (h : EndsGap s) :
    ∃ xs : List Text, (∀ x ∈ xs, ' ' ∉ x) ∧ s = xs.flatMap (· ++ [' ']) := by
  rcases List.eq_nil_or_concat' s with rfl | ⟨r, c, rfl⟩
  · exact ⟨[], nofun, rfl⟩
  · obtain rfl := h c List.getLast?_concat
    refine ⟨pieces r, fun x hx => not_mem_of_mem_pieces hx, ?_⟩
    rw [flatMap_append_space (pieces_ne_nil r), join_pieces]

theorem BeginsGap.exists_flatMap (h : BeginsGap s) :
    ∃ xs : List Text, (∀ x ∈ xs, ' ' ∉ x) ∧ s = xs.flatMap (' ' :: ·) := by
  cases s with
  | nil => exact ⟨[], nofun, rfl⟩
  | cons c r =>
    obtain rfl := h c rfl
    refine ⟨pieces r, fun x hx => not_mem_of_mem_pieces hx, ?_⟩
    rw [flatMap_cons_space (pieces_ne_nil r), join_pieces]

/-- Words that stand in a text are pieces of it, and the other pieces do not depend on them. -/
theorem exists_pieces_eq (hs : EndsGap s) (ht : BeginsGap t) :
    ∃ xs ys : List Text, ∀ ws, ws ≠ [] → (∀ w ∈ ws, ' ' ∉ w) →
      pieces (s ++ (Text.join [' '] ws ++ t)) = xs ++ (ws ++ ys) := by
  obtain ⟨xs, hxs, rfl⟩ := hs.exists_flatMap
  obtain ⟨ys, hys, rfl⟩ := ht.exists_flatMap
  refine ⟨xs, ys, fun ws hne hws => ?_⟩
  obtain ⟨v, vs, rfl⟩ := List.exists_cons_of_ne_nil hne
  have hwords : Text.join [' '] (v :: vs) = v ++ vs.flatMap (' ' :: ·) := join_append_cons [] vs v
  have hjoin : xs.flatMap (· ++ [' ']) ++ (Text.join [' '] (v :: vs) ++ ys.flatMap (' ' :: ·)) =
      Text.join [' '] (xs ++ (v :: vs ++ ys)) := by
    rw [hwords, List.cons_append, join_append_cons, List.flatMap_append, List.append_assoc]
  rw [hjoin, pieces_join (by simp)]
  simp only [List.forall_mem_append]
  exact ⟨hxs, hws, hys⟩

theorem pieces_append (s t : Text) : pieces (s ++ ' ' :: t) = pieces s ++ pieces t := by
  induction s with
  | nil => rfl
  | cons c s ih =>
    by_cases hc : c = ' '
    · rw [hc, List.cons_append, pieces_space, ih, pieces_space, List.cons_append]
    · obtain ⟨w, ws, hws, hcons⟩ := pieces_cons hc s
      obtain ⟨x, xs, hxs, hcons'⟩ := pieces_cons hc (s ++ ' ' :: t)
      rw [ih, hws, List.cons_append] at hxs
      obtain ⟨rfl, rfl⟩ := List.cons.inj hxs
      rw [List.cons_append, hcons', hcons, List.cons_append]

/-- A word at the end may go on. -/
theorem pieces_append_of_not_mem {xs : List Text} {u : Text} (h : pieces s = xs ++ [w])
    (hu : ' ' ∉ u) : pieces (s ++ u) = xs ++ [w ++ u] := by
  have hw : ' ' ∉ w := not_mem_of_mem_pieces (t := s) (by rw [h]; simp)
  have hxs : ∀ x ∈ xs, ' ' ∉ x := fun x hx => not_mem_of_mem_pieces (t := s) (by rw [h]; simp [hx])
  have hjoin : s ++ u = Text.join [' '] (xs ++ [w ++ u]) := by
    rw [← join_pieces s, h, join_append_cons, join_append_cons]
    simp
  rw [hjoin, pieces_join (by simp)]
  simp only [List.forall_mem_append, List.forall_mem_singleton]
  exact ⟨hxs, by simp [hw, hu]⟩

/-- What stands behind the beginning of a word belongs to the word. -/
theorem exists_pieces_append (h : ' ' ∉ w) (t : Text) :
    ∃ z ws, pieces (w ++ t) = (w ++ z) :: ws := by
  induction w with
  | nil => exact List.exists_cons_of_ne_nil (pieces_ne_nil t)
  | cons c w ih =>
    obtain ⟨hc, hw⟩ := List.ne_and_not_mem_of_not_mem_cons h
    obtain ⟨z, ws, hz⟩ := ih hw
    obtain ⟨x, xs, hxs, hcons⟩ := pieces_cons (Ne.symm hc) (w ++ t)
    rw [hz] at hxs
    obtain ⟨rfl, rfl⟩ := List.cons.inj hxs
    exact ⟨z, ws, hcons⟩

/-- The last piece of a text that does not end in a space. -/
theorem pieces_concat (h : c ≠ ' ') (s : Text) : ∃ xs w, pieces (s ++ [c]) = xs ++ [w ++ [c]] := by
  induction s with
  | nil => exact ⟨[], [], pieces_of_not_mem (by simpa using h.symm)⟩
  | cons d s ih =>
    obtain ⟨xs, w, hw⟩ := ih
    by_cases hd : d = ' '
    · exact ⟨[] :: xs, w, by rw [hd, List.cons_append, pieces_space, hw, List.cons_append]⟩
    · obtain ⟨x, ys, hys, hcons⟩ := pieces_cons hd (s ++ [c])
      rw [hw] at hys
      rw [List.cons_append, hcons]
      cases xs with
      | nil =>
        obtain ⟨rfl, rfl⟩ := List.cons.inj hys
        exact ⟨[], d :: w, rfl⟩
      | cons y xs =>
        obtain ⟨rfl, rfl⟩ := List.cons.inj hys
        exact ⟨(d :: y) :: xs, w, rfl⟩

/-! ## Repetitions -/

/-- A word repeats the one before it, and may not. -/
def Repeats (v w : Text) : Prop := Text.sameIgnoringCase v w = true ∧ mayRepeat w = false

instance (v w : Text) : Decidable (Repeats v w) := inferInstanceAs (Decidable (_ ∧ _))

/-- A word that repeats the one before it, in its place. -/
structure Repetition (front v w back : Text) : Prop where
  repeats : Repeats v w
  endsGap : EndsGap front
  first : ' ' ∉ v
  second : ' ' ∉ w
  beginsGap : BeginsGap back

/-- The pieces of a text with a repeated word, and without. -/
theorem Repetition.exists_pieces {front back : Text} (hr : Repetition front v w back) :
    ∃ xs ys, pieces (front ++ (v ++ ' ' :: (w ++ back))) = xs ++ v :: w :: ys ∧
      pieces (front ++ (v ++ back)) = xs ++ v :: ys := by
  obtain ⟨xs, ys, hpieces⟩ := exists_pieces_eq hr.endsGap hr.beginsGap
  have htwo := hpieces [v, w] nofun (by simpa using ⟨hr.first, hr.second⟩)
  have hone := hpieces [v] nofun (by simpa using hr.first)
  rw [join_cons_cons, join_singleton, List.append_assoc] at htwo
  rw [join_singleton] at hone
  exact ⟨xs, ys, htwo, hone⟩

theorem withoutRepeats_cons_cons (v w : Text) (ws : List Text) : withoutRepeats (v :: w :: ws) =
    if Text.sameIgnoringCase v w && !mayRepeat w then withoutRepeats (v :: ws)
    else v :: withoutRepeats (w :: ws) := by
  rw [withoutRepeats]

/-- What is kept when one repeated word is taken out is kept when all are. -/
theorem withoutRepeats_induction {P : List Text → Prop}
    (step : ∀ xs v w ys, Repeats v w → P (xs ++ v :: w :: ys) → P (xs ++ v :: ys)) (h : P ws) :
    P (withoutRepeats ws) := by
  have hfront : ∀ xs, P (xs ++ ws) → P (xs ++ withoutRepeats ws) := by
    clear h
    fun_induction withoutRepeats ws with
    | case1 v w ws hrepeat ih =>
      intro xs h
      simp only [Bool.and_eq_true, Bool.not_eq_eq_eq_not, Bool.not_true] at hrepeat
      exact ih xs (step xs v w ws hrepeat h)
    | case2 v w ws _ ih =>
      intro xs h
      have hbehind := ih (xs ++ [v])
      rw [List.append_assoc, List.append_assoc] at hbehind
      exact hbehind h
    | case3 ws => exact fun xs h => h
  exact hfront [] h

theorem avoidRepetition_eq (t : Text) :
    avoidRepetition t = Text.join [' '] (withoutRepeats (pieces t)) := rfl

/-- What a text keeps when a repeated word is taken out. -/
theorem avoidRepetition_induction {P : Text → Prop}
    (step : ∀ front v w back, Repetition front v w back →
      P (front ++ (v ++ ' ' :: (w ++ back))) → P (front ++ (v ++ back))) (h : P t) :
    P (avoidRepetition t) := by
  have hwords : (∀ w ∈ pieces t, ' ' ∉ w) ∧ P (Text.join [' '] (pieces t)) :=
    ⟨fun w hw => not_mem_of_mem_pieces hw, by rwa [join_pieces]⟩
  refine (withoutRepeats_induction
    (P := fun ws => (∀ w ∈ ws, ' ' ∉ w) ∧ P (Text.join [' '] ws)) ?_ hwords).2
  rintro xs v w ys hrepeats ⟨hspaces, hP⟩
  rw [List.forall_mem_append, List.forall_mem_cons, List.forall_mem_cons] at hspaces
  obtain ⟨hxs, hv, hw, hys⟩ := hspaces
  rw [join_append_cons] at hP ⊢
  refine ⟨List.forall_mem_append.mpr ⟨hxs, List.forall_mem_cons.mpr ⟨hv, hys⟩⟩, ?_⟩
  exact step _ v w _ ⟨hrepeats, endsGap_flatMap xs, hv, hw, beginsGap_flatMap ys⟩ hP

theorem exists_withoutRepeats_cons (v : Text) (ws : List Text) :
    ∃ us, withoutRepeats (v :: ws) = v :: us := by
  induction ws with
  | nil => exact ⟨[], by rw [withoutRepeats]; rintro _ _ _ ⟨⟩⟩
  | cons w ws ih =>
    rw [withoutRepeats_cons_cons]
    split
    · exact ih
    · exact ⟨_, rfl⟩

theorem isChain_withoutRepeats (ws : List Text) :
    (withoutRepeats ws).IsChain fun v w => ¬Repeats v w := by
  fun_induction withoutRepeats ws with
  | case1 v w ws _ ih => exact ih
  | case2 v w ws hkeep ih =>
    refine ih.cons fun x hx hrepeats => hkeep ?_
    obtain ⟨us, hus⟩ := exists_withoutRepeats_cons w ws
    rw [hus] at hx
    obtain rfl := Option.some.inj hx
    rw [hrepeats.1, hrepeats.2]
    rfl
  | case3 ws hshape => exact isChain_of_ne_cons_cons hshape

theorem withoutRepeats_of_isChain (h : ws.IsChain fun v w => ¬Repeats v w) :
    withoutRepeats ws = ws := by
  fun_induction withoutRepeats ws with
  | case1 v w ws hrepeat ih =>
    simp only [Bool.and_eq_true, Bool.not_eq_eq_eq_not, Bool.not_true] at hrepeat
    exact absurd hrepeat (List.isChain_cons_cons.mp h).1
  | case2 v w ws _ ih => rw [ih (List.isChain_cons_cons.mp h).2]
  | case3 => rfl

theorem pieces_avoidRepetition (t : Text) :
    pieces (avoidRepetition t) = withoutRepeats (pieces t) := by
  rw [avoidRepetition_eq, pieces_join]
  · obtain ⟨w, ws, hws⟩ := List.exists_cons_of_ne_nil (pieces_ne_nil t)
    obtain ⟨us, hus⟩ := exists_withoutRepeats_cons w ws
    rw [hws, hus]
    exact nofun
  · exact fun w hw => not_mem_of_mem_pieces (withoutRepeats_subset _ hw)

/-- **No word repeats the one before it once repeated words are taken out.** -/
theorem isChain_pieces_avoidRepetition (t : Text) :
    (pieces (avoidRepetition t)).IsChain fun v w => ¬Repeats v w := by
  rw [pieces_avoidRepetition]
  exact isChain_withoutRepeats _

/-- **Where no word repeats the one before it, nothing is taken out.** -/
theorem avoidRepetition_of_isChain (h : (pieces t).IsChain fun v w => ¬Repeats v w) :
    avoidRepetition t = t := by
  rw [avoidRepetition_eq, withoutRepeats_of_isChain h, join_pieces]

/-! ## What repeated words have in common -/

namespace Repeats

/-- Repeated words are the same text up to the case of letters. -/
theorem map_toLower (h : Repeats v w) : v.map Char.toLower = w.map Char.toLower :=
  beq_iff_eq.mp h.1

theorem forall₂ (h : Repeats v w) :
    List.Forall₂ (fun c d => c = d ∨ c.isAlpha = true ∧ d.isAlpha = true) v w := by
  have hmap : List.Forall₂ (· = ·) (v.map Char.toLower) (w.map Char.toLower) :=
    List.forall₂_eq_eq_eq ▸ h.map_toLower
  rw [List.forall₂_map_left_iff, List.forall₂_map_right_iff] at hmap
  exact hmap.imp fun _ _ => eq_or_isAlpha_of_toLower_eq

/-- The last characters are the same up to case. -/
theorem exists_concat (h : (v ++ [c]).map Char.toLower = w.map Char.toLower) :
    ∃ u d, w = u ++ [d] ∧ (c = d ∨ c.isAlpha = true ∧ d.isAlpha = true) := by
  rw [List.map_append] at h
  obtain ⟨u, x, rfl, -, hx⟩ := List.map_eq_append_iff.mp h.symm
  obtain ⟨d, rfl, hd⟩ := List.map_eq_singleton_iff.mp hx
  exact ⟨u, d, rfl, eq_or_isAlpha_of_toLower_eq hd.symm⟩

/-- A word in front of one that ends in a comma, which repeats it, ends in a comma. -/
theorem exists_comma (h : Repeats v (w ++ [','])) : ∃ u, v = u ++ [','] := by
  obtain ⟨u, d, rfl, rfl | halpha⟩ := exists_concat h.map_toLower.symm
  · exact ⟨u, rfl⟩
  · exact absurd halpha.1 (by decide)

/-- Single characters may be repeated. -/
theorem second_size_ne_one (h : Repeats v w) : w.size ≠ 1 := by
  intro hone
  have hmay := h.2
  simp [mayRepeat, hone] at hmay

theorem size_ne_one (h : Repeats v w) : v.size ≠ 1 := by
  have hsize : v.size = w.size := by
    have hletters := h.forall₂
    clear h
    induction hletters with
    | nil => rfl
    | @cons c d v w hcd _ ih =>
      rcases hcd with rfl | ⟨hc, hd⟩
      · rw [Text.size_cons, Text.size_cons, ih]
      · rw [Text.size_cons, Text.size_cons, ih, utf8Size_of_isAlpha hc, utf8Size_of_isAlpha hd]
  exact hsize ▸ h.second_size_ne_one

/-- The empty word may be repeated. -/
theorem ne_nil (h : Repeats v w) : v ≠ [] := by
  rintro rfl
  have hnil : w = [] := List.map_eq_nil_iff.mp h.map_toLower.symm
  rw [hnil] at h
  exact absurd h.2 (by decide)

end Repeats

/-- A neat text is neat without a repeated word. -/
theorem Repetition.neat {front back : Text} (hr : Repetition front v w back)
    (h : Neat (front ++ (v ++ ' ' :: (w ++ back)))) : Neat (front ++ (v ++ back)) := by
  have hv := hr.repeats.ne_nil
  have hvblank : ∀ c ∈ v.getLast?, isBlank c = false := by
    intro c hc
    by_contra hblank
    have hmem := List.mem_of_mem_getLast? hc
    refine hr.first (h.spaces c (by simp [hmem]) (by simpa using hblank) ▸ hmem)
  have hsplit : front ++ (v ++ ' ' :: (w ++ back)) = (front ++ v) ++ (' ' :: w ++ back) := by simp
  have hapart := h.apart
  rw [hsplit] at hapart
  obtain ⟨hfront, hbehind, -⟩ := List.isChain_append.mp hapart
  obtain ⟨-, hback, -⟩ := List.isChain_append.mp hbehind
  refine ⟨fun c hc => h.spaces c ?_, ?_, ?_, ?_⟩
  · simp only [List.mem_append, List.mem_cons] at hc ⊢
    tauto
  · have hhead := h.head
    rwa [← List.append_assoc, List.head?_append_of_ne_nil _ (by simp [hv])] at hhead ⊢
  · intro c hc
    cases back with
    | nil =>
      rw [List.append_nil, List.getLast?_append_of_ne_nil _ hv] at hc
      exact hvblank c hc
    | cons d r =>
      refine h.last c ?_
      rw [← List.append_assoc, List.getLast?_append_of_ne_nil _ (List.cons_ne_nil d r)] at hc
      rw [hsplit, List.getLast?_append_of_ne_nil _ (by simp),
        List.getLast?_append_of_ne_nil _ (List.cons_ne_nil d r)]
      exact hc
  · rw [← List.append_assoc, List.isChain_append]
    refine ⟨hfront, hback, fun x hx y _ hblank => ?_⟩
    rw [List.getLast?_append_of_ne_nil _ hv] at hx
    rw [hvblank x hx] at hblank
    cases hblank

theorem Neat.avoidRepetition (h : Neat t) : Neat (avoidRepetition t) :=
  avoidRepetition_induction (fun _ _ _ _ hr => hr.neat) h

end Polish

end SpokenMath
