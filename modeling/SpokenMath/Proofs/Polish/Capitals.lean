import SpokenMath.Proofs.Polish.Phrases

/-!
# Capitals

A text is **capitalized** if no sentence within it begins with a small letter, nor the text itself
where it ends as a sentence does.

**Theorem (`capitalized_capitalize`, `capitalize_of_capitalized`).** Capitalizing makes a text
capitalized, and leaves a capitalized text as it is.

Nothing else changes: a text with capitals is the same text up to the case of letters
(`lower_capitalize`), and a letter that is small was not raised (`Raised`).
-/

namespace SpokenMath

namespace Polish

variable {c d e : Char} {s t v w : Text} {a : Audience}

/-! ## Sentences that begin with a small letter -/

/-- Where a sentence ends, none begins with a small letter. -/
def BeginsWell (t : Text) : Prop :=
  ∀ f e c b, t = f ++ e :: ' ' :: c :: b → endsSentence e = true → c.isLower = false

/-- A sentence ends with the first word, and the second word begins with no small letter. -/
def Continues (v w : Text) : Prop :=
  v.getLast?.any endsSentence = true → ∀ c ∈ w.head?, c.isLower = false

theorem ne_space_of_endsSentence (h : endsSentence e = true) : e ≠ ' ' := by
  rintro rfl
  exact absurd h (by decide)

theorem ne_space_of_isLower (h : c.isLower = true) : c ≠ ' ' := by
  rintro rfl
  exact absurd h (by decide)

theorem beginsWell_iff : BeginsWell t ↔ (pieces t).IsChain Continues := by
  constructor
  · intro h
    refine List.isChain_iff_forall_rel_of_append_cons_cons.mpr fun v w xs ys hpieces hv c hc => ?_
    obtain ⟨e, he, hend⟩ := (Option.any_eq_true _ _).mp hv
    obtain ⟨u, rfl⟩ := List.getLast?_eq_some_iff.mp he
    obtain ⟨w', rfl⟩ := List.head?_eq_some_iff.mp hc
    refine h (xs.flatMap (· ++ [' ']) ++ u) e c (w' ++ ys.flatMap (' ' :: ·)) ?_ hend
    rw [← join_pieces t, hpieces, join_append_cons]
    simp
  · rintro h f e c b rfl hend
    by_contra hlower
    have hc : c ≠ ' ' := ne_space_of_isLower (by simpa using hlower)
    obtain ⟨xs, w, hw⟩ := pieces_concat (ne_space_of_endsSentence hend) f
    obtain ⟨x, ys, -, hx⟩ := pieces_cons hc b
    have hpieces : pieces (f ++ e :: ' ' :: c :: b) = xs ++ (w ++ [e]) :: (c :: x) :: ys := by
      rw [show f ++ e :: ' ' :: c :: b = (f ++ [e]) ++ ' ' :: c :: b by simp, pieces_append, hw, hx]
      simp
    refine hlower (List.isChain_iff_forall_rel_of_append_cons_cons.mp h hpieces ?_ c rfl)
    rw [List.getLast?_concat]
    exact hend

theorem BeginsWell.tail (h : BeginsWell (c :: t)) : BeginsWell t :=
  fun f e d b hsplit => h (c :: f) e d b (by rw [hsplit]; rfl)

/-! ## Capitals inside a text -/

theorem head?_capitalizeInside (t : Text) : (capitalizeInside t).head? = t.head? := by
  fun_cases capitalizeInside t <;> rfl

/-- A character is copied unless it ends a sentence and the next one begins with a small letter. -/
theorem capitalizeInside_cons
    (h : ∀ c r, t = ' ' :: c :: r → endsSentence e = true → c.isLower = false) :
    capitalizeInside (e :: t) = e :: capitalizeInside t := by
  conv_lhs => unfold capitalizeInside
  split
  · next e' c r heq =>
    obtain ⟨rfl, rfl⟩ := List.cons.inj heq
    rw [if_neg]
    simpa using h c r rfl
  · next heq =>
    obtain ⟨rfl, rfl⟩ := List.cons.inj heq
    rfl
  · next heq => cases heq

theorem capitalizeInside_space (t : Text) :
    capitalizeInside (' ' :: t) = ' ' :: capitalizeInside t :=
  capitalizeInside_cons fun _ _ _ hend => absurd hend (by decide)

theorem capitalizeInside_of_beginsWell (h : BeginsWell t) : capitalizeInside t = t := by
  induction t with
  | nil => rfl
  | cons e t ih => rw [capitalizeInside_cons fun c r ht => h [] e c r (by rw [ht]; rfl), ih h.tail]

/-- A character in front of a text in which sentences begin well. -/
theorem BeginsWell.cons (h : BeginsWell t)
    (hfront : endsSentence e = true → ∀ c b, t = ' ' :: c :: b → c.isLower = false) :
    BeginsWell (e :: t) := by
  intro f e' c b hsplit hend
  cases f with
  | nil =>
    obtain ⟨rfl, ht⟩ := List.cons.inj hsplit
    exact hfront hend c b ht
  | cons x f => exact h f e' c b (List.cons.inj hsplit).2 hend

theorem beginsWell_capitalizeInside (t : Text) : BeginsWell (capitalizeInside t) := by
  fun_induction capitalizeInside t with
  | case1 e c t hraise ih =>
    simp only [Bool.and_eq_true] at hraise
    have hcapital : BeginsWell (c.toUpper :: capitalizeInside t) := by
      refine ih.cons fun hend => ?_
      rw [endsSentence_of_isAlpha (isAlpha_toUpper hraise.2)] at hend
      cases hend
    refine (hcapital.cons fun hend => absurd hend (by decide)).cons fun _ d b heq => ?_
    obtain ⟨rfl, -⟩ := List.cons.inj (List.cons.inj heq).2
    exact Char.isLower_toUpper_eq_false c
  | case2 e c t hkeep ih =>
    refine ih.cons fun hend d b heq => ?_
    rw [capitalizeInside_space] at heq
    have hhead := head?_capitalizeInside (c :: t)
    rw [(List.cons.inj heq).2] at hhead
    obtain rfl := Option.some.inj hhead
    simpa [hend] using hkeep
  | case3 e t hshape ih =>
    refine ih.cons fun _ d b heq => ?_
    have hhead := head?_capitalizeInside t
    rw [heq] at hhead
    obtain ⟨r, rfl⟩ := List.head?_eq_some_iff.mp hhead.symm
    cases r with
    | nil =>
      rw [capitalizeInside_cons fun _ _ hnil => by cases hnil] at heq
      cases heq
    | cons y r => exact (hshape y r rfl).elim
  | case4 => exact fun f e c b hsplit => by simp at hsplit

/-! ## Capitalized texts -/

/-- Every sentence begins with no small letter, the first one if the text ends as a sentence. -/
structure Capitalized (t : Text) : Prop where
  inside : BeginsWell t
  first : t.getLast?.any endsSentence = true → ∀ c ∈ t.head?, c.isLower = false

/-- **Capitalizing makes a text capitalized.** -/
theorem capitalized_capitalize (t : Text) : Capitalized (capitalize t) := by
  have hinside := beginsWell_capitalizeInside t
  unfold capitalize
  split
  · exact ⟨fun f e c b hsplit => by simp at hsplit, fun _ c hc => absurd hc (Option.not_mem_none c)⟩
  · next c r heq =>
    rw [heq] at hinside
    split
    · refine ⟨hinside.tail.cons fun hend d b hr => ?_, fun _ d hd => ?_⟩
      · refine hinside [] c d b (by rw [hr]; rfl) ?_
        by_cases hlower : c.isLower = true
        · rw [endsSentence_of_isAlpha (isAlpha_toUpper hlower)] at hend
          cases hend
        · rwa [Char.toUpper_eq_of_not_isLower hlower] at hend
      · obtain rfl := Option.some.inj hd
        exact Char.isLower_toUpper_eq_false c
    · next hfragment => exact ⟨hinside, fun hend => absurd hend hfragment⟩

/-- **A capitalized text is left as it is.** -/
theorem capitalize_of_capitalized (h : Capitalized t) : capitalize t = t := by
  rw [capitalize, capitalizeInside_of_beginsWell h.inside]
  split
  · rfl
  · next c r =>
    split
    · next hend =>
      rw [Char.toUpper_eq_of_not_isLower (ne_true_of_eq_false (h.first hend c rfl))]
    · rfl

/-! ## Raised letters -/

/-- A character, or the capital of a small letter. -/
def Raised (c d : Char) : Prop := d = c ∨ c.isLower = true ∧ d = c.toUpper

theorem raised_toUpper (c : Char) : Raised c c.toUpper := by
  cases hc : c.isLower with
  | true => exact .inr ⟨hc, rfl⟩
  | false => exact .inl (Char.toUpper_eq_of_not_isLower (ne_true_of_eq_false hc))

theorem forall₂_raised_capitalizeInside (t : Text) :
    List.Forall₂ Raised t (capitalizeInside t) := by
  fun_induction capitalizeInside t with
  | case1 e c t _ ih => exact .cons (.inl rfl) (.cons (.inl rfl) (.cons (raised_toUpper c) ih))
  | case2 e c t _ ih => exact .cons (.inl rfl) ih
  | case3 e t _ ih => exact .cons (.inl rfl) ih
  | case4 => exact .nil

/-- Capitalizing raises letters and changes nothing else. -/
theorem forall₂_raised_capitalize (t : Text) : List.Forall₂ Raised t (capitalize t) := by
  have hinside := forall₂_raised_capitalizeInside t
  unfold capitalize
  split
  · next heq => rwa [heq] at hinside
  · next c r heq =>
    rw [heq] at hinside
    split
    · obtain ⟨d, t', hd, ht', rfl⟩ := List.forall₂_cons_right_iff.mp hinside
      refine .cons ?_ ht'
      rcases hd with rfl | ⟨hlower, rfl⟩
      · exact raised_toUpper c
      · rw [Char.toUpper_toUpper_eq_toUpper]
        exact .inr ⟨hlower, rfl⟩
    · exact hinside

theorem Raised.toLower_eq (h : Raised c d) : c.toLower = d.toLower := by
  rcases h with rfl | ⟨-, rfl⟩
  · rfl
  · rw [Char.toLower_toUpper_eq_toLower]

/-- What is no capital was not raised. -/
theorem Raised.eq_of_not_isUpper (h : Raised c d) (hd : d.isUpper = false) : d = c := by
  rcases h with rfl | ⟨hlower, rfl⟩
  · rfl
  · rw [Char.isUpper_toUpper_eq_isAlpha, isAlpha_of_isLower hlower] at hd
    cases hd

theorem lower_capitalize (t : Text) : Text.lower (capitalize t) = Text.lower t := by
  have hraised := forall₂_raised_capitalize t
  unfold Text.lower
  generalize capitalize t = s at hraised
  induction hraised with
  | nil => rfl
  | cons hcd _ ih => rw [List.map_cons, List.map_cons, ih, hcd.toLower_eq]

/-! ## What capitals keep -/

theorem isBlank_congr (h : c.toLower = d.toLower) : isBlank c = isBlank d := by
  rcases eq_or_isAlpha_of_toLower_eq h with rfl | ⟨hc, hd⟩
  · rfl
  · rw [isBlank_of_isAlpha hc, isBlank_of_isAlpha hd]

theorem closesUp_congr (h : c.toLower = d.toLower) : closesUp c = closesUp d := by
  rcases eq_or_isAlpha_of_toLower_eq h with rfl | ⟨hc, hd⟩
  · rfl
  · rw [closesUp_of_isAlpha hc, closesUp_of_isAlpha hd]

theorem neat_lower : Neat (Text.lower t) ↔ Neat t := by
  have hblank : ∀ c : Char, isBlank c.toLower = isBlank c := fun c =>
    isBlank_congr (Char.toLower_toLower_eq_toLower c)
  have hcloses : ∀ c : Char, closesUp c.toLower = closesUp c := fun c =>
    closesUp_congr (Char.toLower_toLower_eq_toLower c)
  have hspace : ∀ c : Char, c.toLower = ' ' ↔ c = ' ' := fun c =>
    ⟨fun h => sameLetter_space (by simp [sameLetter, h]), fun h => by rw [h]; rfl⟩
  have hiff : ∀ s : Text, Neat s ↔ (∀ c ∈ s, isBlank c = true → c = ' ') ∧
      (∀ c ∈ s.head?, isBlank c = false) ∧ (∀ c ∈ s.getLast?, isBlank c = false) ∧
        s.IsChain fun c d => isBlank c = true → isBlank d = false ∧ closesUp d = false :=
    fun s => ⟨fun h => ⟨h.spaces, h.head, h.last, h.apart⟩, fun h => ⟨h.1, h.2.1, h.2.2.1, h.2.2.2⟩⟩
  rw [hiff, hiff, Text.lower, List.isChain_map, List.head?_map, List.getLast?_map]
  simp [hblank, hcloses, hspace]

/-- A text is neat whatever the case of its letters. -/
theorem Neat.congr (h : Neat s) (hst : Text.lower s = Text.lower t) : Neat t :=
  neat_lower.mp (hst ▸ neat_lower.mpr h)

theorem eq_of_forall₂_raised (h : List.Forall₂ Raised s t) (ht : ∀ d ∈ t, d.isUpper = false) :
    t = s := by
  induction h with
  | nil => rfl
  | cons hcd _ ih =>
    obtain ⟨hd, ht⟩ := List.forall_mem_cons.mp ht
    rw [hcd.eq_of_not_isUpper hd, ih ht]

/-- Capitals make no differential without a pause. -/
theorem pauseBeforeDifferential_capitalize (h : pauseBeforeDifferential t = t) :
    pauseBeforeDifferential (capitalize t) = capitalize t := by
  refine pauseBeforeDifferential_eq_iff.mpr fun f c y tail hd => ?_
  have hraised := forall₂_raised_capitalize t
  rw [hd.eq] at hraised
  obtain ⟨f₀, r, rfl, -, hr⟩ := exists_append_of_forall₂ hraised
  simp only [List.forall₂_cons_right_iff] at hr
  obtain ⟨c₀, _, hc, ⟨x₁, _, h₁, ⟨x₂, _, h₂, ⟨x₃, _, h₃, ⟨y₀, tail₀, hy, htail, rfl⟩, rfl⟩, rfl⟩,
    rfl⟩, rfl⟩ := hr
  obtain rfl := h₁.eq_of_not_isUpper (by decide)
  obtain rfl := h₂.eq_of_not_isUpper (by decide)
  obtain rfl := h₃.eq_of_not_isUpper (by decide)
  have hend : ∀ e, endsSentence e = true → e.isUpper = false := by
    intro e he
    simp only [endsSentence, Bool.or_eq_true, beq_iff_eq] at he
    rcases he with (rfl | rfl) | rfl <;> rfl
  obtain rfl : tail = tail₀ := by
    refine eq_of_forall₂_raised htail ?_
    rcases hd.tail with rfl | ⟨e, he, rfl | rfl⟩
    · exact List.forall_mem_nil _
    · simpa using hend e he
    · simpa using hend e he
  have hletter : y₀.isAlpha = true := by
    rcases hy with rfl | ⟨hlower, -⟩
    · exact hd.letter
    · exact isAlpha_of_isLower hlower
  obtain rfl := pauseBeforeDifferential_eq_iff.mp h f₀ c₀ y₀ tail ⟨rfl, hletter, hd.tail⟩
  exact hc.resolve_right fun hlower => absurd hlower.1 (by decide)

/-! ## What keeps capitals -/

/-- A word that repeats one with which a sentence ends does so as well. -/
theorem Repeats.endsSentence (hr : Repeats v w)
    (hv : v.getLast?.any Polish.endsSentence = true) :
    w.getLast?.any Polish.endsSentence = true := by
  obtain ⟨e, he, hend⟩ := (Option.any_eq_true _ _).mp hv
  obtain ⟨u, rfl⟩ := List.getLast?_eq_some_iff.mp he
  obtain ⟨u', d, rfl, rfl | halpha⟩ := Repeats.exists_concat hr.map_toLower
  · rw [List.getLast?_concat]
    exact hend
  · rw [endsSentence_of_isAlpha halpha.1] at hend
    cases hend

theorem Capitalized.repetition {front back : Text} (hr : Repetition front v w back)
    (h : Capitalized (front ++ (v ++ ' ' :: (w ++ back)))) :
    Capitalized (front ++ (v ++ back)) := by
  have hne := hr.repeats.ne_nil
  obtain ⟨xs, ys, hold, hnew⟩ := hr.exists_pieces
  constructor
  · have hinside := beginsWell_iff.mp h.inside
    rw [hold] at hinside
    rw [beginsWell_iff, hnew]
    obtain ⟨hfront, hbehind, hjoint⟩ := List.isChain_append.mp hinside
    refine List.isChain_append.mpr ⟨hfront, hbehind.tail.tail.cons fun y hy hv => ?_, hjoint⟩
    exact (List.isChain_cons.mp hbehind.tail).1 y hy (hr.repeats.endsSentence hv)
  · intro hend c hc
    refine h.first ?_ c ?_
    · cases back with
      | nil =>
        rw [List.append_nil, List.getLast?_append_of_ne_nil _ hne] at hend
        have hw := hr.repeats.endsSentence hend
        have hsplit : front ++ (v ++ ' ' :: (w ++ [])) = (front ++ v ++ [' ']) ++ w := by simp
        have hwne : w ≠ [] := by
          rintro rfl
          cases hw
        rwa [hsplit, List.getLast?_append_of_ne_nil _ hwne]
      | cons d r =>
        have hsplit : front ++ (v ++ ' ' :: (w ++ d :: r)) =
            (front ++ v ++ ' ' :: w) ++ d :: r := by simp
        rw [← List.append_assoc, List.getLast?_append_of_ne_nil _ (List.cons_ne_nil d r)] at hend
        rwa [hsplit, List.getLast?_append_of_ne_nil _ (List.cons_ne_nil d r)]
    · rwa [← List.append_assoc, List.head?_append_of_ne_nil _ (by simp [hne])] at hc ⊢

theorem Capitalized.paused (h : Capitalized s) (hs : Paused s t) : Capitalized t := by
  constructor
  · rw [beginsWell_iff]
    refine isChain_of_forall₂ hs.forall₂_pieces ?_ (beginsWell_iff.mp h.inside)
    rintro v v' w w' hv hw hkeep hend c hc
    rcases hv with rfl | rfl
    · rcases hw with rfl | rfl
      · exact hkeep hend c hc
      · cases w with
        | nil =>
          obtain rfl := Option.some.inj hc
          decide
        | cons d w => exact hkeep hend c hc
    · rw [List.getLast?_concat] at hend
      exact absurd hend (by decide)
  · intro hend c hc
    rw [hs.getLast?] at hend
    rcases hs.head? with hsame | ⟨hcomma, -⟩
    · exact h.first hend c (hsame ▸ hc)
    · rw [hcomma] at hc
      obtain rfl := Option.some.inj hc
      decide

end Polish

end SpokenMath
