import SpokenMath.Proofs.Polish.Pauses

/-!
# Pauses in front of powers

A quantity that is named as such gets a pause in front of its power (`Power`). Pauses are made from
left to right, so a power whose quantity begins in the words `to the` of the power before it gets
none at first: in `the quantity x to the quantity y squared` it is the first power that gets a
pause, and only a second time does the other one.

**Theorem (`Power.of_pauseAfterQuantity`).** Every power that is left without a pause is of that
kind.

**Theorem (`PowersBehind.pauseAfterQuantity`).** A second time leaves none.

**Theorem (`RepeatsPauses.avoidRepetition`).** Taking out the repeated words that come with pauses
makes no powers.
-/

namespace SpokenMath

namespace Polish

variable {c : Char} {s t : Text}

/-- A quantity with a power at the front of a text, and no comma between them. -/
structure Power (t q w rest : Text) : Prop where
  eq : t = quantityMark ++ (q ++ ' ' :: (w ++ rest))
  ne_nil : q ≠ []
  comma : ',' ∉ q
  word : w ∈ powerWords
  ends : wordEnds rest = true

/-! ## Finding a power -/

theorem powerWord?_ne_none {w rest : Text} (hw : w ∈ powerWords) (hrest : wordEnds rest = true) :
    powerWord? (w ++ rest) ≠ none := by
  intro hnone
  have hword := List.findSome?_eq_none_iff.mp hnone w hw
  simp [Text.dropPrefix?_append, hrest] at hword

theorem of_powerWord? {w rest : Text} (h : powerWord? t = some (w, rest)) :
    t = w ++ rest ∧ w ∈ powerWords ∧ wordEnds rest = true := by
  refine ⟨append_of_powerWord? h, ?_⟩
  obtain ⟨v, hv, hsome⟩ := List.exists_of_findSome?_eq_some h
  split at hsome
  · split at hsome
    · next hends =>
      cases hsome
      exact ⟨hv, hends⟩
    · cases hsome
  · cases hsome

/-- A power that is found, and that there is none before it. -/
structure Found (read t q w rest : Text) : Prop where
  eq : ∃ q', q = read.reverse ++ q' ∧ t = q' ++ ' ' :: (w ++ rest) ∧ ',' ∉ q'
  ne_nil : q ≠ []
  word : w ∈ powerWords
  ends : wordEnds rest = true
  first : ∀ q₁ w₁ z, q = q₁ ++ ' ' :: (w₁ ++ z) → read.length ≤ q₁.length → q₁ ≠ [] →
    w₁ ∈ powerWords → wordEnds (z ++ [' ']) = false

theorem wordEnds_append_space (z t : Text) : wordEnds (z ++ ' ' :: t) = wordEnds (z ++ [' ']) := by
  cases z <;> rfl

theorem found_of_findPower {read t q w rest : Text} (h : findPower read t = some (q, w, rest)) :
    Found read t q w rest := by
  induction t generalizing read with
  | nil => cases h
  | cons c t ih =>
    unfold findPower at h
    split at h
    · cases h
    · next hcomma =>
      split at h
      · next w rest hword =>
        cases h
        split at hword
        · next hspace =>
          obtain ⟨rfl, hmem, hends⟩ := of_powerWord? hword
          refine ⟨⟨[], by simp, by rw [hspace.1]; rfl, nofun⟩, by simpa using hspace.2, hmem,
            hends, ?_⟩
          intro q₁ w₁ z hq hlength
          have hle := congrArg List.length hq
          simp only [List.length_reverse, List.length_append, List.length_cons] at hle
          omega
        · cases hword
      · next hnone =>
        obtain ⟨⟨q', rfl, rfl, hq'⟩, hne, hmem, hends, hfirst⟩ := ih h
        refine ⟨⟨c :: q', by simp, rfl, ?_⟩, hne, hmem, hends, ?_⟩
        · exact List.not_mem_cons_of_ne_of_not_mem (Ne.symm hcomma) hq'
        · intro q₁ w₁ z hq hlength hq₁ hw₁
          by_contra hz
          rw [Bool.not_eq_false] at hz
          rcases Nat.lt_or_ge read.length q₁.length with hlt | hge
          · have hcontra := hfirst q₁ w₁ z hq (by simpa [Nat.succ_le_iff] using hlt) hq₁ hw₁
            rw [hz] at hcontra
            cases hcontra
          · -- The power would begin right here.
            have hsplit : q₁ = read.reverse ∧ ' ' :: (w₁ ++ z) = c :: q' := by
              refine (List.append_inj ?_ ?_)
              · rw [← hq]
                simp
              · simp only [List.length_reverse]
                omega
            obtain ⟨rfl, hrest⟩ := hsplit
            obtain ⟨rfl, rfl⟩ := List.cons.inj hrest
            rw [if_pos ⟨rfl, by simpa using hq₁⟩, List.append_assoc] at hnone
            refine powerWord?_ne_none hw₁ ?_ hnone
            rw [wordEnds_append_space, hz]

theorem findPower_ne_none {read q w rest : Text} (hne : read ≠ [] ∨ q ≠ []) (hq : ',' ∉ q)
    (hw : w ∈ powerWords) (hrest : wordEnds rest = true) :
    findPower read (q ++ ' ' :: (w ++ rest)) ≠ none := by
  induction q generalizing read with
  | nil =>
    have hread : read ≠ [] := by simpa using hne
    rw [List.nil_append, findPower, if_neg (by decide), if_pos ⟨rfl, hread⟩]
    split
    · exact Option.some_ne_none _
    · next hnone => exact absurd hnone (powerWord?_ne_none hw hrest)
  | cons c q ih =>
    obtain ⟨hc, hq⟩ := List.ne_and_not_mem_of_not_mem_cons hq
    rw [List.cons_append, findPower, if_neg (Ne.symm hc)]
    split
    · exact Option.some_ne_none _
    · exact ih (.inl (List.cons_ne_nil c read)) hq

theorem Power.isSome {q w rest : Text} (h : Power t q w rest) : quantityPower? t ≠ none := by
  intro hnone
  rw [h.eq, quantityPower?, Text.dropPrefix?_append] at hnone
  have hfound : findPower [] (q ++ ' ' :: (w ++ rest)) ≠ none :=
    findPower_ne_none (.inr h.ne_nil) h.comma h.word h.ends
  obtain ⟨⟨q', w', rest'⟩, hsome⟩ := Option.ne_none_iff_exists'.mp hfound
  simp [hsome] at hnone

/-- The power that gets a pause. -/
theorem exists_power {part rest : Text} (h : quantityPower? t = some (part, rest)) :
    ∃ q w, Power t q w rest ∧ part = quantityMark ++ (q ++ ',' :: ' ' :: w) ∧
      ∀ q₁ w₁ z, q = q₁ ++ ' ' :: (w₁ ++ z) → q₁ ≠ [] → w₁ ∈ powerWords →
        wordEnds (z ++ [' ']) = false := by
  simp only [quantityPower?, Option.bind_eq_bind, Option.bind_eq_some_iff] at h
  obtain ⟨inside, hinside, ⟨q, w, r⟩, hpower, h⟩ := h
  cases h
  obtain ⟨⟨q', hq, rfl, hq'⟩, hne, hword, hends, hfirst⟩ := found_of_findPower hpower
  obtain rfl : q = q' := hq
  refine ⟨q, w, ⟨Text.dropPrefix?_eq_some_iff.mp hinside, hne, hq', hword, hends⟩, ?_, ?_⟩
  · rw [List.append_assoc, List.append_assoc]
    rfl
  · exact fun q₁ w₁ z heq => hfirst q₁ w₁ z heq (Nat.zero_le _)

theorem paused_pauseAfterQuantity (t : Text) : Paused t (pauseAfterQuantity t) := by
  fun_induction pauseAfterQuantity t with
  | case1 => exact .nil
  | case2 c t part rest hq ih =>
    obtain ⟨q, w, hpower, rfl, -⟩ := exists_power hq
    rw [hpower.eq, List.append_assoc, List.append_assoc]
    exact (Paused.pause (ih.append_left w)).append_left q |>.append_left quantityMark
  | case3 c t _ ih => exact .keep c ih

theorem Power.comma_front {q w rest : Text} (h : Power t q w rest) :
    ',' ∉ quantityMark ++ (q ++ ' ' :: w) := by
  have hmark : ',' ∉ quantityMark := by decide
  have hwords : ∀ w ∈ powerWords, ',' ∉ w := by decide
  simp [hmark, h.comma, hwords w h.word]

theorem Power.eq_front {q w rest : Text} (h : Power t q w rest) :
    t = (quantityMark ++ (q ++ ' ' :: w)) ++ rest := by
  rw [h.eq]
  simp

/-- A power stands in front of the next comma. -/
theorem Power.before_comma {r u q w rest : Text} (h : Power (r ++ ',' :: u) q w rest) :
    ∃ z, r = (quantityMark ++ (q ++ ' ' :: w)) ++ z ∧ rest = z ++ ',' :: u := by
  rcases List.append_eq_append_iff.mp h.eq_front with ⟨z, hz, hrest⟩ | ⟨z, hz, hrest⟩
  · cases z with
    | nil => exact ⟨[], by simpa using hz.symm, hrest.symm⟩
    | cons d z =>
      obtain ⟨rfl, -⟩ := List.cons.inj hrest
      exact absurd (by rw [hz]; simp) h.comma_front
  · exact ⟨z, hz, hrest⟩

/-- It does not depend on what stands behind that comma. -/
theorem Power.change_behind {r u q w rest : Text} (h : Power (r ++ ',' :: u) q w rest) (u' : Text) :
    ∃ rest', Power (r ++ ',' :: u') q w rest' := by
  obtain ⟨z, rfl, rfl⟩ := h.before_comma
  refine ⟨z ++ ',' :: u', by simp, h.ne_nil, h.comma, h.word, ?_⟩
  have hends := h.ends
  cases z with
  | nil => rfl
  | cons d z => exact hends

/-- A text with a power, if pauses elsewhere are left out. -/
theorem Power.of_paused {q w rest : Text} (h : Power t q w rest) (hs : Paused s t) :
    ∃ rest', Power s q w rest' := by
  obtain ⟨rest', rfl, hrest⟩ := (h.eq_front ▸ hs).front h.comma_front
  refine ⟨rest', by simp, h.ne_nil, h.comma, h.word, ?_⟩
  rw [← hrest.wordEnds_eq]
  exact h.ends

/-- Without powers no pauses are made. -/
theorem pauseAfterQuantity_of_forall (h : ∀ f b, t = f ++ b → ∀ q w rest, ¬Power b q w rest) :
    pauseAfterQuantity t = t := by
  fun_induction pauseAfterQuantity t with
  | case1 => rfl
  | case2 c t part rest hq ih =>
    obtain ⟨q, w, hpower, -⟩ := exists_power hq
    exact absurd hpower (h [] _ rfl q w rest)
  | case3 c t _ ih => rw [ih fun f b hb => h (c :: f) b (by rw [hb]; rfl)]

/-- What stands before a power that is left without a pause: the end of a pause, and the first
words of another power. -/
def pausedTo : Text := ", to ".toList

/-- The mark of a quantity begins within a word of a power only as the end of `to the`. -/
theorem eq_of_powerWord_append {w f r u v : Text} (hw : w ∈ powerWords) (hr : r ≠ [])
    (hsplit : w = f ++ r) (hmark : r ++ u = quantityMark ++ v) :
    f = "to ".toList ∧ r = "the".toList := by
  have htable : ∀ w ∈ powerWords, ∀ n < w.length,
      w.drop n = quantityMark.take (w.length - n) →
        w.take n = "to ".toList ∧ w.drop n = "the".toList := by decide
  have hlengths : ∀ w ∈ powerWords, w.length ≤ quantityMark.length := by decide
  have hlength : w.length = f.length + r.length := by rw [hsplit, List.length_append]
  have htake : w.take f.length = f := by rw [hsplit, List.take_left]
  have hdrop : w.drop f.length = r := by rw [hsplit, List.drop_left]
  have hprefix : r = quantityMark.take r.length := by
    have hboth := congrArg (List.take r.length) hmark
    have hle := hlengths w hw
    rwa [List.take_left, List.take_append_of_le_length (by omega)] at hboth
  have hpos := List.length_pos_iff.mpr hr
  have hfound := htable w hw f.length (by omega)
    (by rw [hdrop, show w.length - f.length = r.length by omega, ← hprefix])
  rwa [htake, hdrop] at hfound

/-- Within a pause and the word behind it, a power begins only in `to the`. -/
theorem Power.in_pause {w₀ a r u q w rest : Text} (h : Power (r ++ u) q w rest)
    (hw₀ : w₀ ∈ powerWords) (hsplit : ',' :: ' ' :: w₀ = a ++ r) :
    r = [] ∨ a = pausedTo ∧ r = "the".toList := by
  match a with
  | [] =>
    obtain rfl : ',' :: ' ' :: w₀ = r := hsplit
    cases h.eq
  | [x] =>
    obtain rfl : ' ' :: w₀ = r := (List.cons.inj hsplit).2
    cases h.eq
  | x :: y :: a =>
    obtain ⟨hx, hbehind⟩ := List.cons.inj hsplit
    obtain ⟨hy, hword⟩ := List.cons.inj hbehind
    cases r with
    | nil => exact .inl rfl
    | cons d r =>
      obtain ⟨rfl, hthe⟩ := eq_of_powerWord_append hw₀ (List.cons_ne_nil d r) hword h.eq
      rw [← hx, ← hy]
      exact .inr ⟨rfl, hthe⟩

/-- Within a quantity, and at its front, there is no other power than its own. -/
theorem not_power_of_first {q₀ f r u q w rest : Text}
    (hfirst : ∀ q₁ w₁ z, q₀ = q₁ ++ ' ' :: (w₁ ++ z) → q₁ ≠ [] → w₁ ∈ powerWords →
      wordEnds (z ++ [' ']) = false)
    (hsplit : quantityMark ++ q₀ = f ++ r) : ¬Power (r ++ ',' :: u) q w rest := by
  intro h
  obtain ⟨z, rfl, rfl⟩ := h.before_comma
  have hends : wordEnds (z ++ [' ']) = true := by
    have hends := h.ends
    cases z with
    | nil => rfl
    | cons d z => exact hends
  have hinside : quantityMark ++ q₀ = (f ++ (quantityMark ++ q)) ++ ' ' :: (w ++ z) := by
    rw [hsplit]
    simp
  rcases List.append_eq_append_iff.mp hinside with ⟨q₁, hq₁, hq₀⟩ | ⟨q₁, hq₁, -⟩
  · have hne : q₁ ≠ [] := by
      rintro rfl
      have hlength := congrArg List.length hq₁
      have hpos := List.length_pos_iff.mpr h.ne_nil
      simp only [List.length_append, List.length_nil] at hlength
      omega
    rw [hfirst q₁ w z hq₀ hne h.word] at hends
    cases hends
  · have hlength := congrArg List.length hq₁
    have hpos := List.length_pos_iff.mpr h.ne_nil
    simp only [List.length_append] at hlength
    omega

/-- **A power that is left without a pause stands behind the pause of another power**, and stood
behind the quantity of that one. -/
theorem Power.of_pauseAfterQuantity {f b q w rest : Text} (h : Power b q w rest)
    (hsplit : pauseAfterQuantity t = f ++ b) :
    ∃ f₁ f₀ b₀ c, f = f₁ ++ pausedTo ∧ t = (f₀ ++ c :: " to ".toList) ++ b₀ ∧ c ≠ ',' ∧
      ∃ q w rest, Power b₀ q w rest := by
  fun_induction pauseAfterQuantity t generalizing f with
  | case1 =>
    obtain ⟨rfl, rfl⟩ := List.append_eq_nil_iff.mp hsplit.symm
    cases h.eq
  | case2 c t part rest₀ hq ih =>
    obtain ⟨q₀, w₀, hpower, rfl, hfirst⟩ := exists_power hq
    -- What was behind the power that gets its pause.
    have hbehind : ∀ f', pauseAfterQuantity rest₀ = f' ++ b →
        ∃ f₁ f₀ b₀ c', quantityMark ++ (q₀ ++ ',' :: ' ' :: w₀) ++ f' = f₁ ++ pausedTo ∧
          c :: t = (f₀ ++ c' :: " to ".toList) ++ b₀ ∧ c' ≠ ',' ∧
            ∃ q w rest, Power b₀ q w rest := by
      intro f' hf'
      obtain ⟨f₁, f₀, b₀, c', rfl, hrest, hc, hb⟩ := ih hf'
      refine ⟨quantityMark ++ (q₀ ++ ',' :: ' ' :: w₀) ++ f₁,
        quantityMark ++ (q₀ ++ ' ' :: w₀) ++ f₀, b₀, c', by simp, ?_, hc, hb⟩
      rw [hpower.eq, hrest]
      simp
    rcases List.append_eq_append_iff.mp hsplit with ⟨f', rfl, hf'⟩ | ⟨r, hpart, hb⟩
    · exact hbehind f' hf'
    · rw [← List.append_assoc] at hpart
      rcases List.append_eq_append_iff.mp hpart with ⟨a, rfl, hpause⟩ | ⟨r', hquantity, rfl⟩
      · rcases (hb ▸ h).in_pause hpower.word hpause with rfl | ⟨rfl, rfl⟩
        · have hagain := hbehind [] hb.symm
          rwa [List.append_nil, ← List.append_assoc, hpause, List.append_nil] at hagain
        · obtain ⟨q₁, c', rfl⟩ : ∃ q₁ c', q₀ = q₁ ++ [c'] :=
            ⟨_, _, (List.dropLast_concat_getLast hpower.ne_nil).symm⟩
          have hc : c' ≠ ',' := fun hc => hpower.comma (by simp [hc])
          have hpaused : Paused ("the".toList ++ rest₀) b := by
            rw [hb]
            exact (paused_pauseAfterQuantity rest₀).append_left _
          obtain ⟨rest', hthe⟩ := h.of_paused hpaused
          have hword : w₀ = "to ".toList ++ "the".toList :=
            (List.cons.inj (List.cons.inj hpause).2).2
          refine ⟨_, quantityMark ++ q₁, _, c', rfl, ?_, hc, q, w, rest', hthe⟩
          rw [hpower.eq, hword]
          simp
      · rw [List.append_assoc, List.cons_append] at hb
        exact absurd (hb ▸ h) (not_power_of_first hfirst hquantity)
  | case3 c t hnone ih =>
    cases f with
    | nil =>
      have hpaused : Paused (c :: t) b := by
        rw [← List.nil_append b, ← hsplit]
        exact (paused_pauseAfterQuantity t).keep c
      obtain ⟨rest', hpower⟩ := h.of_paused hpaused
      exact absurd hnone hpower.isSome
    | cons d f =>
      obtain ⟨hd, hbehind⟩ := List.cons.inj hsplit
      obtain ⟨f₁, f₀, b₀, c', rfl, rfl, hc, hb⟩ := ih hbehind
      exact ⟨d :: f₁, c :: f₀, b₀, c', rfl, rfl, hc, hb⟩

/-! ## Powers without a pause -/

/-- Every power without a pause stands behind a text of some kind. -/
def PowersBehind (G : Text → Prop) (t : Text) : Prop :=
  ∀ f b q w rest, t = f ++ b → Power b q w rest → G f

/-- What is left once pauses are made. -/
theorem powersBehind_pauseAfterQuantity (t : Text) :
    PowersBehind (pausedTo <:+ ·) (pauseAfterQuantity t) := by
  intro f b q w rest hsplit hpower
  obtain ⟨f₁, -, -, -, rfl, -⟩ := hpower.of_pauseAfterQuantity hsplit
  exact List.suffix_append f₁ pausedTo

/-- **A second time no power is left without a pause.** -/
theorem PowersBehind.pauseAfterQuantity (h : PowersBehind (pausedTo <:+ ·) t) :
    PowersBehind (fun _ => False) (pauseAfterQuantity t) := by
  intro f b q w rest hsplit hpower
  obtain ⟨-, f₀, b₀, c, -, rfl, hc, q', w', rest', hb₀⟩ := hpower.of_pauseAfterQuantity hsplit
  obtain ⟨x, hx⟩ := h _ b₀ q' w' rest' rfl hb₀
  have hboth : x ++ ([','] ++ " to ".toList) = f₀ ++ ([c] ++ " to ".toList) := hx.trans (by simp)
  have hlast : [','] ++ " to ".toList = [c] ++ " to ".toList :=
    List.append_inj_right' hboth rfl
  exact hc (List.cons.inj hlast).1.symm

theorem PowersBehind.pauseAfterQuantity_eq (h : PowersBehind (fun _ => False) t) :
    Polish.pauseAfterQuantity t = t :=
  pauseAfterQuantity_of_forall fun f b hsplit q w rest hpower => h f b q w rest hsplit hpower

/-- Every repeated word ends in a pause. -/
def RepeatsPauses (t : Text) : Prop :=
  (pieces t).IsChain fun v w => Repeats v w → ∃ u, v = u ++ [',']

/-- Where no word is repeated, pauses make repeated words only by standing behind them. -/
theorem Paused.repeatsPauses (h : Paused s t)
    (hs : (pieces s).IsChain fun v w => ¬Repeats v w) : RepeatsPauses t := by
  refine isChain_of_forall₂ h.forall₂_pieces ?_ hs
  intro v _ w _ hv hw hkeep hrepeats
  rcases hv with rfl | rfl
  · rcases hw with rfl | rfl
    · exact absurd hrepeats hkeep
    · exact hrepeats.exists_comma
  · exact ⟨v, rfl⟩

/-- Taking out a repeated word that ends in a pause changes nothing about powers. -/
theorem Repetition.powersBehind {G : Text → Prop} {front u w back : Text}
    (hG : ∀ x x' y, G (x ++ ',' :: y) → G (x' ++ ',' :: y))
    (hr : Repetition front (u ++ [',']) w back)
    (h : PowersBehind G (front ++ ((u ++ [',']) ++ ' ' :: (w ++ back)))) :
    PowersBehind G (front ++ ((u ++ [',']) ++ back)) := by
  intro f b q w' rest hsplit hpower
  obtain ⟨u', d, rfl, hd⟩ := Repeats.exists_concat hr.repeats.map_toLower
  obtain rfl : ',' = d := hd.resolve_right fun halpha => absurd halpha.1 (by decide)
  have hcomma : (front ++ u) ++ ',' :: back = f ++ b := by
    rw [← hsplit]
    simp
  rcases List.append_eq_append_iff.mp hcomma with ⟨a, rfl, hback⟩ | ⟨r, hfront, rfl⟩
  · cases a with
    | nil =>
      obtain rfl : ',' :: back = b := hback
      cases hpower.eq
    | cons x a =>
      obtain ⟨rfl, rfl⟩ := List.cons.inj hback
      refine hG (front ++ (u ++ ',' :: ' ' :: u')) _ a (h _ b q w' rest ?_ hpower)
      simp
  · obtain ⟨rest', hpower'⟩ := hpower.change_behind (' ' :: (u' ++ ',' :: back))
    refine h f _ q w' rest' ?_ hpower'
    rw [← List.append_assoc f, ← hfront]
    simp

/-- **Taking out repeated words that end in pauses changes nothing about powers.** -/
theorem RepeatsPauses.avoidRepetition {G : Text → Prop}
    (hG : ∀ x x' y, G (x ++ ',' :: y) → G (x' ++ ',' :: y)) (h : RepeatsPauses t)
    (hpowers : PowersBehind G t) : PowersBehind G (avoidRepetition t) := by
  refine (avoidRepetition_induction (P := fun t => RepeatsPauses t ∧ PowersBehind G t)
    (fun front v w back hr hold => ?_) ⟨h, hpowers⟩).2
  obtain ⟨xs, ys, hxs, hys⟩ := hr.exists_pieces
  have hchain : (xs ++ v :: w :: ys).IsChain fun v w => Repeats v w → ∃ u, v = u ++ [','] :=
    hxs ▸ hold.1
  obtain ⟨hfront, hbehind, hjoint⟩ := List.isChain_append.mp hchain
  obtain ⟨u, rfl⟩ := (List.isChain_cons_cons.mp hbehind).1 hr.repeats
  refine ⟨?_, hr.powersBehind hG hold.2⟩
  show (pieces _).IsChain _
  rw [hys]
  refine List.isChain_append.mpr ⟨hfront, ?_, hjoint⟩
  exact (List.isChain_cons_cons.mp hbehind).2.tail.cons fun _ _ _ => ⟨u, rfl⟩

/-- Whether a pause ends a text does not depend on what stands in front of a comma. -/
theorem pausedTo_suffix_congr (x x' y : Text) (h : pausedTo <:+ x ++ ',' :: y) :
    pausedTo <:+ x' ++ ',' :: y := by
  obtain ⟨z, hz⟩ := h
  rcases List.append_eq_append_iff.mp hz with ⟨r, rfl, hr⟩ | ⟨r, rfl, hr⟩
  · -- The pause begins within what stands in front: it has no other comma than its first one.
    cases r with
    | nil => exact hr ▸ List.suffix_append x' pausedTo
    | cons d r =>
      obtain ⟨rfl, hbehind⟩ := List.cons.inj hr
      have hmem : ',' ∈ " to ".toList := by
        rw [show " to ".toList = r ++ ',' :: y from hbehind]
        simp
      exact absurd hmem (by decide)
  · refine (List.suffix_append r pausedTo).trans ?_
    rw [← hr]
    exact List.suffix_append x' (',' :: y)

end Polish

end SpokenMath
