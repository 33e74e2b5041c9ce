import SpokenMath.Polish
import SpokenMath.Proofs.Text.Signs

/-!
# Polishing adds no signs

Every step of a round keeps a text free of signs: what it adds are spaces, commas, the words of a
vocabulary, and capitals for small letters (`unsigned_polish`).
-/

namespace SpokenMath

namespace Text

variable {t : Text}

theorem unsigned_squeeze (h : t.Unsigned) : (squeeze t).Unsigned := by
  induction t with
  | nil => exact unsigned_nil
  | cons c t ih =>
    obtain ⟨hc, ht⟩ := unsigned_cons.mp h
    change (squeezeCons c (squeeze t)).Unsigned
    unfold squeezeCons
    split
    · split
      · exact unsigned_nil
      · exact ih ht
      · exact unsigned_cons.mpr ⟨by decide, ih ht⟩
    · exact unsigned_cons.mpr ⟨hc, ih ht⟩

theorem unsigned_collapse (h : t.Unsigned) : (collapse t).Unsigned := by
  have hsqueeze := unsigned_squeeze h
  unfold collapse
  split
  · next hr =>
    rw [hr] at hsqueeze
    exact (unsigned_cons.mp hsqueeze).2
  · exact hsqueeze

theorem unsigned_split {p : Char → Bool} (h : t.Unsigned) : ∀ w ∈ split p t, Unsigned w := by
  induction t with
  | nil => simp [split]
  | cons c t ih =>
    obtain ⟨hc, ht⟩ := unsigned_cons.mp h
    replace ih := ih ht
    unfold split at ih ⊢
    rw [List.foldr_cons]
    split
    · exact List.forall_mem_cons.mpr ⟨unsigned_nil, ih⟩
    · split
      · simpa using hc
      · next w ws hws =>
        rw [hws] at ih
        obtain ⟨hw, hws⟩ := List.forall_mem_cons.mp ih
        exact List.forall_mem_cons.mpr ⟨unsigned_cons.mpr ⟨hc, hw⟩, hws⟩

theorem unsigned_join {gap : Text} {ws : List Text} (hgap : gap.Unsigned)
    (h : ∀ w ∈ ws, Unsigned w) : (join gap ws).Unsigned := by
  induction ws with
  | nil => exact unsigned_nil
  | cons w ws ih =>
    obtain ⟨hw, hws⟩ := List.forall_mem_cons.mp h
    cases ws with
    | nil => simpa [join] using hw
    | cons v ws =>
      have hrest := ih hws
      unfold join at hrest ⊢
      rw [List.intercalate_cons_cons]
      exact unsigned_append.mpr ⟨unsigned_append.mpr ⟨hw, hgap⟩, hrest⟩

end Text

namespace Polish

variable {t : Text}

/-! ## Spaces and repetitions -/

theorem unsigned_tighten (h : t.Unsigned) : (tighten t).Unsigned := by
  induction t with
  | nil => exact Text.unsigned_nil
  | cons c t ih =>
    obtain ⟨hc, ht⟩ := Text.unsigned_cons.mp h
    unfold tighten at ih ⊢
    rw [List.foldr_cons]
    split
    · exact ih ht
    · exact Text.unsigned_cons.mpr ⟨hc, ih ht⟩

theorem withoutRepeats_subset (ws : List Text) : withoutRepeats ws ⊆ ws := by
  fun_induction withoutRepeats ws with
  | case1 v w ws hrepeat ih =>
    exact fun x hx => (List.mem_cons.mp (ih hx)).elim (fun h => h ▸ List.mem_cons_self)
      fun h => List.mem_cons_of_mem _ (List.mem_cons_of_mem _ h)
  | case2 v w ws hrepeat ih => exact List.cons_subset_cons v ih
  | case3 => exact List.Subset.refl _

theorem unsigned_avoidRepetition (h : t.Unsigned) : (avoidRepetition t).Unsigned :=
  Text.unsigned_join (by decide) fun w hw =>
    Text.unsigned_split h w (withoutRepeats_subset _ hw)

/-! ## Pauses -/

theorem append_sentenceEnd (t : Text) : (sentenceEnd t).1 ++ (sentenceEnd t).2 = t := by
  unfold sentenceEnd
  split
  · split <;> rfl
  · split <;> rfl
  · rfl

theorem unsigned_pauseBeforeDifferential (h : t.Unsigned) :
    (pauseBeforeDifferential t).Unsigned := by
  unfold pauseBeforeDifferential
  split
  · next ending x c rest heq =>
    split
    · have hsplit := append_sentenceEnd t.reverse
      rw [heq] at hsplit
      rw [← Text.unsigned_reverse, ← hsplit] at h
      have hcomma : ',' ∉ signs := by decide
      simp only [Text.unsigned_reverse, Text.unsigned_append, Text.unsigned_cons] at h ⊢
      exact ⟨h.1, h.2.1, h.2.2.1, h.2.2.2.1, h.2.2.2.2.1, hcomma, h.2.2.2.2.2⟩
    · exact h
  · exact h

theorem append_of_powerWord? {t w rest : Text} (h : powerWord? t = some (w, rest)) :
    t = w ++ rest := by
  obtain ⟨v, -, hv⟩ := List.exists_of_findSome?_eq_some h
  split at hv
  · next r hr =>
    split at hv
    · cases hv
      exact Text.dropPrefix?_eq_some_iff.mp hr
    · cases hv
  · cases hv

theorem append_of_findPower {read t q w rest : Text} (h : findPower read t = some (q, w, rest)) :
    read.reverse ++ t = q ++ ' ' :: (w ++ rest) := by
  induction t generalizing read with
  | nil => cases h
  | cons c t ih =>
    unfold findPower at h
    split at h
    · cases h
    · split at h
      · next hword =>
        cases h
        split at hword
        · next hspace => rw [hspace.1, append_of_powerWord? hword]
        · cases hword
      · simpa using ih h

theorem unsigned_quantityPower? {part rest : Text} (h : t.Unsigned)
    (hq : quantityPower? t = some (part, rest)) : part.Unsigned ∧ rest.Unsigned := by
  simp only [quantityPower?, Option.bind_eq_bind, Option.bind_eq_some_iff] at hq
  obtain ⟨inside, hinside, ⟨q, w, r⟩, hpower, hq⟩ := hq
  cases hq
  have hmark : quantityMark.Unsigned := by decide
  have hpause : Text.Unsigned ", ".toList := by decide
  have hsplit := append_of_findPower hpower
  rw [List.reverse_nil, List.nil_append] at hsplit
  rw [Text.dropPrefix?_eq_some_iff.mp hinside, hsplit] at h
  simp only [Text.unsigned_append, Text.unsigned_cons] at h ⊢
  exact ⟨⟨⟨⟨hmark, h.2.1⟩, hpause⟩, h.2.2.2.1⟩, h.2.2.2.2⟩

theorem unsigned_pauseAfterQuantity (h : t.Unsigned) : (pauseAfterQuantity t).Unsigned := by
  fun_induction pauseAfterQuantity t with
  | case1 => exact h
  | case2 c t part rest hq ih =>
    obtain ⟨hpart, hrest⟩ := unsigned_quantityPower? h hq
    exact Text.unsigned_append.mpr ⟨hpart, ih hrest⟩
  | case3 c t hq ih =>
    obtain ⟨hc, ht⟩ := Text.unsigned_cons.mp h
    exact Text.unsigned_cons.mpr ⟨hc, ih ht⟩

/-! ## Words -/

theorem afterPhrase?_subset {phrase t rest : Text} (h : afterPhrase? phrase t = some rest) :
    rest ⊆ t := by
  fun_induction afterPhrase? phrase t with
  | case1 t => exact (Option.some.inj h) ▸ List.Subset.refl t
  | case2 => cases h
  | case3 => cases h
  | case4 a phrase c t hletter ih => exact List.subset_cons_of_subset c (ih h)
  | case5 => cases h

theorem unsigned_substitute {phrase replacement : Text} {inWord : Bool}
    (hr : replacement.Unsigned) (h : t.Unsigned) :
    (substitute phrase replacement inWord t).Unsigned := by
  fun_induction substitute phrase replacement inWord t with
  | case1 => exact h
  | case2 inWord c t rest hphrase ih =>
    split at hphrase
    · cases hphrase
    · exact Text.unsigned_append.mpr ⟨hr, ih (h.subset (afterPhrase?_subset hphrase))⟩
  | case3 inWord c t hphrase ih =>
    obtain ⟨hc, ht⟩ := Text.unsigned_cons.mp h
    exact Text.unsigned_cons.mpr ⟨hc, ih ht⟩

theorem unsigned_chooseWords (audience : Audience) (h : t.Unsigned) :
    (chooseWords audience t).Unsigned := by
  have hvocabulary : ∀ e ∈ vocabulary audience, Text.Unsigned e.2.toList := by
    cases audience <;> decide
  unfold chooseWords
  generalize vocabulary audience = l at hvocabulary
  induction l generalizing t with
  | nil => exact h
  | cons e l ih =>
    obtain ⟨he, hl⟩ := List.forall_mem_cons.mp hvocabulary
    exact ih (unsigned_substitute he h) hl

/-! ## Capitals -/

/-- A capital letter is no sign. -/
theorem toUpper_not_mem_signs {c : Char} (h : c ∉ signs) : c.toUpper ∉ signs := by
  have hsigns : signs.all (fun s => ¬(65 ≤ s.val.toNat ∧ s.val.toNat ≤ 90)) = true := by decide
  unfold Char.toUpper
  split
  · next hlower =>
    intro hmem
    refine of_decide_eq_true (List.all_eq_true.mp hsigns _ hmem) ?_
    have h₁ := UInt32.le_iff_toNat_le.mp hlower.1
    have h₂ := UInt32.le_iff_toNat_le.mp hlower.2
    have hshift : ('A'.val - 'a'.val).toNat = 2 ^ 32 - 32 := by decide
    have hsmall : 'a'.val.toNat = 97 ∧ 'z'.val.toNat = 122 := by decide
    rw [hsmall.1] at h₁
    rw [hsmall.2] at h₂
    rw [UInt32.toNat_add, hshift]
    omega
  · exact h

theorem unsigned_capitalizeInside (h : t.Unsigned) : (capitalizeInside t).Unsigned := by
  fun_induction capitalizeInside t with
  | case1 e c t hend ih =>
    simp only [Text.unsigned_cons] at h ⊢
    exact ⟨h.1, h.2.1, toUpper_not_mem_signs h.2.2.1, ih h.2.2.2⟩
  | case2 e c t hend ih =>
    obtain ⟨he, ht⟩ := Text.unsigned_cons.mp h
    exact Text.unsigned_cons.mpr ⟨he, ih ht⟩
  | case3 c t hshape ih =>
    obtain ⟨hc, ht⟩ := Text.unsigned_cons.mp h
    exact Text.unsigned_cons.mpr ⟨hc, ih ht⟩
  | case4 => exact h

theorem unsigned_capitalize (h : t.Unsigned) : (capitalize t).Unsigned := by
  have hinside := unsigned_capitalizeInside h
  unfold capitalize
  split
  · exact Text.unsigned_nil
  · next c t heq =>
    rw [heq] at hinside
    obtain ⟨hc, ht⟩ := Text.unsigned_cons.mp hinside
    split
    · exact Text.unsigned_cons.mpr ⟨toUpper_not_mem_signs hc, ht⟩
    · exact hinside

theorem unsigned_round (audience : Audience) (h : t.Unsigned) : (round audience t).Unsigned :=
  unsigned_capitalize <| unsigned_chooseWords audience <| unsigned_pauseAfterQuantity <|
    unsigned_pauseBeforeDifferential <| unsigned_avoidRepetition <|
      unsigned_tighten <| Text.unsigned_collapse h

theorem unsigned_rounds (audience : Audience) (n : Nat) (h : t.Unsigned) :
    (rounds audience n t).Unsigned := by
  induction n generalizing t with
  | zero => exact h
  | succ n ih =>
    simp only [rounds]
    split
    · exact h
    · exact ih (unsigned_round audience h)

end Polish

/-- **Polishing adds no signs.** -/
theorem unsigned_polish (audience : Audience) {t : Text} (h : t.Unsigned) :
    (polish audience t).Unsigned :=
  Polish.unsigned_rounds audience _ h

end SpokenMath
