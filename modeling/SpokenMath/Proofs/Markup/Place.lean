import SpokenMath.Markup.Occurrence
import Mathlib.Data.Nat.Find

/-!
# Places in a text

A backslash belongs to the character behind it, and pairs are formed from left to right. A **place**
of a text is where a search may look for something: behind whole pairs and other characters, never
between a backslash and its character.

A stretch **stands** in a text if its front is there too. Its span is then the size of this front
and that of the front with the stretch, so both ends fall between two characters
(`Stretch.standsIn_of_eq`).
-/

namespace SpokenMath

namespace Text

/-- Whole pairs, and characters that are no backslash. -/
inductive Paired : Text → Prop
  | nil : Paired []
  | single {c : Char} {t : Text} : c ≠ '\\' → Paired t → Paired (c :: t)
  | pair (c : Char) {t : Text} : Paired t → Paired ('\\' :: c :: t)

/-- The text goes on as `s` from a place. -/
def Place (t s : Text) : Prop := ∃ front, Paired front ∧ t = front ++ s

variable {c d : Char} {r s t : Text}

theorem Place.suffix (h : Place t s) : s <:+ t := by
  obtain ⟨front, -, rfl⟩ := h
  exact List.suffix_append front s

theorem Place.refl (t : Text) : Place t t := ⟨[], .nil, rfl⟩

theorem place_nil : Place [] s ↔ s = [] := by
  refine ⟨fun h => List.suffix_nil.mp h.suffix, ?_⟩
  rintro rfl
  exact .refl []

theorem place_cons (hc : c ≠ '\\') : Place (c :: t) s ↔ s = c :: t ∨ Place t s := by
  constructor
  · rintro ⟨front, hfront, heq⟩
    cases hfront with
    | nil => exact .inl heq.symm
    | single _ hrest => exact .inr ⟨_, hrest, (List.cons.inj heq).2⟩
    | pair d _ => exact absurd (List.cons.inj heq).1 hc
  · rintro (rfl | ⟨front, hfront, rfl⟩)
    · exact .refl _
    · exact ⟨c :: front, .single hc hfront, rfl⟩

theorem place_pair : Place ('\\' :: c :: t) s ↔ s = '\\' :: c :: t ∨ Place t s := by
  constructor
  · rintro ⟨front, hfront, heq⟩
    cases hfront with
    | nil => exact .inl heq.symm
    | single hc _ => exact absurd (List.cons.inj heq).1.symm hc
    | pair d hrest => exact .inr ⟨_, hrest, (List.cons.inj (List.cons.inj heq).2).2⟩
  · rintro (rfl | ⟨front, hfront, rfl⟩)
    · exact .refl _
    · exact ⟨'\\' :: c :: front, .pair c hfront, rfl⟩

/-- A backslash at the very end has nothing behind it, and no place either. -/
theorem place_backslash : Place ['\\'] s ↔ s = ['\\'] := by
  constructor
  · rintro ⟨front, hfront, heq⟩
    cases hfront with
    | nil => exact heq.symm
    | single hc _ => exact absurd (List.cons.inj heq).1.symm hc
    | pair d _ => cases heq
  · rintro rfl
    exact .refl _

/-- What does not stand in the characters in front, of which none is a backslash, stands at a place
of what is behind them. -/
theorem place_append_of_forall (hr : ∀ c ∈ r, c ≠ '\\') (hd : d ∉ r) :
    Place (r ++ t) (d :: s) ↔ Place t (d :: s) := by
  induction r with
  | nil => rfl
  | cons c r ih =>
    obtain ⟨hc, hr⟩ := List.forall_mem_cons.mp hr
    rw [List.cons_append, place_cons hc, ih hr (List.not_mem_of_not_mem_cons hd), or_iff_right]
    exact fun heq => List.ne_of_not_mem_cons hd (List.cons.inj heq).1

/-! ## The leftmost end -/

section

variable {α : Type} {Has Has' : Text → α → Prop} {x y : α}

/-- The longest text that has anything has `x`. Among the ends of one text, this is the end that
begins leftmost. -/
def Leftmost (Has : Text → α → Prop) (x : α) : Prop :=
  ∃ s, Has s x ∧ ∀ s' x', Has s' x' → s'.length ≤ s.length

theorem leftmost_congr (h : ∀ s x, Has s x ↔ Has' s x) : Leftmost Has x ↔ Leftmost Has' x := by
  unfold Leftmost
  simp only [h]

/-- Where the whole text has something, this is leftmost. -/
theorem leftmost_iff_of_front (hsuffix : ∀ s x, Has s x → s <:+ t) (h : Has t y) :
    Leftmost Has x ↔ Has t x := by
  constructor
  · rintro ⟨s, hs, hmax⟩
    obtain rfl := (hsuffix s x hs).eq_of_length_le (hmax t y h)
    exact hs
  · exact fun hx => ⟨t, hx, fun s' x' hs' => (hsuffix s' x' hs').length_le⟩

/-- If any end has something, then there is a leftmost one. -/
theorem exists_leftmost (hsuffix : ∀ s x, Has s x → s <:+ t) (h : Has s x) :
    ∃ x, Leftmost Has x := by
  classical
  have hsome : ∃ k, ∃ s x, Has s x ∧ t.length - s.length = k := ⟨_, s, x, h, rfl⟩
  obtain ⟨s, x, hs, hk⟩ := Nat.find_spec hsome
  refine ⟨x, s, hs, fun s' x' hs' => ?_⟩
  have hmin := Nat.find_min' hsome ⟨s', x', hs', rfl⟩
  have hbound := (hsuffix s x hs).length_le
  have hbound' := (hsuffix s' x' hs').length_le
  omega

/-- A search for what is leftmost finds nothing only where there is nothing. -/
theorem eq_none_iff_of_leftmost {o : Option α} (hsuffix : ∀ s x, Has s x → s <:+ t)
    (h : ∀ x, o = some x ↔ Leftmost Has x) : o = none ↔ ∀ s x, ¬ Has s x := by
  constructor
  · rintro rfl s x hs
    obtain ⟨x', hleftmost⟩ := exists_leftmost hsuffix hs
    cases (h x').mpr hleftmost
  · intro hnone
    rw [Option.eq_none_iff_forall_ne_some]
    intro x hx
    obtain ⟨s, hs, -⟩ := (h x).mp hx
    exact hnone s x hs

end

end Text

namespace Stretch

/-- What the stretch covers and what follows it stand at the end of the text, and its span is from
the size of the characters in front to the size of those up to its end. -/
def StandsIn (t : Text) (s : Stretch) : Prop :=
  ∃ front, t = front ++ (s.text ++ s.rest) ∧ s.span t.size = (front.size, (front ++ s.text).size)

/-- The stretches stand one behind the other in the text, with something in front of each and
something between the last and the rest. -/
structure InOrder (t rest : Text) (ss : List Stretch) : Prop where
  stand : ∀ s ∈ ss, ∃ front : Text, 0 < front.size ∧ t = front ++ (s.text ++ s.rest)
  behind : ∀ s ∈ ss, rest.size < s.rest.size
  apart : ss.Pairwise fun a b => b.text.size + b.rest.size < a.rest.size

/-- A stretch and its parts stand in the text behind its first bytes: the parts within the stretch,
one behind the other. -/
structure Frames (whole : Stretch) (t : Text) (start : Nat) (parts : List Stretch) : Prop where
  stand : ∀ s ∈ whole :: parts, s.StandsIn t
  behind : start ≤ (whole.span t.size).1
  proper : (whole.span t.size).1 < (whole.span t.size).2
  inside : ∀ s ∈ parts, (whole.span t.size).1 < (s.span t.size).1 ∧
    (s.span t.size).2 < (whole.span t.size).2
  ordered : parts.Pairwise fun a b => (a.span t.size).2 < (b.span t.size).1

variable {t u rest : Text} {s whole : Stretch} {ss ss' : List Stretch} {start : Nat}

/-- **What stands at the end of a text has its place there by its size.** -/
theorem standsIn_of_eq {front : Text} (h : t = front ++ (s.text ++ s.rest)) : s.StandsIn t := by
  refine ⟨front, h, ?_⟩
  rw [span, h, Text.size_append, Text.size_append, Text.size_append, Prod.mk.injEq]
  omega

theorem inOrder_nil (t rest : Text) : InOrder t rest [] := ⟨nofun, nofun, .nil⟩

/-- A stretch between delimiters. -/
theorem inOrder_delimited {t rest : Text} (hrest : rest <:+ t) (gap a : Text) (o c : Char) :
    InOrder (gap ++ o :: (a ++ c :: t)) rest [⟨a, c :: t⟩] where
  stand := by
    refine List.forall_mem_singleton.mpr ⟨gap ++ [o], ?_, by simp⟩
    have hpos := o.utf8Size_pos
    rw [Text.size_append, Text.size_cons]
    omega
  behind := by
    have hsize := Text.size_le_of_suffix hrest
    have hpos := c.utf8Size_pos
    refine List.forall_mem_singleton.mpr ?_
    rw [Text.size_cons]
    omega
  apart := List.pairwise_singleton _ _

theorem InOrder.append (h : InOrder t u ss) (h' : InOrder u rest ss') (hu : u <:+ t)
    (hrest : rest <:+ u) : InOrder t rest (ss ++ ss') where
  stand s hs := by
    rcases List.mem_append.mp hs with hs | hs
    · exact h.stand s hs
    · obtain ⟨front, rfl⟩ := hu
      obtain ⟨front', hpos, rfl⟩ := h'.stand s hs
      refine ⟨front ++ front', ?_, by rw [List.append_assoc]⟩
      rw [Text.size_append]
      omega
  behind s hs := by
    rcases List.mem_append.mp hs with hs | hs
    · exact Nat.lt_of_le_of_lt (Text.size_le_of_suffix hrest) (h.behind s hs)
    · exact h'.behind s hs
  apart := by
    refine List.pairwise_append.mpr ⟨h.apart, h'.apart, fun a ha b hb => ?_⟩
    obtain ⟨front, -, heq⟩ := h'.stand b hb
    have hsize := congrArg Text.size heq
    have hbehind := h.behind a ha
    rw [Text.size_append, Text.size_append] at hsize
    omega

theorem Frames.mono {start' : Nat} (h : whole.Frames t start ss) (hle : start' ≤ start) :
    whole.Frames t start' ss :=
  ⟨h.stand, Nat.le_trans hle h.behind, h.proper, h.inside, h.ordered⟩

/-- What stands in front of a stretch may be more text to search. -/
theorem Frames.of_append {before front : Text}
    (h : whole.Frames ((before ++ front) ++ t) (before ++ front).size ss) :
    whole.Frames (before ++ (front ++ t)) before.size ss := by
  rw [List.append_assoc, Text.size_append] at h
  exact h.mono (Nat.le_add_right _ _)

/-- **Stretches in order are framed by the whole text.** -/
theorem InOrder.frames (h : InOrder t whole.rest ss) (hwhole : t = whole.text ++ whole.rest)
    (hpos : 0 < whole.text.size) (before : Text) :
    whole.Frames (before ++ t) before.size ss := by
  have hsize : t.size = whole.text.size + whole.rest.size :=
    (congrArg Text.size hwhole).trans (Text.size_append _ _)
  have hplace : ∀ s ∈ ss, ∃ front : Text, 0 < front.size ∧
      before ++ t = (before ++ front) ++ (s.text ++ s.rest) ∧
      t.size = front.size + (s.text.size + s.rest.size) := by
    intro s hs
    obtain ⟨front, hfront, heq⟩ := h.stand s hs
    refine ⟨front, hfront, by rw [heq, List.append_assoc], ?_⟩
    rw [heq, Text.size_append, Text.size_append]
  exact {
    stand := by
      refine List.forall_mem_cons.mpr ⟨standsIn_of_eq (congrArg (before ++ ·) hwhole), ?_⟩
      intro s hs
      obtain ⟨front, -, heq, -⟩ := hplace s hs
      exact standsIn_of_eq heq
    behind := by
      simp only [span, Text.size_append]
      omega
    proper := by
      simp only [span, Text.size_append]
      omega
    inside := by
      intro s hs
      obtain ⟨front, hfront, -, heq⟩ := hplace s hs
      have hbehind := h.behind s hs
      simp only [span, Text.size_append]
      omega
    ordered := by
      refine List.Pairwise.imp_of_mem ?_ h.apart
      intro a b ha hb hapart
      obtain ⟨front, -, -, heq⟩ := hplace a ha
      simp only [span, Text.size_append]
      omega }

end Stretch

end SpokenMath
