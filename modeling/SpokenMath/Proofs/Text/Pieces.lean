import SpokenMath.Proofs.Text.Gap

/-!
# Cutting a collapsed text

Pieces that are joined by a mark between two spaces are collapsed together with the marks. Cutting
at the marks gives pieces that differ from the collapsed ones by blanks at their ends
(`Cuts.map_trim_join`), as long as no piece has such a mark in it.
-/

namespace SpokenMath.Text

/-! ## Pieces between gaps -/

section

variable {p : Char → Bool} {c : Char}

theorem split_cons_of_gap (h : p c = true) (t : Text) : split p (c :: t) = [] :: split p t := by
  simp [split, h]

theorem exists_split (p : Char → Bool) (t : Text) : ∃ w ws, split p t = w :: ws := by
  cases t with
  | nil => exact ⟨_, _, rfl⟩
  | cons c t =>
    cases h : p c with
    | true => exact ⟨_, _, split_cons_of_gap h t⟩
    | false =>
      simp only [split, List.foldr_cons, h, Bool.false_eq_true, if_false]
      split <;> exact ⟨_, _, rfl⟩

theorem split_cons_of_word (h : p c = false) {w : Text} {ws : List Text} {t : Text}
    (ht : split p t = w :: ws) : split p (c :: t) = (c :: w) :: ws := by
  rw [split] at ht ⊢
  simp [ht, h]

/-- A gap ends a word. -/
theorem split_append_cons (h : p c = true) (front t : Text) :
    split p (front ++ c :: t) = split p front ++ split p t := by
  induction front with
  | nil => exact split_cons_of_gap h t
  | cons a front ih =>
    cases ha : p a with
    | true =>
      rw [List.cons_append, split_cons_of_gap ha, split_cons_of_gap ha, ih, List.cons_append]
    | false =>
      obtain ⟨w, ws, hfront⟩ := exists_split p front
      rw [hfront, List.cons_append] at ih
      rw [List.cons_append, split_cons_of_word ha ih, split_cons_of_word ha hfront,
        List.cons_append]

/-- Without a gap there is one piece. -/
theorem split_of_forall {t : Text} (h : ∀ c ∈ t, p c = false) : split p t = [t] := by
  induction t with
  | nil => rfl
  | cons c t ih =>
    obtain ⟨hc, ht⟩ := List.forall_mem_cons.mp h
    exact split_cons_of_word hc (ih ht)

/-- Every piece is a part of the text without a gap. -/
theorem forall_mem_split (p : Char → Bool) (t : Text) :
    (∀ w ∈ split p t, (∀ c ∈ w, p c = false) ∧ w <:+: t) ∧ ∀ w ∈ (split p t).head?, w <+: t := by
  induction t with
  | nil =>
    have hone : ∀ w ∈ split p [], (∀ c ∈ w, p c = false) ∧ w <:+: ([] : Text) :=
      List.forall_mem_singleton.mpr ⟨List.forall_mem_nil _, List.nil_infix⟩
    exact ⟨hone, fun w hw => Option.some.inj hw ▸ List.nil_prefix⟩
  | cons a t ih =>
    obtain ⟨hall, hfirst⟩ := ih
    have hlater : ∀ w ∈ split p t, (∀ c ∈ w, p c = false) ∧ w <:+: a :: t := fun w hw =>
      ⟨(hall w hw).1, (hall w hw).2.trans (List.suffix_cons a t).isInfix⟩
    cases ha : p a with
    | true =>
      rw [split_cons_of_gap ha]
      exact ⟨List.forall_mem_cons.mpr ⟨⟨List.forall_mem_nil _, List.nil_infix⟩, hlater⟩,
        fun w hw => Option.some.inj hw ▸ List.nil_prefix⟩
    | false =>
      obtain ⟨w, ws, hsplit⟩ := exists_split p t
      rw [hsplit] at hall hfirst hlater
      have hprefix : a :: w <+: a :: t := (List.cons_prefix_cons.mpr ⟨rfl, hfirst w rfl⟩)
      have hword : ∀ c ∈ a :: w, p c = false :=
        List.forall_mem_cons.mpr ⟨ha, (hall w List.mem_cons_self).1⟩
      rw [split_cons_of_word ha hsplit]
      refine ⟨List.forall_mem_cons.mpr ⟨⟨hword, hprefix.isInfix⟩, ?_⟩, ?_⟩
      · exact fun v hv => hlater v (List.mem_cons_of_mem w hv)
      · exact fun v hv => Option.some.inj hv ▸ hprefix

end

/-! ## Blanks at the ends -/

variable {g : Gap} {s t : Text}

theorem trimStart_append_of_blank {lead : Text} (h : ∀ c ∈ lead, isBlank c = true) (t : Text) :
    trimStart (lead ++ t) = trimStart t :=
  List.dropWhile_append_of_pos h

theorem trimEnd_append_of_blank {gap : Text} (h : ∀ c ∈ gap, isBlank c = true) (t : Text) :
    trimEnd (t ++ gap) = trimEnd t := by
  rw [trimEnd, trimEnd, List.reverse_append, List.dropWhile_append_of_pos]
  simpa using h

/-- A text with blanks at its ends, perhaps. -/
def Padded (s t : Text) : Prop := ∃ lead gap : Text, (∀ c ∈ lead, isBlank c = true) ∧
  (∀ c ∈ gap, isBlank c = true) ∧ t = lead ++ (s ++ gap)

theorem trim_of_padded (h : Padded s t) (hs : s = [] ∨ s.Solid) : t.trim = s := by
  obtain ⟨lead, gap, hlead, hgap, rfl⟩ := h
  rw [trim, trimStart_append_of_blank hlead]
  rcases hs with rfl | ⟨⟨c, hc, hhead⟩, ⟨d, hd, hlast⟩⟩
  · have hnone := trimStart_append_of_blank hgap []
    rw [List.append_nil] at hnone
    rw [List.nil_append, hnone]
    rfl
  · have hstart : trimStart (s ++ gap) = s ++ gap := by
      obtain ⟨r, rfl⟩ := List.head?_eq_some_iff.mp hc
      rw [trimStart, List.cons_append, List.dropWhile_cons_of_neg (by simp [hhead])]
    rw [hstart, trimEnd_append_of_blank hgap, trimEnd]
    obtain ⟨r, rfl⟩ := List.getLast?_eq_some_iff.mp hd
    rw [List.reverse_append, List.reverse_singleton, List.singleton_append,
      List.dropWhile_cons_of_neg (by simp [hlast]), List.reverse_cons, List.reverse_reverse]

theorem trim_part (t : Text) : t.trim <:+: t := by
  have hend : t.trim <+: t.trimStart :=
    List.reverse_suffix.mp (by simpa [trim, trimEnd] using List.dropWhile_suffix _)
  exact hend.isInfix.trans (List.dropWhile_suffix _).isInfix

/-- The last character that is written is no blank. -/
theorem last_collapseFrom (g : Gap) (t : Text) :
    ∀ c ∈ (collapseFrom g t).getLast?, isBlank c = false := by
  induction t generalizing g with
  | nil => nofun
  | cons a t ih =>
    cases ha : isBlank a with
    | true =>
      rw [collapseFrom_cons_of_blank ha]
      exact ih _
    | false =>
      intro c hc
      rw [collapseFrom_cons_of_not_blank ha, ← List.singleton_append, List.getLast?_append,
        List.getLast?_append] at hc
      cases hlast : (collapseFrom .solid t).getLast? with
      | none =>
        rw [hlast] at hc
        exact Option.some.inj hc ▸ ha
      | some d =>
        rw [hlast] at hc
        exact Option.some.inj hc ▸ ih .solid d hlast

/-- A collapsed text has no blanks at its ends. -/
theorem solid_collapse (t : Text) : t.collapse = [] ∨ t.collapse.Solid := by
  rw [← collapseFrom_start]
  induction t with
  | nil => exact .inl rfl
  | cons a t ih =>
    cases ha : isBlank a with
    | true =>
      rw [collapseFrom_cons_of_blank ha, Gap.after_of_blank ha, if_pos rfl]
      exact ih
    | false =>
      have hlast := last_collapseFrom .start (a :: t)
      rw [collapseFrom_cons_of_not_blank ha] at hlast ⊢
      refine .inr ⟨⟨a, rfl, ha⟩, ⟨_, List.getLast?_eq_some_getLast (List.cons_ne_nil _ _), ?_⟩⟩
      exact hlast _ (List.getLast?_eq_some_getLast (List.cons_ne_nil _ _))

/-- Behind any gap, at most one space more is written in front of the collapsed text. -/
theorem exists_collapseFrom (g : Gap) (t : Text) :
    ∃ lead, (lead = [] ∨ lead = [' ']) ∧ collapseFrom g t = lead ++ t.collapse := by
  rw [← collapseFrom_start]
  induction t generalizing g with
  | nil => exact ⟨[], .inl rfl, rfl⟩
  | cons a t ih =>
    cases ha : isBlank a with
    | true =>
      rw [collapseFrom_cons_of_blank ha, collapseFrom_cons_of_blank ha, Gap.after_of_blank ha,
        Gap.after_of_blank ha, if_pos rfl]
      exact ih _
    | false =>
      rw [collapseFrom_cons_of_not_blank ha, collapseFrom_cons_of_not_blank ha]
      refine ⟨g.space, ?_, rfl⟩
      cases g <;> simp

theorem padded_collapseFrom {gap : Text} (hgap : ∀ c ∈ gap, isBlank c = true) (g : Gap)
    (t : Text) : Padded t.collapse (collapseFrom g t ++ gap) := by
  obtain ⟨lead, hlead, heq⟩ := exists_collapseFrom g t
  refine ⟨lead, gap, ?_, hgap, by rw [heq, List.append_assoc]⟩
  rcases hlead with rfl | rfl
  · exact List.forall_mem_nil _
  · exact List.forall_mem_singleton.mpr isBlank_space

theorem trim_collapse (t : Text) : t.collapse.trim = t.collapse :=
  trim_of_padded ⟨[], [], List.forall_mem_nil _, List.forall_mem_nil _, by simp⟩
    (solid_collapse t)

/-! ## Cutting what was joined -/

/-- What stands between pieces that are joined: a mark between two spaces. -/
def spacedMark (mark : Text) : Text := ' ' :: (mark ++ [' '])

/-- How a text is cut at its marks. A text that is whole has no mark in it, and blanks at the ends
make no difference to that. -/
structure Cuts (mark : Text) (Whole : Text → Prop) (cut : Text → List Text) : Prop where
  ne_nil : mark ≠ []
  not_blank : ∀ c ∈ mark, isBlank c = false
  padded : ∀ {s t}, Whole s → Padded s t → Whole t
  one : ∀ {t}, Whole t → cut t = [t]
  more : ∀ {front}, Whole front → (∀ c ∈ front.getLast?, isBlank c = true) → ∀ back,
    cut (front ++ (mark ++ back)) = front :: cut back

variable {mark : Text} {Whole : Text → Prop} {cut : Text → List Text} {ss : List Text}

/-- In front of a mark, a piece is collapsed, and a space is written unless there is nothing. -/
theorem collapseFrom_append_spacedMark (hne : mark ≠ []) (hmark : ∀ c ∈ mark, isBlank c = false)
    (g : Gap) (s t : Text) : ∃ front, Padded s.collapse front ∧
      (∀ c ∈ front.getLast?, isBlank c = true) ∧
      collapseFrom g (s ++ (spacedMark mark ++ t)) = front ++ (mark ++ collapseFrom .blank t) := by
  have hsolid : collapseFrom .solid mark = mark := by
    simpa using collapseFrom_append_of_not_blank hmark []
  have hrest : collapseFrom .solid (' ' :: t) = collapseFrom .blank t :=
    collapseFrom_cons_of_blank isBlank_space _ t
  have hspace : ∀ c ∈ ((g.afterText s).after ' ').space, isBlank c = true := by
    cases (g.afterText s).after ' ' <;> simp [isBlank_space]
  refine ⟨collapseFrom g s ++ ((g.afterText s).after ' ').space,
    padded_collapseFrom hspace g s, ?_, ?_⟩
  · intro c hc
    by_cases hstart : g.afterText s = .start
    · rw [(collapseFrom_of_afterText_start hstart).2, hstart] at hc
      cases hc
    · have hblank : ((g.afterText s).after ' ').space = [' '] := by
        rw [Gap.after_of_blank isBlank_space, if_neg hstart]
        rfl
      rw [hblank, List.getLast?_concat] at hc
      exact Option.some.inj hc ▸ isBlank_space
  · rw [collapseFrom_append, spacedMark, List.cons_append, List.append_assoc,
      collapseFrom_cons_of_blank isBlank_space, List.singleton_append,
      (solid_of_forall hne hmark).collapseFrom_append, hsolid, hrest]
    simp only [List.append_assoc]

/-- **Pieces that were joined are found again**, if they are whole. -/
theorem Cuts.map_trim_join (h : Cuts mark Whole cut) (hne : ss ≠ [])
    (hwhole : ∀ s ∈ ss, Whole s.collapse) (g : Gap) {gap : Text}
    (hgap : ∀ c ∈ gap, isBlank c = true) :
    (cut (collapseFrom g (join (spacedMark mark) ss) ++ gap)).map trim = ss.map collapse := by
  induction ss generalizing g with
  | nil => exact absurd rfl hne
  | cons s ss ih =>
    obtain ⟨hs, hss⟩ := List.forall_mem_cons.mp hwhole
    cases ss with
    | nil =>
      have hpadded : Padded s.collapse (collapseFrom g s ++ gap) := padded_collapseFrom hgap g s
      rw [join, List.intercalate_singleton, h.one (h.padded hs hpadded), List.map_singleton,
        List.map_singleton, trim_of_padded hpadded (solid_collapse s)]
    | cons s' ss =>
      obtain ⟨front, hpadded, hlast, heq⟩ := collapseFrom_append_spacedMark h.ne_nil h.not_blank g s
        (join (spacedMark mark) (s' :: ss))
      rw [join, List.intercalate_cons_cons, ← join, List.append_assoc, heq, List.append_assoc,
        List.append_assoc, h.more (h.padded hs hpadded) hlast, List.map_cons,
        ih (List.cons_ne_nil _ _) hss, trim_of_padded hpadded (solid_collapse s)]
      rfl

end SpokenMath.Text
