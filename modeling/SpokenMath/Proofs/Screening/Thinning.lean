import SpokenMath.Proofs.Screening.Remnants

/-!
# Thinned pieces

As long as no forbidden command is left out, cleaning only **thins** the pieces: some stay, and a
blank comes in the place of others or behind a word. Hidden characters go without a blank, so what
can be said of pieces next to each other holds only in a text in which they are **visible**.

**Theorem (`kept_thinned`).** What is kept of a text is thinned from its pieces.

What stays is a part of the pieces in their order (`Thinned.sublist`). In a visible text, what stays
next to each other was next to each other (`Thinned.isChain`), and so no word is fused
(`Visible.remnants_eq`).
-/

namespace SpokenMath

/-- No character goes without a trace: line ends and tabs become spaces, except behind a backslash,
and other hidden characters do not occur. -/
structure Visible (t : Text) : Prop where
  chars : ∀ c ∈ t, Cleaning.isHidden c = true → c = '\n' ∨ c = '\r' ∨ c = '\t'
  escapes : ∀ c, .escape c ∈ pieces t → Cleaning.isHidden c = false

namespace Visible

variable {c : Char} {s t : Text}

theorem suffix (h : Visible t) (hs : s <:+ t) (hp : pieces s <:+ pieces t) : Visible s where
  chars c hc := h.chars c (hs.subset hc)
  escapes c hc := h.escapes c (hp.subset hc)

theorem tail (hend : c = '\\' → t = [] → False) (hpair : ∀ x r, c = '\\' → t = x :: r → False)
    (h : Visible (c :: t)) : Visible t :=
  h.suffix (List.suffix_cons c t) (pieces_suffix_cons hend hpair)

theorem behind_escape (hc : ¬ c.isAlpha = true) (h : Visible ('\\' :: c :: t)) : Visible t := by
  refine h.suffix (List.suffix_append ['\\', c] t) ?_
  rw [pieces_escape (by simpa using hc)]
  exact List.suffix_cons _ _

theorem behind_line (h : Visible ('%' :: t)) : Visible (Cleaning.skipLine t) := by
  have htail : Visible t := h.tail (by simp) (by simp)
  exact htail.suffix (Cleaning.skipLine_suffix t) (Cleaning.pieces_skipLine_suffix t)

theorem behind_word (hc : c.isAlpha = true) (hs : s <:+ t.dropWhile Char.isAlpha)
    (hp : pieces s <:+ pieces (t.dropWhile Char.isAlpha)) (h : Visible ('\\' :: c :: t)) :
    Visible s := by
  refine h.suffix ?_ ?_
  · exact (hs.trans (List.dropWhile_suffix _)).trans (List.suffix_append ['\\', c] t)
  · rw [pieces_word hc]
    exact hp.trans (List.suffix_cons _ _)

end Visible

/-- The pieces in the second list are those of the first, some of them replaced by a blank. If
`silent`, some may be missing without a blank. -/
inductive Thinned (silent : Prop) : List Piece → List Piece → Prop
  | done (raw : List Piece) : Thinned silent raw []
  | keep (p : Piece) {raw left : List Piece} :
    Thinned silent raw left → Thinned silent (p :: raw) (p :: left)
  | blank {rest raw left : List Piece} :
    Thinned silent rest left → rest <:+ raw → Thinned silent raw (.blank :: left)
  | drop (p : Piece) {raw left : List Piece} :
    silent → Thinned silent raw left → Thinned silent (p :: raw) left

/-! ## Nothing forbidden -/

theorem Cleaning.word_elided {elide : Bool} {name : String}
    (h : (elide && forbiddenCommands.contains name) = false) (rest : Text) :
    (word elide name rest).2.2 = none := by
  unfold word
  rw [h]
  split
  · rfl
  · split <;> rfl

/-- No command is left out as forbidden where none is found. -/
theorem Cleaning.strip_elided {elide : Bool} {t : Text}
    (h : ∀ name, .word name ∈ pieces t → (elide && forbiddenCommands.contains name) = false) :
    (strip elide t).2 = [] := by
  fun_induction strip elide t with
  | case1 => rfl
  | case2 => rfl
  | case3 c t hc r out elided hstrip ih =>
    rw [pieces_word hc] at h
    have hnone := word_elided (h _ List.mem_cons_self) (t.dropWhile Char.isAlpha)
    have hrest := pieces_rest_suffix hnone
    rw [hstrip] at ih
    rw [show r.2.2 = none from hnone]
    exact ih fun name hname => h name (List.mem_cons_of_mem _ (hrest.subset hname))
  | case4 c t hc out elided hstrip _ ih | case5 c t hc out elided hstrip _ _ ih
  | case6 c t hc out elided hstrip _ _ ih =>
    rw [pieces_escape (by simpa using hc)] at h
    rw [hstrip] at ih
    exact ih fun name hname => h name (List.mem_cons_of_mem _ hname)
  | case7 t out elided hstrip hend hpair ih =>
    have hpieces := (pieces_skipLine_suffix t).trans (pieces_suffix_cons hend hpair)
    rw [hstrip] at ih
    exact ih fun name hname => h name (hpieces.subset hname)
  | case8 c t hend hpair _ out elided hstrip _ ih
  | case9 c t hend hpair _ out elided hstrip _ _ ih
  | case10 c t hend hpair _ out elided hstrip _ _ ih =>
    rw [hstrip] at ih
    exact ih fun name hname => h name ((pieces_suffix_cons hend hpair).subset hname)

/-! ## What is kept -/

theorem thinned_keptWord {silent : Prop} {elide : Bool} {name : String} {rest : Text}
    {left : List Piece} (hrest : pieces (Cleaning.word elide name rest).2.1 <:+ pieces rest)
    (h : Thinned silent (pieces (Cleaning.word elide name rest).2.1) left) :
    Thinned silent (.word name :: pieces rest) (Cleaning.keptWord elide name rest ++ left) := by
  unfold Cleaning.keptWord
  cases hleft : Cleaning.isLeftOut elide name with
  | true => exact h.blank (hrest.trans (List.suffix_cons _ _))
  | false =>
    rw [Cleaning.word_rest hleft] at h
    rw [if_neg (by decide)]
    split
    · exact (h.blank List.suffix_rfl).keep _
    · exact h.keep _

/-- **What is kept of a text is thinned from its pieces.** -/
theorem kept_thinned {silent : Prop} {elide : Bool} {t : Text}
    (helided : (Cleaning.strip elide t).2 = []) (hsilent : ¬ Visible t → silent) :
    Thinned silent (pieces t) (Cleaning.kept elide t) := by
  -- Along `strip`, which says of each word whether it was left out as forbidden.
  fun_induction Cleaning.strip elide t with
  | case1 =>
    rw [Cleaning.kept]
    exact .done _
  | case2 =>
    rw [Cleaning.kept]
    exact .done _
  | case3 c t hc r out elided hstrip ih =>
    rw [hstrip] at ih
    obtain ⟨hnone, helided⟩ := List.append_eq_nil_iff.mp helided
    have hrest := Cleaning.pieces_rest_suffix (Option.toList_eq_nil_iff.mp hnone)
    have hrest' := Visible.behind_word hc (Cleaning.rest_suffix _ _ _) hrest
    rw [Cleaning.kept, if_pos hc, pieces_word hc]
    exact thinned_keptWord hrest (ih helided fun hv => hsilent (mt hrest' hv))
  | case4 c t hc out elided hstrip hspacing ih =>
    rw [hstrip] at ih
    have hthinned := ih helided fun hv => hsilent (mt (Visible.behind_escape hc) hv)
    rw [Cleaning.kept, if_neg hc, if_pos hspacing, pieces_escape (by simpa using hc)]
    exact hthinned.blank (List.suffix_cons _ _)
  | case5 c t hc out elided hstrip hspacing hhidden ih =>
    have hpieces := pieces_escape (by simpa using hc) t
    rw [hstrip] at ih
    have hthinned := ih helided fun hv => hsilent (mt (Visible.behind_escape hc) hv)
    rw [Cleaning.kept, if_neg hc, if_neg hspacing, if_pos hhidden, hpieces]
    refine hthinned.drop _ (hsilent fun hv => ?_)
    have hshown := hv.escapes c (by simp [hpieces])
    exact absurd hhidden (by simp [hshown])
  | case6 c t hc out elided hstrip hspacing hhidden ih =>
    rw [hstrip] at ih
    have hthinned := ih helided fun hv => hsilent (mt (Visible.behind_escape hc) hv)
    rw [Cleaning.kept, if_neg hc, if_neg hspacing, if_neg hhidden,
      pieces_escape (by simpa using hc)]
    exact hthinned.keep _
  | case7 t out elided hstrip hend hpair ih =>
    rw [hstrip] at ih
    have hthinned := ih helided fun hv => hsilent (mt Visible.behind_line hv)
    rw [Cleaning.kept.eq_4 _ _ _ hend hpair, if_pos rfl]
    exact hthinned.blank ((Cleaning.pieces_skipLine_suffix t).trans (pieces_suffix_cons hend hpair))
  | case8 c t hend hpair hpercent out elided hstrip hgap ih =>
    rw [hstrip] at ih
    have hthinned := ih helided fun hv => hsilent (mt (Visible.tail hend hpair) hv)
    rw [Cleaning.kept.eq_4 _ _ _ hend hpair, if_neg hpercent, if_pos hgap]
    exact hthinned.blank (pieces_suffix_cons hend hpair)
  | case9 c t hend hpair hpercent out elided hstrip hgap hhidden ih =>
    rw [hstrip] at ih
    have hthinned := ih helided fun hv => hsilent (mt (Visible.tail hend hpair) hv)
    rw [Cleaning.kept.eq_4 _ _ _ hend hpair, if_neg hpercent, if_neg hgap, if_pos hhidden,
      pieces.eq_4 _ _ hend hpair]
    refine hthinned.drop _ (hsilent fun hv => ?_)
    exact hgap (hv.chars c List.mem_cons_self hhidden)
  | case10 c t hend hpair hpercent out elided hstrip hgap hhidden ih =>
    rw [hstrip] at ih
    have hthinned := ih helided fun hv => hsilent (mt (Visible.tail hend hpair) hv)
    rw [Cleaning.kept.eq_4 _ _ _ hend hpair, if_neg hpercent, if_neg hgap, if_neg hhidden,
      pieces.eq_4 _ _ hend hpair]
    cases hblank : isBlank c with
    | true => exact hthinned.keep _
    | false => exact hthinned.keep _

/-! ## What follows from it -/

/-- What stays is a part of the pieces in their order. -/
theorem Thinned.sublist {silent : Prop} {raw left : List Piece} (h : Thinned silent raw left) :
    (left.filter (· ≠ .blank)).Sublist raw := by
  induction h with
  | done raw => exact List.nil_sublist _
  | keep p _ ih =>
    rw [List.filter_cons]
    split
    · exact ih.cons_cons _
    · exact ih.cons _
  | blank _ hrest ih => exact ih.trans hrest.sublist
  | drop p _ _ ih => exact ih.cons _

theorem Thinned.head? {raw left : List Piece} (h : Thinned False raw left) {p : Piece}
    (hp : left.head? = some p) : p = .blank ∨ raw.head? = some p := by
  cases h with
  | done => cases hp
  | keep q _ => exact .inr hp
  | blank _ _ => exact .inl (Option.some.inj hp).symm
  | drop _ hfalse _ => exact hfalse.elim

/-- What stays next to each other was next to each other, blanks apart. -/
theorem Thinned.isChain {R : Piece → Piece → Prop} (hleft : ∀ p, R .blank p)
    (hright : ∀ p, R p .blank) {raw left : List Piece} (h : Thinned False raw left)
    (hraw : raw.IsChain R) : left.IsChain R := by
  induction h with
  | done raw => exact .nil
  | keep p h ih =>
    obtain ⟨hp, hraw⟩ := List.isChain_cons.mp hraw
    refine List.isChain_cons.mpr ⟨fun q hq => ?_, ih hraw⟩
    rcases h.head? hq with rfl | hq
    · exact hright p
    · exact hp q hq
  | blank _ hrest ih =>
    -- What the blank replaces may be anything, since nothing is asked of blanks.
    obtain ⟨pre, rfl⟩ := hrest
    exact List.isChain_cons.mpr ⟨fun q _ => hleft q, ih hraw.right_of_append⟩
  | drop _ hfalse _ _ => exact hfalse.elim

end SpokenMath
