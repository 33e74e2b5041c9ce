import SpokenMath.Proofs.Screening.Skipping

/-!
# What cleaning leaves of the pieces

Cleaning keeps some pieces of a raw text and puts blanks in the place of others, but a hidden
character goes without a trace. So the letters behind it come right behind what stood before it, and
if that is a control word, they become part of its name. The **remnants** of a text are the kept
pieces, with such words **fused**.

**Theorem (`pieces_strip`).** The remnants are the pieces of what is left.

**Theorem (`Observer.observe_clean`).** So an observer reports of a cleaned text what there is to
report of the remnants.
-/

namespace SpokenMath

namespace Cleaning

/-! ## Kept pieces -/

/-- The control word is left out. -/
def isLeftOut (elide : Bool) (name : String) : Bool :=
  layoutWithArg.contains name || layoutBare.contains name ||
    (elide && forbiddenCommands.contains name)

/-- What is kept of a control word. One that stands in front of a blank gets a blank of its own. -/
def keptWord (elide : Bool) (name : String) (rest : Text) : List Piece :=
  if isLeftOut elide name then [.blank]
  else if rest.head?.any isBlank then [.word name, .blank]
  else [.word name]

/-- The pieces that are kept, with blanks for those that are left out. -/
def kept (elide : Bool) : Text → List Piece
  | [] => []
  | '\\' :: [] => []
  | '\\' :: c :: t =>
    if c.isAlpha then
      let name := String.ofList (c :: t.takeWhile Char.isAlpha)
      let rest := t.dropWhile Char.isAlpha
      keptWord elide name rest ++ kept elide (word elide name rest).2.1
    else if isSpacing c then .blank :: kept elide t
    else if isHidden c then kept elide t
    else .escape c :: kept elide t
  | c :: t =>
    if c = '%' then .blank :: kept elide (skipLine t)
    else if c = '\n' ∨ c = '\r' ∨ c = '\t' then .blank :: kept elide t
    else if isHidden c then kept elide t
    else if isBlank c then .blank :: kept elide t
    else .sign c :: kept elide t
termination_by t => t.length
decreasing_by
  · have h₁ := length_dropWhile_le Char.isAlpha t
    have h₂ := length_word_le elide (String.ofList (c :: t.takeWhile Char.isAlpha))
      (t.dropWhile Char.isAlpha)
    simp only [List.length_cons]
    omega
  any_goals simp only [List.length_cons]
  any_goals omega
  · have := length_skipLine_le t
    omega

end Cleaning

/-! ## Fused words -/

namespace Piece

/-- The letters at the front of some pieces. -/
def leadingLetters : List Piece → Text
  | .sign c :: ps => if c.isAlpha then c :: leadingLetters ps else []
  | _ => []

/-- What follows the letters at the front of some pieces. -/
def afterLetters : List Piece → List Piece
  | .sign c :: ps => if c.isAlpha then afterLetters ps else .sign c :: ps
  | ps => ps

/-- Puts a piece in front of others. A control word takes the letters behind it into its name. -/
def fuseCons : Piece → List Piece → List Piece
  | .word name, ps => .word (name ++ String.ofList (leadingLetters ps)) :: afterLetters ps
  | p, ps => p :: ps

/-- The pieces with every control word fused with the letters behind it. -/
def fuse (ps : List Piece) : List Piece := ps.foldr fuseCons []

@[simp] theorem fuse_nil : fuse [] = [] := rfl

@[simp] theorem fuse_cons (p : Piece) (ps : List Piece) :
    fuse (p :: ps) = fuseCons p (fuse ps) := rfl

theorem fuse_append (ps qs : List Piece) : fuse (ps ++ qs) = ps.foldr fuseCons (fuse qs) :=
  List.foldr_append

theorem leadingLetters_pieces (t : Text) :
    leadingLetters (pieces t) = t.takeWhile Char.isAlpha := by
  fun_induction pieces t with
  | case1 => rfl
  | case2 => rfl
  | case3 c t hc ih => rfl
  | case4 c t hc ih => rfl
  | case5 c t hend hpair ih =>
    cases hblank : isBlank c with
    | true =>
      simp [leadingLetters, not_isAlpha_of_blank hblank]
    | false => simp [leadingLetters, List.takeWhile_cons, ih]

theorem afterLetters_of_leadingLetters {ps : List Piece} (h : leadingLetters ps = []) :
    afterLetters ps = ps := by
  cases ps with
  | nil => rfl
  | cons p ps =>
    cases p with
    | sign c =>
      cases halpha : c.isAlpha with
      | true => simp [leadingLetters, halpha] at h
      | false => simp [afterLetters, halpha]
    | _ => rfl

theorem afterLetters_pieces (t : Text) :
    afterLetters (pieces t) = pieces (t.dropWhile Char.isAlpha) := by
  induction t with
  | nil => rw [List.dropWhile_nil, pieces_nil]; rfl
  | cons c t ih =>
    cases halpha : c.isAlpha with
    | true =>
      rw [List.dropWhile_cons_of_pos halpha, ← ih, pieces_sign _ (isBlank_of_isAlpha halpha)]
      · simp [afterLetters, halpha]
      · rintro rfl
        cases halpha
    | false =>
      rw [List.dropWhile_cons_of_neg (by simp [halpha])]
      apply afterLetters_of_leadingLetters
      rw [leadingLetters_pieces, List.takeWhile_cons_of_neg (by simp [halpha])]

/-- A control word in front of a text. -/
theorem pieces_word_append {name : Text} (hne : name ≠ []) (hname : ∀ c ∈ name, c.isAlpha = true)
    (t : Text) :
    pieces ('\\' :: (name ++ t)) = fuseCons (.word (String.ofList name)) (pieces t) := by
  cases name with
  | nil => contradiction
  | cons c name =>
    obtain ⟨hc, hname⟩ := List.forall_mem_cons.mp hname
    rw [List.cons_append, pieces_word hc, List.takeWhile_append_of_pos hname,
      List.dropWhile_append_of_pos hname, fuseCons, leadingLetters_pieces, afterLetters_pieces,
      ← String.ofList_append]
    rfl

end Piece

/-- What is left of the pieces of a raw text. -/
def remnants (elide : Bool) (t : Text) : List Piece := Piece.fuse (Cleaning.kept elide t)

/-- What is written for a control word. -/
theorem Cleaning.word_fst (elide : Bool) (name : String) (rest : Text) :
    (word elide name rest).1 =
      if isLeftOut elide name then [' ']
      else '\\' :: (name.toList ++ if rest.head?.any isBlank then [' '] else []) := by
  unfold word isLeftOut
  by_cases harg : layoutWithArg.contains name
  · rw [if_pos harg, harg]
    rfl
  by_cases hbare : layoutBare.contains name
  · rw [if_neg harg, if_pos hbare, hbare, Bool.or_true]
    rfl
  by_cases hforbidden : elide && forbiddenCommands.contains name
  · rw [if_neg harg, if_neg hbare, if_pos hforbidden, hforbidden, Bool.or_true]
    rfl
  · have hstays : ¬ (layoutWithArg.contains name || layoutBare.contains name ||
        (elide && forbiddenCommands.contains name)) = true := by
      simp only [harg, hbare, hforbidden]
      decide
    rw [if_neg harg, if_neg hbare, if_neg hforbidden, if_neg hstays]
    cases rest <;> rfl

/-- A control word that is not left out takes nothing with it. -/
theorem Cleaning.word_rest {elide : Bool} {name : String} (h : isLeftOut elide name = false)
    (rest : Text) : (word elide name rest).2.1 = rest := by
  unfold isLeftOut at h
  obtain ⟨h, hforbidden⟩ := Bool.or_eq_false_iff.mp h
  obtain ⟨harg, hbare⟩ := Bool.or_eq_false_iff.mp h
  unfold word
  rw [harg, hbare, hforbidden]
  rfl

/-- What is written for a control word, in front of a text. -/
theorem pieces_written {name : Text} (hne : name ≠ []) (hname : ∀ c ∈ name, c.isAlpha = true)
    (elide : Bool) (rest out : Text) :
    pieces ((Cleaning.word elide (String.ofList name) rest).1 ++ out) =
      (Cleaning.keptWord elide (String.ofList name) rest).foldr Piece.fuseCons (pieces out) := by
  have hspace : pieces (' ' :: out) = .blank :: pieces out := pieces_blank (by decide) out
  rw [Cleaning.word_fst, Cleaning.keptWord]
  by_cases hleft : Cleaning.isLeftOut elide (String.ofList name)
  · rw [if_pos hleft, if_pos hleft]
    exact hspace
  rw [if_neg hleft, if_neg hleft, String.toList_ofList]
  by_cases hgap : rest.head?.any isBlank
  · rw [if_pos hgap, if_pos hgap, List.cons_append, List.append_assoc,
      Piece.pieces_word_append hne hname, List.singleton_append, hspace]
    rfl
  · rw [if_neg hgap, if_neg hgap, List.append_nil, List.cons_append,
      Piece.pieces_word_append hne hname]
    rfl

/-- **The remnants are the pieces of what is left.** -/
theorem pieces_strip (elide : Bool) (t : Text) :
    pieces (Cleaning.strip elide t).1 = remnants elide t := by
  unfold remnants
  fun_induction Cleaning.strip elide t with
  | case1 => simp [Cleaning.kept]
  | case2 => simp [Cleaning.kept]
  | case3 c t hc r out elided hstrip ih =>
    rw [hstrip] at ih
    have hname : ∀ x ∈ c :: t.takeWhile Char.isAlpha, x.isAlpha = true :=
      List.forall_mem_cons.mpr ⟨hc, List.all_eq_true.mp List.all_takeWhile⟩
    -- Letters at the front of what is left behind the word go into its name.
    rw [Cleaning.kept, if_pos hc, Piece.fuse_append, ← ih]
    exact pieces_written (List.cons_ne_nil _ _) hname elide _ out
  | case4 c t hc out elided hstrip hspacing ih =>
    rw [hstrip] at ih
    rw [Cleaning.kept, if_neg hc, if_pos hspacing, Piece.fuse_cons, ← ih]
    exact pieces_blank (by decide) out
  | case5 c t hc out elided hstrip hspacing hhidden ih =>
    rw [hstrip] at ih
    rw [Cleaning.kept, if_neg hc, if_neg hspacing, if_pos hhidden, ← ih]
  | case6 c t hc out elided hstrip hspacing hhidden ih =>
    rw [hstrip] at ih
    rw [Cleaning.kept, if_neg hc, if_neg hspacing, if_neg hhidden, Piece.fuse_cons, ← ih]
    exact pieces_escape (by simpa using hc) out
  | case7 t out elided hstrip hend hpair ih =>
    rw [hstrip] at ih
    rw [Cleaning.kept.eq_4 _ _ _ hend hpair, if_pos rfl, Piece.fuse_cons, ← ih]
    exact pieces_blank (by decide) out
  | case8 c t hend hpair hpercent out elided hstrip hgap ih =>
    have hblank : isBlank c = true := by rcases hgap with rfl | rfl | rfl <;> decide
    rw [hstrip] at ih
    rw [Cleaning.kept.eq_4 _ _ _ hend hpair, if_neg hpercent, if_pos hgap, Piece.fuse_cons, ← ih]
    exact pieces_blank (by decide) out
  | case9 c t hend hpair hpercent out elided hstrip hgap hhidden ih =>
    rw [hstrip] at ih
    rw [Cleaning.kept.eq_4 _ _ _ hend hpair, if_neg hpercent, if_neg hgap, if_pos hhidden, ← ih]
  | case10 c t hend hpair hpercent out elided hstrip hgap hhidden ih =>
    rw [hstrip] at ih
    rw [Cleaning.kept.eq_4 _ _ _ hend hpair, if_neg hpercent, if_neg hgap, if_neg hhidden]
    cases hblank : isBlank c with
    | true =>
      rw [if_pos rfl, Piece.fuse_cons, ← ih]
      exact pieces_blank hblank out
    | false =>
      rw [if_neg (by decide), Piece.fuse_cons, ← ih]
      exact pieces_sign (ne_backslash hend hpair) hblank out

/-- **An observer reports of a cleaned text what there is to report of the remnants.** -/
theorem Observer.observe_clean {σ τ : Type} (o : Observer σ τ) (elide : Bool) (t : Text) :
    o.observe (clean elide t).1 = o.readFrom o.start (remnants elide t) := by
  have hclean : (clean elide t).1 = Text.collapse (Cleaning.strip elide t).1 := rfl
  rw [hclean, o.observe_collapse, Observer.observe, pieces_strip]

end SpokenMath
