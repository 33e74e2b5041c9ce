import SpokenMath.Proofs.Markup.Expansion
import SpokenMath.Proofs.Markup.FixedPoint
import SpokenMath.Proofs.Markup.Reading
import SpokenMath.Proofs.Markup.Spelling
import SpokenMath.Proofs.Rule.Captured
import SpokenMath.Proofs.Rule.Command
import SpokenMath.Proofs.Rule.Iteration
import SpokenMath.Proofs.Text.Alike

/-!
# Rewriting a command in the canonical text of a tree

A rule for a command works on a text and knows nothing of trees. On the canonical text of a tree it
does what replacing the nodes of that command does to the tree.

**Theorem (`collapse_rewrite_linearize`).** Let a legible text be read as a tree without bracketed
arguments. A rule with a template, for a known command with its number of arguments, takes the
canonical text of the tree to the canonical text of the tree in which the template stands for the
command, up to blanks.

A piece of the canonical text is **spoken as** another text if it is balanced and the rule takes it
to that text, up to blanks (`SpokenAs`). Pieces may be put together, and the arguments of the
command may be replaced by what they are spoken as (`SpokenAs.use`). The theorem is by induction on
the tree, a node of which is needed in three places: by itself, between delimiters, and under
scripts (`Speaks`).
-/

namespace SpokenMath

open Text Node

/-! ## Templates -/

/-- A template keeps apart texts that differ in blanks only no better than they were. -/
theorem Replacement.alike_expand {c c' : Captures} (h : ∀ i, Alike (c.group i) (c'.group i))
    (t : Text) : Alike (expand c t) (expand c' t) := by
  fun_induction expand c t with
  | case1 => exact .refl _
  | case2 t ih => exact ih.append_left ['$']
  | case3 d t hdollar hdigit ih =>
    rw [expand, if_pos hdigit]
    · exact (h _).append ih
    · exact hdollar
  | case4 d t hdollar hdigit ih =>
    rw [expand, if_neg hdigit]
    · exact ih.append_left ['$']
    · exact hdollar
  | case5 x t htwo hone ih =>
    rw [expand]
    · exact ih.append_left [x]
    · exact htwo
    · exact hone

theorem alike_group {gs hs : List Text} (h : List.Forall₂ Alike gs hs) (i : Nat) :
    Alike (Captures.group { groups := gs } i) (Captures.group { groups := hs } i) := by
  cases i with
  | zero => exact .refl _
  | succ i =>
    show Alike (gs.getD i []) (hs.getD i [])
    induction h generalizing i with
    | nil => exact .refl _
    | cons hfirst _ ih =>
      cases i with
      | zero => exact hfirst
      | succ i => exact ih i

/-! ## Pieces -/

section Pieces

variable (name : Text) (arity : Nat) (render : Captures → Text)

/-- Behind any gap, the rule takes the piece `s` to the text `w`, up to blanks, and goes on. Where
the piece ends in a blank, which may not have been written, no letter may come next. -/
def Rewrites (s w : Text) : Prop :=
  ∀ g : Gap, g ≠ .start → ∃ out,
    (∀ u, (g.afterText s = .blank → ∀ c ∈ u.head?, c.isAlpha = false) →
      Rule.rewriteCommands name arity render (s.collapseFrom g ++ u) =
        out ++ Rule.rewriteCommands name arity render u) ∧
    Alike (out ++ (g.afterText s).space) (g.space ++ w)

/-- The rule takes a piece to the text `w`, and no brace of the piece lacks its partner. -/
structure SpokenAs (s w : Text) : Prop where
  balanced : ∀ g : Gap, Balanced (s.collapseFrom g)
  rewrites : Rewrites name arity render s w

variable {name arity render} {s s' w w' : Text}

theorem Gap.afterText_ne_start {g : Gap} (hg : g ≠ .start) (s : Text) : g.afterText s ≠ .start :=
  fun h => hg (collapseFrom_of_afterText_start h).1

theorem balanced_space (g : Gap) : Balanced g.space := by
  cases g with
  | blank => exact .single (by decide) (by decide) (by decide)
  | start | solid => exact .nil

theorem rewriteCommands_space (g : Gap) (u : Text) :
    Rule.rewriteCommands name arity render (g.space ++ u) =
      g.space ++ Rule.rewriteCommands name arity render u :=
  Rule.rewriteCommands_append_of_forall (by cases g <;> simp) u

namespace Rewrites

theorem append (h : Rewrites name arity render s w) (h' : Rewrites name arity render s' w') :
    Rewrites name arity render (s ++ s') (w ++ w') := by
  intro g hg
  obtain ⟨out, hout, halike⟩ := h g hg
  obtain ⟨out', hout', halike'⟩ := h' _ (Gap.afterText_ne_start hg s)
  refine ⟨out ++ out', fun u hu => ?_, ?_⟩
  · rw [Gap.afterText_append] at hu
    rw [collapseFrom_append, List.append_assoc, hout, hout' u hu, List.append_assoc]
    -- Behind a blank the second piece begins with a space, if it writes anything.
    intro hblank c hc
    rw [hblank] at hc hu
    rcases collapseFrom_blank s' with ⟨r, hr⟩ | ⟨hnil, hafter⟩
    · rw [hr] at hc
      obtain rfl := Option.some.inj hc
      decide
    · rw [hnil] at hc
      exact hu hafter c hc
  · have hfirst := halike.append_right w'
    rw [List.append_assoc, List.append_assoc] at hfirst
    rw [Gap.afterText_append, List.append_assoc]
    exact (halike'.append_left out).trans hfirst

/-- A text without backslashes is kept. -/
theorem of_forall (h : ∀ c ∈ s, c ≠ '\\') : Rewrites name arity render s s := by
  intro g hg
  refine ⟨s.collapseFrom g, fun u _ => ?_, alike_collapseFrom hg s⟩
  refine Rule.rewriteCommands_append_of_forall (fun c hc => ?_) u
  rcases mem_collapseFrom hc with hc | rfl
  · exact h c hc
  · decide

/-- A piece without blanks at its ends. -/
theorem of_solid {out : Text} (hs : s.Solid) (h : ∀ u,
    Rule.rewriteCommands name arity render (s.collapseFrom .solid ++ u) =
      out ++ Rule.rewriteCommands name arity render u) (halike : Alike out w) :
    Rewrites name arity render s w := by
  intro g _
  refine ⟨g.space ++ out, fun u _ => ?_, ?_⟩
  · rw [collapseFrom_of_head hs.head, List.append_assoc, rewriteCommands_space, h,
      List.append_assoc]
  · rw [afterText_of_last hs.last, Gap.space_solid, List.append_nil]
    exact halike.append_left _

theorem braces (h : Rewrites name arity render s w) :
    Rewrites name arity render (inBraces s) (inBraces w) :=
  (of_forall (List.forall_mem_singleton.mpr (by decide))).append
    (h.append (of_forall (List.forall_mem_singleton.mpr (by decide))))

/-- What stands behind a control word begins with a character that is no letter, however it is
collapsed. -/
theorem head_collapseFrom {u : Text} (hne : s ≠ []) (hs : ∀ c ∈ s.head?, c.isAlpha = false)
    (hu : Gap.solid.afterText s = .blank → ∀ c ∈ u.head?, c.isAlpha = false) :
    ∀ c ∈ (s.collapseFrom .solid ++ u).head?, c.isAlpha = false := by
  obtain ⟨d, s, rfl⟩ := List.exists_cons_of_ne_nil hne
  intro c hc
  cases hd : isBlank d with
  | true =>
    rw [collapseFrom_cons_of_blank hd] at hc
    rw [Gap.afterText_cons] at hu
    have hafter : Gap.solid.after d = .blank := by rw [Gap.after_of_blank hd, if_neg nofun]
    rw [hafter] at hc hu
    rcases collapseFrom_blank s with ⟨r, hr⟩ | ⟨hnil, hblank⟩
    · rw [hr] at hc
      obtain rfl := Option.some.inj hc
      decide
    · rw [hnil] at hc
      exact hu hblank c hc
  | false =>
    rw [collapseFrom_cons_of_not_blank hd] at hc
    obtain rfl := Option.some.inj hc
    exact hs d rfl

/-- Another control word is kept. -/
theorem word {word : Text} (hname : ∀ c ∈ name, c.isAlpha = true)
    (hword : ∀ c ∈ word, c.isAlpha = true) (hempty : word ≠ []) (hne : word ≠ name)
    (hs : s ≠ []) (hhead : ∀ c ∈ s.head?, c.isAlpha = false)
    (h : Rewrites name arity render s w) :
    Rewrites name arity render ('\\' :: (word ++ s)) ('\\' :: (word ++ w)) := by
  intro g _
  have hblank : ∀ c ∈ word, isBlank c = false := fun c hc => isBlank_of_isAlpha (hword c hc)
  have hcollapse : collapseFrom g ('\\' :: (word ++ s)) =
      g.space ++ '\\' :: (word ++ s.collapseFrom .solid) := by
    rw [collapseFrom_cons_of_not_blank (by decide), collapseFrom_append_of_not_blank hblank]
  have hafter : g.afterText ('\\' :: (word ++ s)) = Gap.solid.afterText s := by
    have hsolid : g.afterText ('\\' :: word) = .solid :=
      afterText_of_last (solid_name hblank).last g
    rw [← List.cons_append, Gap.afterText_append, hsolid]
  obtain ⟨out, hout, halike⟩ := h .solid nofun
  refine ⟨g.space ++ '\\' :: (word ++ out), fun u hu => ?_, ?_⟩
  · rw [hafter] at hu
    rw [hcollapse, List.append_assoc, List.cons_append, List.append_assoc, rewriteCommands_space,
      Rule.rewriteCommands_word hname hword hempty hne (head_collapseFrom hs hhead hu), hout u hu]
    simp
  · rw [hafter]
    have hbehind := (halike.append_left ('\\' :: word)).append_left g.space
    simpa using hbehind

/-- A piece that is written out with the blank behind it. -/
theorem alike_spaced (h : Rewrites name arity render s w) :
    Alike (Rule.rewriteCommands name arity render s.spaced) w := by
  obtain ⟨out, hout, halike⟩ := h .solid nofun
  have hspace : Rule.rewriteCommands name arity render (Gap.solid.afterText s).space =
      (Gap.solid.afterText s).space := by
    rw [← List.append_nil (Gap.solid.afterText s).space, rewriteCommands_space,
      Rule.rewriteCommands_nil]
  rw [spaced, hout, hspace]
  · exact halike
  · intro hblank c hc
    rw [hblank] at hc
    obtain rfl := Option.some.inj hc
    decide

/-- From the start of a text, a blank in front and a blank behind make no difference. -/
theorem collapse_rewriteCommands (h : Rewrites name arity render s w) :
    (Rule.rewriteCommands name arity render s.collapse).collapse = w.collapse := by
  obtain ⟨out, hout, halike⟩ := h .solid nofun
  have hsqueeze : Rule.rewriteCommands name arity render (squeeze s) = out := by
    have hend := hout [] (by simp)
    rwa [(collapseFrom_eq s).1, List.append_nil, Rule.rewriteCommands_nil, List.append_nil] at hend
  have hbehind : (out ++ (Gap.solid.afterText s).space).collapse = out.collapse := by
    rw [← collapseFrom_start, ← collapseFrom_start, collapseFrom_append]
    cases Gap.solid.afterText s <;> simp [collapseFrom, isBlank_space]
  have hfront : (Rule.rewriteCommands name arity render s.collapse).collapse = out.collapse := by
    by_cases hspace : ∃ r, squeeze s = ' ' :: r
    · obtain ⟨r, hr⟩ := hspace
      rw [hr, Rule.rewriteCommands_cons (by decide)] at hsqueeze
      rw [collapse_of_squeeze_cons_space hr, ← hsqueeze, collapse_cons_of_blank isBlank_space]
    · have hcollapse : s.collapse = squeeze s := by
        refine collapse_of_head_ne fun hhead => hspace ?_
        exact List.head?_eq_some_iff.mp hhead
      rw [hcollapse, hsqueeze]
  exact hfront.trans (hbehind.symm.trans halike.collapse_eq)

end Rewrites

namespace SpokenAs

theorem append (h : SpokenAs name arity render s w) (h' : SpokenAs name arity render s' w') :
    SpokenAs name arity render (s ++ s') (w ++ w') where
  balanced g := by
    rw [collapseFrom_append]
    exact (h.balanced g).append (h'.balanced _)
  rewrites := h.rewrites.append h'.rewrites

theorem of_forall (h : ∀ c ∈ s, c ≠ '\\' ∧ c ≠ '{' ∧ c ≠ '}') : SpokenAs name arity render s s where
  balanced g := by
    refine .of_forall fun c hc => ?_
    rcases mem_collapseFrom hc with hc | rfl
    · exact h c hc
    · decide
  rewrites := .of_forall fun c hc => (h c hc).1

theorem nil : SpokenAs name arity render [] [] := of_forall nofun

theorem balanced_spaced (h : SpokenAs name arity render s w) : Balanced s.spaced :=
  (h.balanced .solid).append (balanced_space _)

theorem braces (h : SpokenAs name arity render s w) :
    SpokenAs name arity render (inBraces s) (inBraces w) where
  balanced g := by
    have hsolid : (inBraces s).Solid := solid_delimited (by decide) (by decide) s
    rw [collapseFrom_of_head hsolid.head, inBraces, collapseFrom_delimited (by decide) (by decide)]
    exact (balanced_space g).append h.balanced_spaced.braces
  rewrites := h.rewrites.braces

/-- A backslash and a character that is no letter. -/
theorem escape (hempty : name ≠ []) (hname : ∀ c ∈ name, c.isAlpha = true) {c : Char}
    (hc : c.isAlpha = false) (hblank : isBlank c = false) :
    SpokenAs name arity render ['\\', c] ['\\', c] := by
  have hchars : ∀ d ∈ ['\\', c], isBlank d = false :=
    List.forall_mem_cons.mpr ⟨by decide, List.forall_mem_singleton.mpr hblank⟩
  have hsolid : Text.Solid ['\\', c] := solid_of_forall (by simp) hchars
  have hcollapse : collapseFrom .solid ['\\', c] = ['\\', c] := line_leaf hchars
  constructor
  · intro g
    rw [collapseFrom_of_head hsolid.head, hcollapse]
    exact (balanced_space g).append (.escape c)
  · refine .of_solid hsolid (fun u => ?_) (.refl _)
    rw [hcollapse]
    exact Rule.rewriteCommands_escape hempty hname hc u

theorem balanced_word {word : Text} (hword : ∀ c ∈ word, c.isAlpha = true) (hempty : word ≠ []) :
    Balanced ('\\' :: word) := by
  obtain ⟨c, word, rfl⟩ := List.exists_cons_of_ne_nil hempty
  refine (Balanced.escape c).append (.of_forall fun d hd => ?_)
  have hletter := hword d (List.mem_cons_of_mem c hd)
  refine ⟨?_, ?_, ?_⟩ <;> rintro rfl <;> exact absurd hletter (by decide)

/-- A control word other than the command. -/
theorem word {word : Text} (hname : ∀ c ∈ name, c.isAlpha = true)
    (hword : ∀ c ∈ word, c.isAlpha = true) (hempty : word ≠ []) (hne : word ≠ name)
    (hs : s ≠ []) (hhead : ∀ c ∈ s.head?, c.isAlpha = false)
    (h : SpokenAs name arity render s w) :
    SpokenAs name arity render ('\\' :: (word ++ s)) ('\\' :: (word ++ w)) where
  balanced g := by
    have hblank : ∀ c ∈ word, isBlank c = false := fun c hc => isBlank_of_isAlpha (hword c hc)
    rw [collapseFrom_cons_of_not_blank (by decide), collapseFrom_append_of_not_blank hblank]
    exact (balanced_space g).append ((balanced_word hword hempty).append (h.balanced _))
  rewrites := .word hname hword hempty hne hs hhead h.rewrites

/-- The command with its arguments, each of which is spoken as it is by itself. -/
theorem use {name : String} {args : List Node} {ws : List Text} (hname : IsWordName name)
    (hlength : args.length = arity) (hne : args ≠ [])
    (hrender : ∀ gs hs, List.Forall₂ Alike gs hs →
      Alike (render { groups := gs }) (render { groups := hs }))
    (h : List.Forall₂ (fun a w => SpokenAs name.toList arity render (spellAll a.contents) w)
      args ws) :
    SpokenAs name.toList arity render (spell false (command name args none))
      (render { groups := ws }) := by
  have hsolid := solid_command hname.not_blank args none
  have hline : collapseFrom .solid (spell false (command name args none)) =
      '\\' :: (name.toList ++ (args.map within).flatMap inBraces) := by
    rw [List.flatMap_map]
    exact line_command hname.not_blank args none
  have hbalanced : ∀ a ∈ args.map within, Balanced a := by
    clear hlength hne hsolid hline
    induction h with
    | nil => exact nofun
    | cons hs _ ih => exact List.forall_mem_cons.mpr ⟨hs.balanced_spaced, ih⟩
  have hgroups : List.Forall₂ Alike
      ((args.map within).map (Rule.rewriteCommands name.toList arity render)) ws := by
    clear hlength hne hsolid hline hbalanced
    induction h with
    | nil => exact .nil
    | cons hs _ ih => exact .cons hs.rewrites.alike_spaced ih
  constructor
  · intro g
    rw [collapseFrom_of_head hsolid.head, hline]
    exact (balanced_space g).append
      ((balanced_word hname.2 hname.1).append (.flatMap fun a ha => (hbalanced a ha).braces))
  · refine .of_solid hsolid (fun u => ?_) (hrender _ _ hgroups)
    obtain rfl : (args.map within).length = arity := (List.length_map within).trans hlength
    rw [hline, List.cons_append, List.append_assoc]
    exact Rule.rewriteCommands_use (by simpa using hne) hbalanced u

end SpokenAs

end Pieces

/-! ## Nodes -/

section Nodes

variable (name : String) (arity : Nat) (render : Captures → Text)

/-- A piece of the canonical text is spoken as what is written for a piece of the expanded tree. -/
def Speaks (s : Text) (write : Text → Text) : Prop :=
  ∃ w, SpokenAs name.toList arity render s w ∧ ∀ out, write out = w.reverse ++ out

/-- A node is spoken as its expansion, wherever it may stand. -/
structure Expands (n n' : Node) : Prop where
  node : Speaks name arity render (spell false n ++ n.pad) (emit false n')
  within : Speaks name arity render (spellAll n.contents) (emit true n')
  base : (∀ t, n = leaf t → IsBase t) → ∀ s write, s.head? = some '_' ∨ s.head? = some '^' →
    Speaks name arity render s write →
      Speaks name arity render (spell false n ++ s)
        fun out => write (dropSpace (emit false (asBase n n') out))

variable {name arity render} {n n' : Node} {s s' : Text} {write write' : Text → Text}

namespace Speaks

theorem append (h : Speaks name arity render s write) (h' : Speaks name arity render s' write') :
    Speaks name arity render (s ++ s') fun out => write' (write out) := by
  obtain ⟨w, hw, hwrite⟩ := h
  obtain ⟨w', hw', hwrite'⟩ := h'
  exact ⟨w ++ w', hw.append hw', fun out => by simp [hwrite, hwrite']⟩

theorem of_forall {t : Text} (h : ∀ c ∈ t, c ≠ '\\' ∧ c ≠ '{' ∧ c ≠ '}') :
    Speaks name arity render t fun out => t.reverse ++ out :=
  ⟨t, .of_forall h, fun _ => rfl⟩

theorem nil : Speaks name arity render [] fun out => out := of_forall nofun

theorem braces (h : Speaks name arity render s write) :
    Speaks name arity render (inBraces s) fun out => '}' :: write ('{' :: out) := by
  obtain ⟨w, hw, hwrite⟩ := h
  exact ⟨inBraces w, hw.braces, fun out => by simp [hwrite, inBraces]⟩

theorem word {word : String} (hname : IsWordName name) (hword : IsWordName word)
    (hne : word ≠ name) (hs : s ≠ []) (hhead : ∀ c ∈ s.head?, c.isAlpha = false)
    (h : Speaks name arity render s write) :
    Speaks name arity render ('\\' :: (word.toList ++ s))
      fun out => write (word.toList.reverse ++ '\\' :: out) := by
  obtain ⟨w, hw, hwrite⟩ := h
  have hne : word.toList ≠ name.toList := fun h => hne (String.toList_inj.mp h)
  exact ⟨_, .word hname.2 hword.2 hword.1 hne hs hhead hw, fun out => by simp [hwrite]⟩

/-- Nodes that are written one after the other. -/
theorem nodes {ns : List Node} {f : Node → Node}
    (h : ∀ n ∈ ns, Expands name arity render n (f n)) :
    Speaks name arity render (spellAll ns) (emitAll (ns.map f)) := by
  induction ns with
  | nil => exact .nil
  | cons n ns ih =>
    obtain ⟨hn, hns⟩ := List.forall_mem_cons.mp h
    rw [spellAll, ← List.append_assoc]
    exact hn.node.append (ih hns)

theorem args {ns : List Node} {f : Node → Node}
    (h : ∀ n ∈ ns, Expands name arity render n (f n)) :
    Speaks name arity render (spellArgs ns) (emitArgs (ns.map f)) := by
  rw [spellArgs_eq]
  induction ns with
  | nil => exact .nil
  | cons n ns ih =>
    obtain ⟨hn, hns⟩ := List.forall_mem_cons.mp h
    exact hn.within.braces.append (ih hns)

theorem mark {mark : Char} (hmark : mark ≠ '\\' ∧ mark ≠ '{' ∧ mark ≠ '}') {o : Option Node}
    {f : Node → Node} (h : ∀ n ∈ o, Expands name arity render n (f n)) :
    Speaks name arity render (spellMark mark o) (emitMark mark (o.map f)) := by
  cases o with
  | none => exact .nil
  | some n =>
    rw [spellMark_some]
    exact (of_forall (t := [mark]) (by simpa using hmark)).append (h n rfl).within.braces

end Speaks

namespace Expands

/-- What is written for a node is kept under a script. -/
theorem of_kept (halone : n.isAlone = false)
    (hnode : Speaks name arity render (spell false n) (emit false n'))
    (hwithin : Speaks name arity render (spellAll n.contents) (emit true n'))
    (hdrop : (∀ t, n = leaf t → IsBase t) →
      ∀ out, dropSpace (emit false (asBase n n') out) = emit false n' out) :
    Expands name arity render n n' where
  node := by rwa [pad_of_not_isAlone halone, List.append_nil]
  within := hwithin
  base hbase s write _ hs := by
    simp only [hdrop hbase]
    exact hnode.append hs

/-- Between delimiters, a node that is no group is spoken as it is elsewhere. -/
theorem within_of_node (hcontents : n.contents = [n]) (hemit : emit true n' = emit false n')
    (hnode : Speaks name arity render (spell false n ++ n.pad) (emit false n')) :
    Speaks name arity render (spellAll n.contents) (emit true n') := by
  rw [hcontents, hemit, spellAll, spellAll, List.append_nil]
  exact hnode

theorem of_kept_node (hcontents : n.contents = [n]) (hemit : emit true n' = emit false n')
    (halone : n.isAlone = false) (hnode : Speaks name arity render (spell false n) (emit false n'))
    (hdrop : (∀ t, n = leaf t → IsBase t) →
      ∀ out, dropSpace (emit false (asBase n n') out) = emit false n' out) :
    Expands name arity render n n' :=
  of_kept halone hnode (within_of_node hcontents hemit
    (by rwa [pad_of_not_isAlone halone, List.append_nil])) hdrop

theorem leaf {t : Text} (h : ∀ c ∈ t, IsLiteral c) :
    Expands name arity render (.leaf t) (.leaf t) := by
  have hchars : ∀ c ∈ t, c ≠ '\\' ∧ c ≠ '{' ∧ c ≠ '}' := by
    intro c hc
    refine ⟨?_, ?_, ?_⟩ <;> rintro rfl <;> rcases h _ hc with h | h | h <;> revert h <;> decide
  exact of_kept_node rfl rfl rfl (.of_forall hchars) fun hbase =>
    dropSpace_of_solid (solid_of_isBase (hbase t rfl))

theorem group {cs : List Node} {f : Node → Node}
    (h : ∀ c ∈ cs, Expands name arity render c (f c)) :
    Expands name arity render (.group cs) (.group (cs.map f)) := by
  have hwithin := Speaks.nodes h
  refine of_kept rfl ?_ hwithin fun _ _ => rfl
  rw [spell_group]
  exact hwithin.braces

theorem sign (hname : IsWordName name) {c : Char} (halpha : c.isAlpha = false)
    (hblank : isBlank c = false) :
    Expands name arity render (.bare (String.singleton c)) (.bare (String.singleton c)) := by
  have hword : isWord (String.singleton c) = false := by simp [isWord, halpha]
  have hspell : spell false (.bare (String.singleton c)) = ['\\', c] := by
    simp [bare, spell, spellOptional, spellArgs]
  have hemit : ∀ out, emit false (.bare (String.singleton c)) out = c :: '\\' :: out := by
    simp [bare, emit, emitOptional, emitArgs, hword]
  refine of_kept_node rfl rfl (by simp [isAlone, bare, hword]) ?_ fun _ out => ?_
  · rw [hspell]
    exact ⟨['\\', c], .escape hname.1 hname.2 halpha hblank, hemit⟩
  · have hsolid : Text.Solid ['\\', c] := solid_name (List.forall_mem_singleton.mpr hblank)
    show dropSpace (emit false (.bare (String.singleton c)) out) = _
    rw [hemit]
    exact dropSpace_of_solid hsolid out

/-- The command itself. -/
theorem use {args : List Node} {f : Node → Node} (hname : IsWordName name)
    (hlength : args.length = arity) (hne : args ≠ [])
    (hrender : ∀ gs hs, List.Forall₂ Alike gs hs →
      Alike (render { groups := gs }) (render { groups := hs }))
    (h : ∀ a ∈ args, Expands name arity render a (f a)) :
    Expands name arity render (.command name args none)
      (.leaf (render { groups := args.map fun a => (f a).textWithin })) := by
  have hargs : List.Forall₂ (fun a w => SpokenAs name.toList arity render (spellAll a.contents) w)
      args (args.map fun a => (f a).textWithin) := by
    refine List.forall₂_map_right_iff.mpr (List.forall₂_same.mpr fun a ha => ?_)
    obtain ⟨w, hw, hwrite⟩ := (h a ha).within
    have htext : (f a).textWithin = w := by simp [textWithin, hwrite]
    rwa [htext]
  have halone : (Node.command name args none).isAlone = false := by simp [isAlone, hne]
  refine of_kept_node rfl rfl halone ⟨_, .use hname hlength hne hrender hargs, fun _ => rfl⟩ ?_
  -- The space that the script takes off is the one that `asBase` puts there.
  intro _ out
  simp [asBase, emit, dropSpace]

theorem emitArgs_ne_nil {ns : List Node} (h : ns ≠ []) (out : Text) :
    ∃ r, emitArgs ns out = '}' :: r := by
  induction ns generalizing out with
  | nil => exact absurd rfl h
  | cons n ns ih =>
    cases ns with
    | nil => exact ⟨_, rfl⟩
    | cons m ns => exact ih nofun _

/-- Another control word. -/
theorem word {word : String} {args : List Node} {f : Node → Node} (hname : IsWordName name)
    (hword : IsWordName word) (hne : word ≠ name)
    (h : ∀ a ∈ args, Expands name arity render a (f a)) :
    Expands name arity render (.command word args none) (.command word (args.map f) none) := by
  have hargs := Speaks.args h
  have hisWord : isWord word = true := List.all_eq_true.mpr hword.2
  cases args with
  | nil =>
    have hemit : ∀ out, emit false (.command word [] none) out =
        ' ' :: (word.toList.reverse ++ '\\' :: out) := by
      simp [emit, emitArgs, emitOptional, hisWord]
    have hspell : spell false (.command word [] none) = '\\' :: word.toList := by
      simp [spell, spellArgs, spellOptional]
    have hnode : Speaks name arity render (spell false (.command word [] none) ++ [' '])
        (emit false (.command word [] none)) := by
      have hspace : Speaks name arity render [' '] fun out => ' ' :: out :=
        .of_forall (List.forall_mem_singleton.mpr (by decide))
      have hspoken := hspace.word hname hword hne (List.cons_ne_nil _ _)
        (by rintro c ⟨⟩; decide)
      rw [hspell, funext hemit]
      exact hspoken
    have hpad : (Node.command word [] none).pad = [' '] :=
      pad_of_isAlone (by simp [isAlone, hisWord])
    rw [← hpad] at hnode
    refine ⟨hnode, within_of_node rfl rfl hnode, fun _ s write hs hwrite => ?_⟩
    have hmark : ∀ c ∈ s.head?, c.isAlpha = false := by
      intro c hc
      rcases hs with hs | hs <;> rw [hs] at hc <;> obtain rfl := Option.some.inj hc <;> decide
    have hempty : s ≠ [] := by
      rintro rfl
      simp at hs
    simpa only [hspell, asBase, List.map_nil, hemit, dropSpace, List.cons_append] using
      hwrite.word hname hword hne hempty hmark
  | cons a as =>
    have hspell : spell false (.command word (a :: as) none) =
        '\\' :: (word.toList ++ spellArgs (a :: as)) := rfl
    have hemit : ∀ out, emit false (.command word ((a :: as).map f) none) out =
        emitArgs ((a :: as).map f) (word.toList.reverse ++ '\\' :: out) := by
      simp [emit, emitOptional]
    refine of_kept_node rfl rfl (by simp [isAlone]) ?_ fun _ out => ?_
    · have hspoken := hargs.word hname hword hne (List.cons_ne_nil _ _)
        (by rintro c ⟨⟩; decide)
      rw [hspell, funext hemit]
      exact hspoken
    · have hne : (a :: as).map f ≠ [] := List.cons_ne_nil _ _
      obtain ⟨r, hr⟩ := emitArgs_ne_nil hne (word.toList.reverse ++ '\\' :: out)
      rw [asBase, hemit, hr]
      · rfl
      · rintro _ _ _ _ _ ⟨⟩

theorem script {base base' : Node} {sub sup : Option Node} {f : Node → Node}
    (hleaf : ∀ t, base = .leaf t → IsBase t) (hsome : sub ≠ none ∨ sup ≠ none)
    (hbase : Expands name arity render base base')
    (hsub : ∀ n ∈ sub, Expands name arity render n (f n))
    (hsup : ∀ n ∈ sup, Expands name arity render n (f n)) :
    Expands name arity render (.script base sub sup)
      (.script (asBase base base') (sub.map f) (sup.map f)) := by
  have hmarks : Speaks name arity render (spellMark '_' sub ++ spellMark '^' sup) _ :=
    (Speaks.mark (by decide) hsub).append (.mark (by decide) hsup)
  refine of_kept_node rfl rfl rfl ?_ fun _ out => ?_
  · refine hbase.base hleaf _ _ ?_ hmarks
    cases sub with
    | some => exact .inl rfl
    | none =>
      cases sup with
      | some => exact .inr rfl
      | none => simp at hsome
  · cases sup with
    | some => rfl
    | none =>
      cases sub with
      | some => rfl
      | none => simp at hsome

end Expands

/-- **Every node of a proper tree is spoken as its expansion.** -/
theorem expands_of_proper {shape : Shape} (hname : IsWordName name)
    (hshape : Shape.ofCommand? name = some shape) (hsome : 1 ≤ shape.args)
    (hrender : ∀ gs hs, List.Forall₂ Alike gs hs →
      Alike (render { groups := gs }) (render { groups := hs }))
    (h : n.Proper) (hplain : n.WithoutOptions) :
    Expands name shape.args render n (n.expandCommands name render) := by
  induction h with
  | leaf _ hliteral => exact .leaf hliteral
  | group _ _ ih =>
    rw [expandCommands_group]
    exact .group fun c hc => ih c hc (withoutOptions_group.mp hplain c hc)
  | @sign c halpha _ hblank =>
    have hne : String.singleton c ≠ name := by
      rintro rfl
      rw [hname.2 c (by simp)] at halpha
      cases halpha
    rw [bare, expandCommands_of_ne hne]
    exact .sign hname halpha hblank
  | @known word shape' args optional _ hword hshape' hlength _ _ _ ih _ =>
    obtain ⟨rfl, hargs⟩ := withoutOptions_command.mp hplain
    by_cases hne : word = name
    · subst hne
      obtain rfl := Option.some.inj (hshape.symm.trans hshape')
      have hempty : args ≠ [] := by
        rintro rfl
        rw [← hlength] at hsome
        exact absurd hsome (by decide)
      rw [expandCommands_self]
      exact .use hname hlength hempty hrender fun a ha => ih a ha (hargs a ha)
    · rw [expandCommands_of_ne hne]
      exact .word hname hword hne fun a ha => ih a ha (hargs a ha)
  | @unknownBare word _ hword hnone =>
    have hne : word ≠ name := by
      rintro rfl
      cases hnone.symm.trans hshape
    rw [bare, expandCommands_of_ne hne]
    exact .word hname hword hne (List.forall_mem_nil _)
  | @unknownBraces word cs _ hword hnone _ ih =>
    have hne : word ≠ name := by
      rintro rfl
      cases hnone.symm.trans hshape
    rw [expandCommands_of_ne hne]
    have hargs := (withoutOptions_command.mp hplain).2
    refine .word hname hword hne fun a ha => ?_
    obtain rfl := List.mem_singleton.mp ha
    exact ih (hargs _ ha)
  | script _ hleaf _ _ hmark ihbase ihsub ihsup =>
    obtain ⟨hbase, hsub, hsup⟩ := withoutOptions_script.mp hplain
    rw [expandCommands_script]
    exact .script hleaf hmark (ihbase hbase) (fun x hx => ihsub x hx (hsub x hx))
      fun y hy => ihsup y hy (hsup y hy)

end Nodes

/-! ## The whole text -/

/-- **A rule for a command takes the canonical text of a tree to that of the tree in which the
command is replaced.** -/
theorem collapse_rewrite_linearize {limits : ReadLimits} {t : Text} {p : Parsed} {shape : Shape}
    {name template : String} {r : Rule} (ht : Legible t) (hread : parse limits t = .ok p)
    (hplain : p.tree.WithoutOptions) (hshape : Shape.ofCommand? name = some shape)
    (hsome : 1 ≤ shape.args) (hmatcher : r.matcher = .command name shape.args)
    (hreplacement : r.replacement = .template template) :
    ((r.rewrite? p.tree.linearize).getD p.tree.linearize).collapse =
      (p.tree.expandCommands name fun c => Replacement.expand c template).linearize := by
  obtain ⟨cs, rest, htree, hreads⟩ := reads_of_parse hread ht
  have hproper : (group cs).Proper := hreads.proper ht.tidy
  have hname := isWordName_of_shape hshape hsome
  have hrender : ∀ gs hs, List.Forall₂ Alike gs hs →
      Alike (Replacement.expand { groups := gs } template)
        (Replacement.expand { groups := hs } template) :=
    fun gs hs h => Replacement.alike_expand (alike_group h) _
  have hwithin : Speaks name shape.args (fun c => Replacement.expand c template) (spellAll cs) _ :=
    (expands_of_proper hname hshape hsome hrender hproper (htree ▸ hplain)).within
  obtain ⟨w, hw, hwrite⟩ := hwithin
  have hrule : r.rewriteAll p.tree.linearize = Rule.rewriteCommands name.toList shape.args
      (fun c => Replacement.expand c template) (spellAll cs).collapse := by
    rw [htree, linearize_group hproper.spelled, Rule.rewriteAll, hmatcher, hreplacement]
    rfl
  have hlinear : ((group cs).expandCommands name fun c =>
      Replacement.expand c template).linearize = w.collapse := by
    rw [linearize, hwrite, List.append_nil, List.reverse_reverse]
  rw [Rewriting.getD_rewrite?, hrule, hw.rewrites.collapse_rewriteCommands, htree, hlinear]

/-- Fractions in a fraction, under a script and with a script. -/
def nestedFractions : Text := "\\frac12 x_\\frac\x7ba\\frac3b\x7d\x7b\\sin c\x7d+\\frac78^2".toList

/-- The rule that speaks a fraction, with a space at the end. -/
def fractionRule : Rule := .command "fraction" 500 "frac" 2 "$1 over $2 " "a fraction"

theorem collapse_rewrite_linearize_nestedFractions :
    Legible nestedFractions ∧ ∃ p, parse ⟨48, .never 2000⟩ nestedFractions = .ok p ∧
      p.tree.WithoutOptions ∧
      ((fractionRule.rewrite? p.tree.linearize).getD p.tree.linearize).collapse =
        "1 over 2 x_\x7ba3 over b over \\sin c \x7d+7 over 8 ^\x7b2\x7d".toList := by
  have hlegible : Legible nestedFractions := by decide +kernel
  have hread : (parse ⟨48, .never 2000⟩ nestedFractions).toOption.map
      (fun p => (decide p.tree.WithoutOptions, (p.tree.expandCommands "frac" fun c =>
        Replacement.expand c "$1 over $2 ".toList).linearize)) =
      some (true, "1 over 2 x_\x7ba3 over b over \\sin c \x7d+7 over 8 ^\x7b2\x7d".toList) := by
    decide +kernel
  obtain ⟨p, hp, hvalue⟩ := exists_parse_of_map hread
  obtain ⟨hplain, hlinear⟩ := Prod.mk.inj hvalue
  have hplain : p.tree.WithoutOptions := of_decide_eq_true hplain
  refine ⟨hlegible, p, hp, hplain, ?_⟩
  exact (collapse_rewrite_linearize hlegible hp hplain rfl (by decide) rfl rfl).trans hlinear

end SpokenMath
