import SpokenMath.Proofs.Markup.Literal
import SpokenMath.Proofs.Markup.Order
import SpokenMath.Proofs.Markup.Spelling

/-!
# Reading canonical text from left to right

Canonical text is read piece by piece. What a piece is read as depends on what may stand behind it
(`Follows`, `Ends`), and on what was read in front of it: literal text goes on with the leaf before
it, and a number would go on with the digits before it (`Stands`, `Welcomes`). So `Rereads` says of
a node, and `RereadsAll` of nodes one after the other, what is read whatever comes next.

What is read need not be the same. It is the same exactly if the nodes are orderly, and that is
carried along with each piece (`SameIf`).

**Theorem (`exists_rereadsAll`, `exists_rereadsWithin`).** If every node that is no leaf is read
back by itself, then proper nodes are read back one after the other, and between delimiters.
-/

namespace SpokenMath

open Node Text

namespace Reading

/-! ## One node -/

/-- What may stand behind a node in canonical text. -/
structure Follows (n : Node) (t : Text) : Prop where
  /-- A control word that stands alone is followed by its space, if not by a script. -/
  alone : n.isAlone = true → ∀ c ∈ t.head?, c = ' ' ∨ c = '_' ∨ c = '^'
  /-- All scripts of a node are read. -/
  mark : ∀ base sub sup, n = script base sub sup → ∀ c ∈ t.head?, c ≠ '_' ∧ c ≠ '^'

/-- The canonical text of `n` is read as `n'`. -/
structure Rereads (n n' : Node) : Prop where
  spelled : n'.Spelled
  solid : (spell false n').Solid
  ne_leaf : ∀ t, n' ≠ leaf t
  isAlone_eq : n'.isAlone = n.isAlone
  same : SameIf n.Orderly n.line n'.line
  reads : ∀ {stop acc t ns rest}, (stop = .atBracket → ']' ∉ n.core) →
    (n.core ≠ [] → Ready acc n.core) → Follows n t →
    Reads (.nodes stop (n' :: acc)) (tokenize t) ns rest →
    Reads (.nodes stop acc) (tokenize (n.line ++ t)) ns rest

/-- The canonical text of `n` between delimiters is read as `n'`. -/
structure RereadsWithin (n n' : Node) : Prop where
  spelled : n'.Spelled
  same : SameIf n.Orderly n.within n'.within
  braces : ∀ t, Reads .group (tokenize (n.within ++ '}' :: t)) [n'] (tokenize t)
  brackets : Unbracketed n.contents → ∀ t,
    Reads (.optional true) (tokenize ('[' :: (n.within ++ ']' :: t))) [n'] (tokenize t)

/-! ## Nodes one after the other -/

/-- The nodes read so far, the last one first, leave as much of a gap as the text did. -/
structure Stands (s : Gap) (acc : List Node) (g : Gap) : Prop where
  reaches : (s.afterText (spellAll acc.reverse)).Reaches g
  eq_nil : g = .start → acc = []
  filled : ∀ t, acc.head? = some (leaf t) → t ≠ []
  spelled : ∀ n ∈ acc, n.Spelled

/-- What may stand behind nodes that leave a gap. -/
structure Ends (g : Gap) (t : Text) : Prop where
  blank : g = .blank → ∀ c ∈ t.head?, c = ' '
  mark : ∀ c ∈ t.head?, c ≠ '_' ∧ c ≠ '^'

/-- Behind the nodes `acc`, the canonical text of `cs` is read, and `acc'` stands there then. -/
structure RereadsAll (s : Gap) (acc : List Node) (g : Gap) (cs acc' : List Node) : Prop where
  stands : Stands s acc' (g.afterText (spellAll cs))
  same : ∃ text, collapseFrom s (spellAll acc'.reverse) =
      collapseFrom s (spellAll acc.reverse) ++ text ∧
    SameIf (∀ c ∈ cs, c.Orderly) (collapseFrom g (spellAll cs)) text
  reads : ∀ {stop t ns rest}, (stop = .atBracket → Unbracketed cs) →
    Ends (g.afterText (spellAll cs)) t → Reads (.nodes stop acc') (tokenize t) ns rest →
    Reads (.nodes stop acc) (tokenize (collapseFrom g (spellAll cs) ++ t)) ns rest

theorem spellAll_append (ns ms : List Node) : spellAll (ns ++ ms) = spellAll ns ++ spellAll ms := by
  induction ns with
  | nil => rfl
  | cons n ns ih => simp [spellAll, ih]

theorem spellAll_write (run : Text) (acc : List Node) :
    spellAll (write run acc).reverse = spellAll acc.reverse ++ run := by
  unfold write
  split
  · next hrun => rw [List.isEmpty_iff.mp hrun, List.append_nil]
  · unfold pushText
    split <;> simp [spellAll_append, spellAll, spell, pad, isAlone]

theorem spelled_write {acc : List Node} (h : ∀ n ∈ acc, n.Spelled) (run : Text) :
    ∀ n ∈ write run acc, n.Spelled := by
  unfold write
  split
  · exact h
  · unfold pushText
    split
    · exact List.forall_mem_cons.mpr ⟨spelled_leaf _, (List.forall_mem_cons.mp h).2⟩
    · exact List.forall_mem_cons.mpr ⟨spelled_leaf _, h⟩

/-- Where nothing has been read, nothing else is there. -/
theorem Stands.nil (g : Gap) : Stands g [] g :=
  ⟨.refl g, fun _ => rfl, by simp, by simp⟩

variable {s g : Gap} {acc acc' acc₁ cs : List Node} {t : Text} {n n' : Node}

theorem RereadsAll.nil (h : Stands s acc g) : RereadsAll s acc g [] acc where
  stands := h
  same := ⟨[], (List.append_nil _).symm, .refl nofun []⟩
  reads _ _ h := h

/-- What comes next does not begin with a mark. -/
theorem Ends.append (h : Ends (g.afterText (spellAll cs)) t)
    (hmark : ∀ c ∈ (collapseFrom g (spellAll cs)).head?, c ≠ '_' ∧ c ≠ '^') :
    Ends g (collapseFrom g (spellAll cs) ++ t) := by
  constructor
  · rintro rfl
    rcases collapseFrom_blank (spellAll cs) with ⟨r, hr⟩ | ⟨hnil, hafter⟩
    · simp [hr]
    · rw [hnil, List.nil_append]
      exact h.blank hafter
  · cases hcollapse : collapseFrom g (spellAll cs) with
    | nil => exact h.mark
    | cons c r =>
      rw [hcollapse] at hmark
      exact hmark

theorem RereadsAll.cons (h : RereadsAll s acc g [n] acc₁)
    (h' : RereadsAll s acc₁ (g.afterText (spellAll [n])) cs acc')
    (hmark : ∀ c ∈ (collapseFrom (g.afterText (spellAll [n])) (spellAll cs)).head?,
      c ≠ '_' ∧ c ≠ '^') : RereadsAll s acc g (n :: cs) acc' := by
  have hspell : spellAll (n :: cs) = spellAll [n] ++ spellAll cs := spellAll_append [n] cs
  constructor
  · rw [hspell, Gap.afterText_append]
    exact h'.stands
  · obtain ⟨text, htext, hsame⟩ := h.same
    obtain ⟨text', htext', hsame'⟩ := h'.same
    refine ⟨text ++ text', by rw [htext', htext, List.append_assoc], ?_⟩
    rw [hspell, collapseFrom_append]
    exact (hsame.append hsame').congr (by simp)
  · intro stop u ns rest hbracket hends hreads
    rw [hspell, Gap.afterText_append] at hends
    rw [hspell, collapseFrom_append, List.append_assoc]
    refine h.reads (fun hstop m hm => hbracket hstop m ?_) (hends.append hmark)
      (h'.reads (fun hstop m hm => hbracket hstop m (List.mem_cons_of_mem n hm)) hends hreads)
    rw [List.mem_singleton.mp hm]
    exact List.mem_cons_self

/-! ## A leaf -/

theorem isLiteral_space : IsLiteral ' ' := .inl (by decide)

theorem isLiteral_collapseFrom {u : Text} (h : ∀ c ∈ u, IsLiteral c) :
    ∀ c ∈ collapseFrom g u, IsLiteral c := by
  intro c hc
  rcases mem_collapseFrom hc with hc | rfl
  · exact h c hc
  · exact isLiteral_space

/-- A leaf is read as far as it is written, and goes on with the leaf before it. -/
theorem RereadsAll.leaf {u : Text} (h : Stands s acc g)
    (hliteral : ∀ c ∈ u, IsLiteral c) :
    RereadsAll s acc g [leaf u] (write (collapseFrom g u) acc) := by
  have hspell : spellAll [Node.leaf u] = u := by simp [spellAll, spell, pad, isAlone]
  constructor
  · rw [hspell]
    constructor
    · rw [spellAll_write, Gap.afterText_append]
      exact reaches_afterText h.reaches u
    · intro hstart
      obtain ⟨hg, hnil⟩ := collapseFrom_of_afterText_start hstart
      rw [hnil, write_nil]
      exact h.eq_nil hg
    · intro v hv
      unfold write at hv
      split at hv
      · exact h.filled v hv
      · next hrun =>
        unfold pushText at hv
        split at hv
        · obtain rfl := Node.leaf.inj (Option.some.inj hv)
          simp at hrun
          simp [hrun]
        · obtain rfl := Node.leaf.inj (Option.some.inj hv)
          simpa using hrun
    · exact spelled_write h.spelled _
  · refine ⟨collapseFrom g u, ?_, ?_⟩
    · rw [spellAll_write, collapseFrom_append, collapseFrom_collapseFrom h.reaches]
    · rw [hspell]
      exact .refl (by simp [orderly_leaf]) _
  · intro stop v ns rest hbracket _ hreads
    rw [hspell]
    refine reads_run (isLiteral_collapseFrom hliteral) (fun hstop hmem => ?_) hreads
    refine (mem_collapseFrom hmem).elim (hbracket hstop (Node.leaf u) List.mem_cons_self) ?_
    decide

/-! ## A node that is no leaf -/

theorem collapseFrom_pad (g : Gap) (n : Node) : collapseFrom g n.pad = [] := by
  cases halone : n.isAlone with
  | true => rw [pad_of_isAlone halone, collapseFrom_cons_of_blank isBlank_space, collapseFrom_nil]
  | false => rw [pad_of_not_isAlone halone, collapseFrom_nil]

theorem afterText_spellAll_singleton (h : (spell false n).Solid) (g : Gap) :
    g.afterText (spellAll [n]) = if n.isAlone then .blank else .solid := by
  rw [spellAll, Gap.afterText_append, afterText_of_last h.last]
  cases halone : n.isAlone with
  | true => rw [pad_of_isAlone halone]; rfl
  | false => rw [pad_of_not_isAlone halone]; rfl

theorem collapseFrom_spellAll_singleton (h : (spell false n).Solid) (g : Gap) :
    collapseFrom g (spellAll [n]) = g.space ++ n.line := by
  rw [collapseFrom_spellAll_cons h, spellAll, collapseFrom_nil, List.append_nil]

/-- A space that is due is read as literal text, and the node behind it. -/
theorem RereadsAll.node (h : Stands s acc g) (hn : Rereads n n') (hsolid : (spell false n).Solid)
    (hready : n.core ≠ [] → Ready (write g.space acc) n.core) :
    RereadsAll s acc g [n] (n' :: write g.space acc) := by
  have hspell : spellAll (n' :: write g.space acc).reverse =
      spellAll acc.reverse ++ g.space ++ spellAll [n'] := by
    rw [List.reverse_cons, spellAll_append, spellAll_write]
  have hafter := afterText_spellAll_singleton hsolid g
  constructor
  · constructor
    · rw [hspell, Gap.afterText_append, afterText_spellAll_singleton hn.solid, hn.isAlone_eq,
        hafter]
      exact .refl _
    · intro hstart
      rw [hafter] at hstart
      split at hstart <;> cases hstart
    · intro u hu
      exact absurd (Option.some.inj hu) (hn.ne_leaf u)
    · exact List.forall_mem_cons.mpr ⟨hn.spelled, spelled_write h.spelled _⟩
  · refine ⟨g.space ++ n'.line, ?_, ?_⟩
    · rw [hspell, List.append_assoc, collapseFrom_append, spellAll, spellAll, List.append_nil,
        ← List.append_assoc g.space, collapseFrom_append (_),
        hn.solid.collapseFrom_space_append h.reaches, collapseFrom_pad, List.append_nil]
      rfl
    · rw [collapseFrom_spellAll_singleton hsolid]
      exact (hn.same.append_left g.space).congr (by simp)
  · intro stop u ns rest hbracket hends hreads
    rw [collapseFrom_spellAll_singleton hsolid, List.append_assoc]
    rw [hafter] at hends
    refine reads_run (by cases g <;> simp [isLiteral_space]) (by cases g <;> simp) ?_
    refine hn.reads (fun hstop => hbracket hstop n List.mem_cons_self) hready ⟨?_, ?_⟩ hreads
    · intro halone c hc
      rw [if_pos halone] at hends
      exact .inl (hends.blank rfl c hc)
    · exact fun _ _ _ _ => hends.mark

/-! ## All nodes -/

theorem not_mark_of_isLiteral {c : Char} (h : IsLiteral c) : c ≠ '_' ∧ c ≠ '^' := by
  constructor <;> rintro rfl <;> revert h <;> simp [IsLiteral, Token.isPlain, Token.isSpecial]

/-- The text of a proper node does not begin with a mark. -/
theorem head_spell (h : n.Proper) : ∀ c ∈ (spell false n).head?, c ≠ '_' ∧ c ≠ '^' := by
  induction h with
  | leaf _ hliteral =>
    exact fun c hc => not_mark_of_isLiteral (hliteral c (List.mem_of_mem_head? hc))
  | group => simp [spell]
  | sign | known | unknownBare | unknownBraces => simp [spell, bare]
  | @script base sub sup hbase hleaf _ _ _ ih =>
    obtain ⟨c, hc, -⟩ := (hbase.solid hleaf).head
    intro d hd
    rw [spell, List.head?_append, Option.mem_def.mp hc] at hd
    exact ih d (hc.trans hd)

theorem solid_of_ne_leaf (h : n.Proper) (hleaf : ∀ t, n ≠ leaf t) : (spell false n).Solid :=
  h.solid fun t ht => absurd ht (hleaf t)

/-- The text of proper nodes does not begin with a mark. -/
theorem head_collapseFrom_spellAll (h : ∀ c ∈ cs, c.Proper) (g : Gap) :
    ∀ c ∈ (collapseFrom g (spellAll cs)).head?, c ≠ '_' ∧ c ≠ '^' := by
  induction cs generalizing g with
  | nil => nofun
  | cons n cs ih =>
    obtain ⟨hn, hcs⟩ := List.forall_mem_cons.mp h
    by_cases hleaf : ∃ u, n = leaf u
    · obtain ⟨u, rfl⟩ := hleaf
      rw [spellAll, collapseFrom_append, spell]
      intro c hc
      cases hcollapse : collapseFrom g u with
      | nil =>
        rw [hcollapse] at hc
        exact ih hcs _ c hc
      | cons d r =>
        rw [hcollapse] at hc
        obtain rfl := Option.some.inj hc
        exact not_mark_of_isLiteral (isLiteral_collapseFrom hn.leaf_literal.2 d
          (hcollapse ▸ List.mem_cons_self))
    · have hsolid := solid_of_ne_leaf hn fun t ht => hleaf ⟨t, ht⟩
      obtain ⟨d, hd, hblank⟩ := hsolid.head
      obtain ⟨r, hr⟩ := List.head?_eq_some_iff.mp hd
      rw [collapseFrom_spellAll_cons hsolid, line, hr, collapseFrom_cons_of_not_blank hblank]
      have hmark := head_spell hn d hd
      cases g <;> simp [hmark]

/-- A number may stand behind nodes that do not end in a digit, or behind a space. -/
def Welcomes (acc : List Node) (g : Gap) (n : Node) : Prop :=
  g = .solid → (∃ c ∈ n.core, c.isDigit = true) →
    ∀ t, acc.head? = some (leaf t) → ∀ c ∈ t.getLast?, c.isDigit = false

theorem welcomes_nil (n : Node) : Welcomes [] g n := by
  simp [Welcomes]

/-- A base may be read behind nodes that stand, once the space that is due is written. -/
theorem Stands.ready (h : Stands s acc g) (hnext : Welcomes acc g n) :
    Ready (write g.space acc) n.core := by
  cases g with
  | start =>
    rw [h.eq_nil rfl]
    exact ⟨nofun, fun _ => nofun⟩
  | solid => exact ⟨h.filled, hnext rfl⟩
  | blank =>
    have hspace : ∃ u, (pushText [' '] acc).head? = some (leaf (u ++ [' '])) := by
      unfold pushText
      split
      · exact ⟨_, rfl⟩
      · exact ⟨[], rfl⟩
    obtain ⟨u, hu⟩ := hspace
    constructor
    · intro t ht
      obtain rfl := Node.leaf.inj (Option.some.inj (hu.symm.trans ht))
      simp
    · intro _ t ht c hc
      obtain rfl := Node.leaf.inj (Option.some.inj (hu.symm.trans ht))
      rw [List.getLast?_concat] at hc
      obtain rfl := Option.some.inj hc
      decide

/-- What is apart from a leaf may stand behind it. -/
theorem welcomes_write {u : Text} (hne : u ≠ []) (hapart : Apart (leaf u) n) :
    Welcomes (write (collapseFrom g u) acc) (g.afterText u) n := by
  intro hsolid hdigit t ht c hc
  have hlast := getLast?_collapseFrom hne hsolid
  have hrun : collapseFrom g u ≠ [] := by
    intro hnil
    rw [hnil] at hlast
    exact hne (List.getLast?_eq_none_iff.mp hlast.symm)
  rw [write, if_neg (by simpa using hrun)] at ht
  have hend : t.getLast? = u.getLast? := by
    rw [← hlast]
    unfold pushText at ht
    split at ht
    · obtain rfl := Node.leaf.inj (Option.some.inj ht)
      exact List.getLast?_append_of_ne_nil _ hrun
    · obtain rfl := Node.leaf.inj (Option.some.inj ht)
      rfl
  rw [hend] at hc
  exact (hapart u rfl).2 hdigit c hc

/-- **Proper nodes are read back one after the other**, if each of them is that is no leaf. -/
theorem exists_rereadsAll (hproper : ∀ c ∈ cs, c.Proper) (hapart : cs.IsChain Apart)
    (hreads : ∀ c ∈ cs, (∀ t, c ≠ leaf t) → ∃ c', Rereads c c') (h : Stands s acc g)
    (hnext : ∀ n ∈ cs.head?, Welcomes acc g n) : ∃ acc', RereadsAll s acc g cs acc' := by
  induction cs generalizing acc g with
  | nil => exact ⟨acc, .nil h⟩
  | cons n cs ih =>
    obtain ⟨hn, hcs⟩ := List.forall_mem_cons.mp hproper
    obtain ⟨hhead, htail⟩ := List.isChain_cons.mp hapart
    have hrest : ∀ {acc₁}, RereadsAll s acc g [n] acc₁ →
        (∀ m ∈ cs.head?, Welcomes acc₁ (g.afterText (spellAll [n])) m) →
        ∃ acc', RereadsAll s acc g (n :: cs) acc' := by
      intro acc₁ h₁ hnext₁
      obtain ⟨acc', h'⟩ := ih hcs htail (fun c hc => hreads c (List.mem_cons_of_mem n hc)) h₁.stands
        hnext₁
      exact ⟨acc', h₁.cons h' (head_collapseFrom_spellAll hcs _)⟩
    by_cases hleaf : ∃ u, n = leaf u
    · obtain ⟨u, rfl⟩ := hleaf
      obtain ⟨hne, hliteral⟩ := hn.leaf_literal
      refine hrest (.leaf h hliteral) fun m hm => ?_
      have hwelcome : Welcomes (write (collapseFrom g u) acc) (g.afterText u) m :=
        welcomes_write hne (hhead m hm)
      simpa [spellAll, spell, pad, isAlone] using hwelcome
    · have hleaf' : ∀ t, n ≠ leaf t := fun t ht => hleaf ⟨t, ht⟩
      obtain ⟨n', hn'⟩ := hreads n List.mem_cons_self hleaf'
      refine hrest (.node h hn' (solid_of_ne_leaf hn hleaf') fun _ => h.ready (hnext n rfl)) ?_
      exact fun m _ _ _ t ht => absurd (Option.some.inj ht) (hn'.ne_leaf t)

/-! ## Between delimiters -/

/-- The blank that is due is written in front of the closing delimiter. -/
theorem spaced_write (h : Stands .solid acc g) (hg : g ≠ .start) :
    (spellAll (write g.space acc).reverse).spaced =
      collapseFrom .solid (spellAll acc.reverse) ++ g.space := by
  rw [spellAll_write, spaced, collapseFrom_append, Gap.afterText_append]
  rcases h.reaches with hreaches | ⟨hsolid, rfl⟩
  · rw [hreaches]
    cases g with
    | start => exact absurd rfl hg
    | solid => simp
    | blank => simp [collapseFrom_cons_of_blank isBlank_space, Gap.after_of_blank isBlank_space]
  · rw [hsolid]
    simp [collapseFrom_cons_of_blank isBlank_space, Gap.after_of_blank isBlank_space]

theorem orderly_contents (n : Node) : n.Orderly ↔ ∀ c ∈ n.contents, c.Orderly := by
  cases n with
  | group => exact orderly_group
  | _ => simp [contents]

/-- **Proper nodes between delimiters are read back**, with the blank before the closing one. -/
theorem exists_rereadsWithin (hproper : ∀ c ∈ n.contents, c.Proper) (hapart : n.contents.IsChain Apart)
    (hreads : ∀ c ∈ n.contents, (∀ t, c ≠ leaf t) → ∃ c', Rereads c c') :
    ∃ out, RereadsWithin n (group out) := by
  obtain ⟨acc, h⟩ := exists_rereadsAll hproper hapart hreads (.nil .solid) fun m _ => welcomes_nil m
  generalize hgap : Gap.solid.afterText (spellAll n.contents) = g at h
  have hstart : g ≠ .start := by
    rintro rfl
    obtain ⟨hsolid, -⟩ := collapseFrom_of_afterText_start hgap
    cases hsolid
  have hwithin : n.within = collapseFrom .solid (spellAll n.contents) ++ g.space := by
    rw [within, spaced, hgap]
  have hread : ∀ {stop c u rest}, c ≠ '_' → c ≠ '^' →
      (stop = .atBracket → Unbracketed n.contents) →
      Reads (.nodes stop (write g.space acc)) (tokenize (c :: u)) (write g.space acc).reverse rest →
      Reads (.nodes stop []) (tokenize (n.within ++ c :: u)) (write g.space acc).reverse rest := by
    intro stop c u rest hsub hsup hbracket hclose
    rw [hwithin, List.append_assoc]
    refine h.reads hbracket ?_ (reads_run ?_ ?_ hclose)
    · rw [hgap]
      constructor
      · rintro rfl
        simp
      · cases g <;> simp [hsub, hsup]
    · cases g <;> simp [isLiteral_space]
    · cases g <;> simp
  refine ⟨(write g.space acc).reverse, ?_, ?_, ?_, ?_⟩
  · exact spelled_group fun c hc => spelled_write h.stands.spelled _ c (List.mem_reverse.mp hc)
  · obtain ⟨text, htext, hsame⟩ := h.same
    rw [hwithin, within, contents, spaced_write (hgap ▸ h.stands) hstart, htext]
    exact (hsame.append_right g.space).congr (orderly_contents n).symm
  · intro t
    have hbrace : Stop.atBrace ≠ .atBracket := by decide
    refine .group (hread (by decide) (by decide) (fun hstop => absurd hstop hbrace) ?_)
    rw [tokenize_closeBrace]
    exact .closeBrace
  · intro hbracket t
    rw [tokenize_openBracket]
    refine .brackets rfl (hread (by decide) (by decide) (fun _ => hbracket) ?_)
    rw [tokenize_closeBracket]
    exact .closeBracket

end Reading

end SpokenMath
