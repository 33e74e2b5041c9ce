import SpokenMath.Proofs.Markup.DepthLimit
import SpokenMath.Proofs.Markup.Reading
import SpokenMath.Proofs.Markup.Rereading.Scripts

/-!
# Reading the canonical text

The canonical text of a tree is read again, as a tree whose canonical text need not be the same:
`x^2 _3` has the canonical text `x^{2}_{3}`, in which the subscript is joined to the superscript,
and so the canonical text of the second tree is `x_{3}^{2}`.

**Theorem (`linearize_parse_linearize_iff`).** The canonical text of a tree that was read off a
legible text is read, from some limit on nesting on, and it stays the same exactly if the tree is
orderly.

The proof is by induction on the tree. A node is needed in three places: by itself, between
delimiters, and in front of scripts (`Returns`).
-/

namespace SpokenMath

open Node Text

namespace Reading

/-- What is open behind the text of a node: a superscript that awaits a subscript, or a subscript
that awaits a superscript. -/
def Awaits (n : Node) (sub sup : Option Node) : Prop :=
  n.awaitsSub = (sub.isNone && sup.isSome) ∧ n.endsInSub = (sub.isSome && sup.isNone)

/-- The text of a node in front of scripts is read as a base with open scripts. -/
inductive HangsOn (n : Node) : Prop
  | intro {b sub sup} (hangs : Hangs n.core n.Orderly n.line b sub sup)
      (hawaits : n.Orderly → Awaits n sub sup)
      (hscript : sub = none → sup = none → ∀ base sub₀ sup₀, n ≠ script base sub₀ sup₀)

/-- The canonical text of a node is read back, wherever it may stand. -/
structure Returns (n : Node) : Prop where
  node : (∀ t, n ≠ leaf t) → ∃ n', Rereads n n'
  within : ∃ out, RereadsWithin n (group out)
  hangs : (∀ t, n = leaf t → IsBase t) → HangsOn n

variable {n : Node} {cs : List Node}

/-- A node between delimiters, if it is no group. -/
theorem exists_rereadsWithin_of_node (hn : n.Proper) (hcontents : n.contents = [n])
    (hnode : (∀ t, n ≠ leaf t) → ∃ n', Rereads n n') : ∃ out, RereadsWithin n (group out) := by
  apply exists_rereadsWithin
  · rw [hcontents]
    simpa using hn
  · rw [hcontents]
    exact .singleton n
  · rw [hcontents]
    simpa using hnode

/-- A node that is neither a leaf nor a script is read back in front of scripts. -/
theorem Rereads.hangsOn {n' : Node} (h : Rereads n n')
    (hscript : ∀ base sub sup, n ≠ script base sub sup) : HangsOn n := by
  refine .intro (h.hangs hscript) (fun _ => ?_) fun _ _ => hscript
  cases n with
  | script base sub sup => exact absurd rfl (hscript base sub sup)
  | _ => exact ⟨rfl, rfl⟩

theorem Returns.of_command {name : String} {args args' : List Node}
    {optional optional' : Option Node} (hn : (command name args optional).Proper)
    (h : Rereads (command name args optional) (command name args' optional')) :
    Returns (command name args optional) where
  node _ := ⟨_, h⟩
  within := exists_rereadsWithin_of_node hn rfl fun _ => ⟨_, h⟩
  hangs _ := h.hangsOn nofun

theorem Returns.group (hcs : ∀ c ∈ cs, c.Proper) (hapart : cs.IsChain Apart)
    (ih : ∀ c ∈ cs, Returns c) : Returns (group cs) := by
  have hwithin : ∃ out, RereadsWithin (Node.group cs) (Node.group out) :=
    exists_rereadsWithin hcs hapart fun c hc => (ih c hc).node
  obtain ⟨out, hout⟩ := hwithin
  exact ⟨fun _ => ⟨_, hout.group⟩, ⟨out, hout⟩, fun _ => hout.group.hangsOn nofun⟩

/-! ## Scripts on scripts -/

variable {m x y base : Node}

/-- One more subscript keeps the order unless the base awaits it. -/
theorem HangsOn.subscript (hbase : HangsOn base) (hsolid : (spell false base).Solid)
    (hx : ∃ out, RereadsWithin x (Node.group out)) : HangsOn (script base (some x) none) := by
  obtain ⟨hangs, hawaits, -⟩ := hbase
  obtain ⟨out, hout⟩ := hx
  obtain ⟨b, sup, h, hsup⟩ := hangs.subscript hout
  have hline : (script base (some x) none).line = base.line ++ lineMark '_' (some x) := by
    simp [line_script hsolid, lineMark]
  have horder : (script base (some x) none).inOrder = !base.awaitsSub := rfl
  have hiff : (script base (some x) none).Orderly ↔
      base.Orderly ∧ base.awaitsSub = false ∧ x.Orderly := by
    rw [orderly_script, horder]
    simp [and_left_comm]
  refine @HangsOn.intro _ b (some (Node.group out)) sup ?_ ?_ (by simp)
  · rw [hline]
    refine h.congr (Iff.trans (and_congr_right fun hb => ?_) hiff.symm)
    rw [(hawaits hb).1]
  · intro horderly
    obtain ⟨hb, hfree, -⟩ := hiff.mp horderly
    rw [(hawaits hb).1] at hfree
    rw [hsup hfree]
    exact ⟨rfl, rfl⟩

/-- One more superscript keeps the order. -/
theorem HangsOn.superscript (hm : HangsOn m) (hy : ∃ out, RereadsWithin y (Node.group out))
    (hcore : n.core = m.core) (hline : n.line = m.line ++ lineMark '^' (some y))
    (hiff : n.Orderly ↔ m.Orderly ∧ y.Orderly) (hawaits : n.awaitsSub = !m.endsInSub)
    (hends : n.endsInSub = false) : HangsOn n := by
  obtain ⟨hangs, hawaits', -⟩ := hm
  obtain ⟨out, hout⟩ := hy
  obtain ⟨b, sub, h, hsub⟩ := hangs.superscript hout
  refine @HangsOn.intro _ b sub (some (Node.group out)) ?_ ?_ (by simp)
  · rw [hcore, hline]
    exact h.congr hiff.symm
  · intro horderly
    rw [← (hawaits' (hiff.mp horderly).1).2] at hsub
    constructor
    · rw [hawaits, ← hsub]
      simp
    · simp [hends]

theorem HangsOn.script {sub sup : Option Node} (hbase : HangsOn base)
    (hsolid : (spell false base).Solid)
    (hsub : ∀ x ∈ sub, ∃ out, RereadsWithin x (Node.group out))
    (hsup : ∀ y ∈ sup, ∃ out, RereadsWithin y (Node.group out)) (hsome : sub ≠ none ∨ sup ≠ none) :
    HangsOn (script base sub sup) := by
  cases sub with
  | none =>
    cases sup with
    | none => simp at hsome
    | some y =>
      refine hbase.superscript (hsup y rfl) rfl ?_ ?_ rfl rfl
      · simp [line_script hsolid, lineMark]
      · simp [orderly_script, inOrder]
  | some x =>
    have hone := hbase.subscript hsolid (hsub x rfl)
    cases sup with
    | none => exact hone
    | some y =>
      refine hone.superscript (hsup y rfl) rfl ?_ ?_ rfl rfl
      · simp [line_script hsolid, lineMark]
      · simp [orderly_script, inOrder, and_assoc]

theorem Returns.script {sub sup : Option Node} (hn : (script base sub sup).Proper)
    (h : HangsOn (script base sub sup)) : Returns (script base sub sup) := by
  have hnode : ∃ n', Rereads (Node.script base sub sup) n' := by
    obtain ⟨hangs, -, hscript⟩ := h
    exact ⟨_, hangs.rereads fun hsub hsup => hscript hsub hsup base sub sup rfl⟩
  exact ⟨fun _ => hnode, exists_rereadsWithin_of_node hn rfl fun _ => hnode, fun _ => h⟩

/-! ## All proper trees -/

/-- **The canonical text of a proper tree is read back.** -/
theorem returns_of_proper (h : n.Proper) : Returns n := by
  induction h with
  | @leaf t hne hliteral =>
    refine ⟨fun hleaf => absurd rfl (hleaf t), ?_, fun hbase => ?_⟩
    · exact exists_rereadsWithin_of_node (.leaf hne hliteral) rfl fun hleaf => absurd rfl (hleaf t)
    · refine .intro (hangs_leaf (hbase t rfl) hliteral) (fun _ => ⟨rfl, rfl⟩) ?_
      exact fun _ _ _ _ _ => nofun
  | group hcs hapart ih => exact .group hcs hapart ih
  | sign halpha hne hblank =>
    exact .of_command (.sign halpha hne hblank) (rereads_sign halpha hne hblank)
  | unknownBare hname hword hshape =>
    exact .of_command (.unknownBare hname hword hshape) (.unknownBare hname hword hshape)
  | @unknownBraces name cs hname hword hshape hcs ih =>
    obtain ⟨out, hout⟩ := ih.within
    exact .of_command (.unknownBraces hname hword hshape hcs)
      (.unknownBraces hname hword hshape hout)
  | known hname hword hshape hlength hargs hproper hoptional iharg ihoptional =>
    obtain ⟨args', hargs'⟩ := exists_forall₂_rereadsWithin fun a ha => (iharg a ha).within
    obtain ⟨optional', hoptional'⟩ := exists_rel_rereadsWithin fun o ho => (ihoptional o ho).within
    refine .of_command (.known hname hword hshape hlength hargs hproper hoptional)
      (.known hname hword hshape hlength (fun o ho => ?_) hoptional' hargs')
    obtain ⟨hallowed, cs, rfl, hbracket⟩ := hoptional o ho
    exact ⟨hallowed, hbracket⟩
  | script hbase hleaf hsub hsup hsome ih ihsub ihsup =>
    refine .script (.script hbase hleaf hsub hsup hsome) ?_
    exact (ih.hangs hleaf).script (hbase.solid hleaf) (fun x hx => (ihsub x hx).within)
      (fun y hy => (ihsup y hy).within) hsome

/-- The canonical text of nodes is read as nodes, the text of which is the same exactly if the
nodes are orderly. -/
theorem exists_reads_collapse (h : (group cs).Proper) :
    ∃ ns, Reads (.nodes .atEnd []) (tokenize (spellAll cs).collapse) ns [] ∧
      (group ns).Spelled ∧ ((spellAll ns).collapse = (spellAll cs).collapse ↔ (group cs).Orderly) := by
  obtain ⟨hcs, hapart⟩ := h.group_children
  obtain ⟨acc, hreads⟩ := exists_rereadsAll hcs hapart
    (fun c hc => (returns_of_proper (hcs c hc)).node) (.nil .start) fun m _ => welcomes_nil m
  refine ⟨acc.reverse, ?_, ?_, ?_⟩
  · rw [← collapseFrom_start, ← List.append_nil (collapseFrom _ _)]
    refine hreads.reads nofun ⟨fun _ => nofun, nofun⟩ ?_
    rw [tokenize_nil]
    exact .atEnd
  · exact spelled_group fun c hc => hreads.stands.spelled c (List.mem_reverse.mp hc)
  · obtain ⟨text, htext, hsame⟩ := hreads.same
    rw [collapseFrom_start] at htext hsame
    rw [htext, orderly_group]
    exact hsame.eq_iff

end Reading

/-- **Reading the canonical text of a tree keeps it exactly if the tree is orderly.** -/
theorem linearize_parse_linearize_iff {limits : ReadLimits} {t : Text} {p : Parsed}
    (ht : Legible t) (h : parse limits t = .ok p) :
    ∃ depth, ∀ limits', Reading.Patient limits' → depth ≤ limits'.maxDepth →
      ∃ q, parse limits' p.tree.linearize = .ok q ∧
        (q.tree.linearize = p.tree.linearize ↔ p.tree.Orderly) := by
  obtain ⟨cs, rest, htree, hreads⟩ := reads_of_parse h ht
  have hproper : (group cs).Proper := hreads.proper ht.tidy
  obtain ⟨ns, hread, hspelled, hiff⟩ := Reading.exists_reads_collapse hproper
  obtain ⟨depth, hparse⟩ := exists_parse_of_reads hread
  refine ⟨depth, fun limits' hpatient hdepth => ?_⟩
  obtain ⟨notices, hq⟩ := hparse limits' hpatient hdepth
  rw [htree, linearize_group hproper.spelled]
  refine ⟨_, hq, ?_⟩
  rw [linearize_group hspelled]
  exact hiff

/-- Arguments without braces, scripts in the wrong order, a word that sizes no delimiter, a bracket
that closes nothing and a script that is missing. -/
def untidyText : Text := "\\frac12x^2_i \\alpha^\\left3[\\sqrt[n]y ]_".toList

theorem linearize_parse_linearize_untidyText :
    Legible untidyText ∧ ∃ p, parse ⟨48, .never 2000⟩ untidyText = .ok p ∧ p.tree.Orderly ∧
      ∃ depth, ∀ limits, Reading.Patient limits → depth ≤ limits.maxDepth →
        ∃ q, parse limits p.tree.linearize = .ok q ∧ q.tree.linearize = p.tree.linearize := by
  have hlegible : Legible untidyText := by decide +kernel
  have hread : (parse ⟨48, .never 2000⟩ untidyText).toOption.map
      (fun p => decide p.tree.Orderly) = some true := by decide +kernel
  obtain ⟨p, hp, horderly⟩ := exists_parse_of_map hread
  have horderly : p.tree.Orderly := of_decide_eq_true horderly
  obtain ⟨depth, hdepth⟩ := linearize_parse_linearize_iff hlegible hp
  refine ⟨hlegible, p, hp, horderly, depth, fun limits hpatient hle => ?_⟩
  obtain ⟨q, hq, hiff⟩ := hdepth limits hpatient hle
  exact ⟨q, hq, hiff.mpr horderly⟩

/-- The blank keeps the subscript of `x^2 _3` apart from the superscript, and the canonical text
does not. -/
theorem linearize_parse_linearize_ne :
    Legible "x^2 _3".toList ∧ ∃ p, parse ⟨48, .never 2000⟩ "x^2 _3".toList = .ok p ∧
      p.tree.linearize = "x^\x7b2\x7d_\x7b3\x7d".toList ∧
      ∀ limits q, Reading.Patient limits → parse limits p.tree.linearize = .ok q →
        q.tree.linearize = "x_\x7b3\x7d^\x7b2\x7d".toList := by
  have hfirst : (parse ⟨48, .never 2000⟩ "x^2 _3".toList).toOption.map (·.tree.linearize) =
      some "x^\x7b2\x7d_\x7b3\x7d".toList := by decide +kernel
  have hsecond : (parse ⟨48, .never 2000⟩ "x^\x7b2\x7d_\x7b3\x7d".toList).toOption.map
      (·.tree.linearize) = some "x_\x7b3\x7d^\x7b2\x7d".toList := by decide +kernel
  obtain ⟨p, hp, hlinear⟩ := exists_parse_of_map hfirst
  obtain ⟨q₀, hq₀, hlinear₀⟩ := exists_parse_of_map hsecond
  refine ⟨by decide +kernel, p, hp, hlinear, fun limits q hpatient hq => ?_⟩
  rw [hlinear] at hq
  have hclock : limits.deadline.spentAt = (Deadline.never 2000).spentAt := funext hpatient
  rw [parse_unique hclock hq hq₀]
  exact hlinear₀

end SpokenMath
