import SpokenMath.Proofs.Markup.Base
import SpokenMath.Proofs.Markup.Course
import SpokenMath.Proofs.Markup.DepthLimit
import SpokenMath.Proofs.Markup.Order
import SpokenMath.Proofs.Markup.Reading
import SpokenMath.Proofs.Lists

/-!
# How deep a tree is

A level of nesting adds at most three to the depth of a tree: a group, a node that has it as an
argument, and a script that is hung on this node. The limit on nesting does not see scripts that are
hung on scripts, though: `x^1^1^1` is read without any nesting, and each of its marks makes the tree
deeper by one (`depth_readTower`).

**Theorem (`depth_of_parse`).** The depth of a tree is at most three for each level of nesting that
the limit permits, four for what is not nested, and one for each script on a way down that is hung
on a script.
-/

namespace SpokenMath

namespace Node

variable {n c : Node} {k : Nat}

/-! ## Scripts on scripts -/

def isScript : Node → Bool
  | script .. => true
  | _ => false

/-- A script that is hung on a script. -/
def isStacked : Node → Bool
  | script base _ _ => base.isScript
  | _ => false

/-- The largest number of scripts on one way down that are hung on a script. -/
def stacked (n : Node) : Nat :=
  n.fold fun m below => below.foldl max 0 + if m.isStacked then 1 else 0

theorem depth_le_iff : n.depth ≤ k + 1 ↔ ∀ c ∈ n.children, c.depth ≤ k := by
  have hdepth : n.depth = (n.children.map depth).foldl max 0 + 1 := fold_eq _ n
  rw [hdepth, Nat.add_le_add_iff_right, foldl_max_le_iff, List.forall_mem_map]
  exact and_iff_right (Nat.zero_le k)

theorem stacked_eq (n : Node) :
    n.stacked = (n.children.map stacked).foldl max 0 + if n.isStacked then 1 else 0 :=
  fold_eq _ n

theorem stacked_of_child (h : c ∈ n.children) :
    c.stacked + (if n.isStacked then 1 else 0) ≤ n.stacked := by
  have hle := (foldl_max_le_iff.mp (Nat.le_refl ((n.children.map stacked).foldl max 0))).2
  rw [stacked_eq n]
  exact Nat.add_le_add_right (hle _ (List.mem_map_of_mem h)) _

/-- Where no script is hung on a script, there are none on a way down. -/
theorem stacked_eq_zero (h : ∀ m ∈ n.nodes, m.isStacked = false) : n.stacked = 0 := by
  induction n using induction_on_children with
  | h n ih =>
    obtain ⟨hn, hchildren⟩ := forall_nodes_iff.mp h
    rw [stacked_eq, hn, if_neg Bool.false_ne_true, Nat.add_zero, ← Nat.le_zero, foldl_max_le_iff]
    refine ⟨Nat.le_refl 0, List.forall_mem_map.mpr fun c hc => ?_⟩
    exact Nat.le_of_eq (ih c hc (hchildren c hc))

/-! ## The depth without the scripts on scripts -/

/-- The depth is at most `k`, scripts on scripts aside. -/
def Reaches (k : Nat) (n : Node) : Prop := n.depth ≤ k + n.stacked

theorem Reaches.mono {k' : Nat} (h : Reaches k n) (hle : k ≤ k') : Reaches k' n :=
  Nat.le_trans h (Nat.add_le_add_right hle _)

theorem reaches_of_children (h : ∀ c ∈ n.children, Reaches k c) : Reaches (k + 1) n := by
  have hdepth : n.depth ≤ k + n.stacked + 1 := depth_le_iff.mpr fun c hc =>
    (h c hc).trans (Nat.add_le_add_left ((Nat.le_add_right _ _).trans (stacked_of_child hc)) k)
  unfold Reaches
  omega

/-- A script on a script does not count. -/
theorem reaches_of_stacked (hstacked : n.isStacked = true) (h : ∀ c ∈ n.children, Reaches k c) :
    Reaches k n := by
  have hone : 1 ≤ n.stacked := by
    rw [stacked_eq n, if_pos hstacked]
    exact Nat.le_add_left _ _
  have hdepth : n.depth ≤ k + (n.stacked - 1) + 1 := depth_le_iff.mpr fun c hc => by
    have hchild := stacked_of_child hc
    rw [if_pos hstacked] at hchild
    exact (h c hc).trans (by omega)
  unfold Reaches
  omega

theorem reaches_leaf (t : Text) : Reaches 1 (leaf t) := reaches_of_children (k := 0) nofun

theorem reaches_bare (name : String) : Reaches 1 (bare name) := reaches_of_children (k := 0) nofun

theorem reaches_group {cs : List Node} (h : ∀ c ∈ cs, Reaches k c) : Reaches (k + 1) (group cs) :=
  reaches_of_children h

theorem reaches_emptyGroup : Reaches 1 (group []) := reaches_group (List.forall_mem_nil _)

theorem reaches_command {name : String} {args : List Node} {optional : Option Node}
    (hargs : ∀ a ∈ args, Reaches k a) (hoptional : ∀ o ∈ optional.toList, Reaches k o) :
    Reaches (k + 1) (command name args optional) :=
  reaches_of_children (List.forall_mem_append.mpr ⟨hoptional, hargs⟩)

/-! ## With so many levels of nesting -/

/-- A node that is read where so many levels of nesting are left. -/
structure Low (levels : Nat) (n : Node) : Prop where
  reaches : Reaches (3 * levels + 3) n
  unscripted : n.isScript = false → Reaches (3 * levels + 2) n

theorem Low.of_unscripted {levels : Nat} (h : Reaches (3 * levels + 2) n) : Low levels n :=
  ⟨h.mono (by omega), fun _ => h⟩

theorem Low.of_one {levels : Nat} (h : Reaches 1 n) : Low levels n :=
  .of_unscripted (h.mono (by omega))

theorem Low.script {levels : Nat} {base : Node} {sub sup : Option Node} (hbase : Low levels base)
    (hsub : ∀ s ∈ sub.toList, Reaches (3 * levels + 1) s)
    (hsup : ∀ s ∈ sup.toList, Reaches (3 * levels + 1) s) :
    Low levels (Node.script base sub sup) := by
  refine ⟨?_, nofun⟩
  have hchildren : ∀ k, 3 * levels + 1 ≤ k → Reaches k base →
      ∀ c ∈ (Node.script base sub sup).children, Reaches k c := by
    intro k hk hreaches
    refine List.forall_mem_cons.mpr ⟨hreaches, List.forall_mem_append.mpr ⟨?_, ?_⟩⟩
    · exact fun s hs => (hsub s hs).mono hk
    · exact fun s hs => (hsup s hs).mono hk
  cases hscript : base.isScript with
  | true => exact reaches_of_stacked hscript (hchildren _ (by omega) hbase.reaches)
  | false => exact reaches_of_children (hchildren _ (by omega) (hbase.unscripted hscript))

end Node

open Node

namespace Reading

variable {levels : Nat}

/-- A longer leaf is as deep as any. -/
theorem low_pushText (run : Text) {acc : List Node} (h : ∀ n ∈ acc, Low levels n) :
    ∀ n ∈ pushText run acc, Low levels n := by
  have hleaf : ∀ t, Low levels (leaf t) := fun t => .of_one (reaches_leaf t)
  unfold pushText
  split
  · exact List.forall_mem_cons.mpr ⟨hleaf _, (List.forall_mem_cons.mp h).2⟩
  · exact List.forall_mem_cons.mpr ⟨hleaf _, h⟩

theorem Takes.low {acc rest : List Node} {base : Node} (h : Takes acc base rest)
    (hacc : ∀ n ∈ acc, Low levels n) : Low levels base ∧ ∀ n ∈ rest, Low levels n := by
  have hleaf : ∀ t, Low levels (leaf t) := fun t => .of_one (reaches_leaf t)
  induction h with
  | nothing => exact ⟨.of_one reaches_emptyGroup, List.forall_mem_nil _⟩
  | blank _ _ ih => exact ih (List.forall_mem_cons.mp hacc).2
  | text =>
    refine ⟨hleaf _, ?_⟩
    split
    · exact (List.forall_mem_cons.mp hacc).2
    · exact List.forall_mem_cons.mpr ⟨hleaf _, (List.forall_mem_cons.mp hacc).2⟩
  | node => exact List.forall_mem_cons.mp hacc

/-- How deep the nodes are that a task reads with so many levels of nesting left. -/
def Task.Bounds (levels : Nat) : Task → List Node → Prop
  | nodes _ acc, ns => (∀ n ∈ acc, Low levels n) → ∀ n ∈ ns, Low levels n
  | group, ns | argument, ns | optional _, ns | arguments _, ns =>
    ∀ n ∈ ns, Reaches (3 * levels + 1) n
  | command _, ns => ∀ n ∈ ns, Reaches (3 * levels + 2) n
  | rows _ above row, ns =>
    (∀ r ∈ above, ∀ c ∈ r, Reaches (3 * levels + 4) c) → (∀ c ∈ row, Reaches (3 * levels + 4) c) →
      ∀ n ∈ ns, Reaches (3 * levels + 5) n
  | scripts base sub sup, ns =>
    Low levels base → (∀ s ∈ sub.toList, Reaches (3 * levels + 1) s) →
      (∀ s ∈ sup.toList, Reaches (3 * levels + 1) s) → ∀ n ∈ ns, Low levels n

/-- An environment is two deeper than what stands in its cells. -/
theorem reaches_table {k : Nat} {name : String} {rows : List (List Node)}
    (h : ∀ r ∈ rows, ∀ c ∈ r, Reaches k c) : Reaches (k + 1) (table name rows) := by
  refine reaches_of_children fun c hc => ?_
  obtain ⟨r, hr, hc⟩ := List.mem_flatten.mp hc
  exact h r (mem_of_mem_dropEmptyRows (List.mem_reverse.mp hr)) c hc

theorem reaches_cell {k : Nat} {nodes : List Node} (h : ∀ n ∈ nodes, Reaches k n) :
    Reaches (k + 1) (cell nodes) := by
  refine reaches_group ?_
  split
  · exact List.forall_mem_nil _
  · exact h

/-- What a task reads is no deeper than the levels of nesting permit. -/
theorem Course.bounds {task : Task} {ts rest : List Token} {ns : List Node} {said : List Notice}
    (h : Course levels task ts ns rest said) : task.Bounds levels ns := by
  induction h with
  | atEnd | closed | cellEnd => exact fun hacc n hn => hacc n (List.mem_reverse.mp hn)
  | strayBrace _ _ _ ih => exact ih
  | literal _ _ ih => exact fun hacc => ih (low_pushText _ hacc)
  | braces _ _ ih ih' =>
    have hgroup := (List.forall_mem_singleton.mp ih).mono (Nat.le_succ _)
    exact fun hacc => ih' (List.forall_mem_cons.mpr ⟨.of_unscripted hgroup, hacc⟩)
  | sign _ ih =>
    exact fun hacc => ih (List.forall_mem_cons.mpr ⟨.of_one (reaches_bare _), hacc⟩)
  | word _ _ _ ih ih' =>
    exact fun hacc => ih' (List.forall_mem_append.mpr ⟨fun n hn => .of_unscripted (ih n hn), hacc⟩)
  | marks _ _ _ ih ih' =>
    intro hacc
    obtain ⟨hbase, hrest⟩ := (takes_popBase _).low hacc
    have hscript := ih hbase (List.forall_mem_nil _) (List.forall_mem_nil _)
    exact ih' (List.forall_mem_cons.mpr ⟨List.forall_mem_singleton.mp hscript, hrest⟩)
  | group _ ih | brackets _ _ ih =>
    have hnodes := ih (List.forall_mem_nil _)
    exact List.forall_mem_singleton.mpr (reaches_group fun n hn => (hnodes n hn).reaches)
  | argBlank _ _ ih => exact ih
  | argChar => exact List.forall_mem_singleton.mpr ((reaches_leaf _).mono (by omega))
  | argGroup _ ih => exact ih
  | @argWord _ _ _ _ _ o _ _ ih =>
    refine List.forall_mem_singleton.mpr ?_
    cases o with
    | none => exact reaches_emptyGroup.mono (by omega)
    | some n => exact (ih n List.mem_cons_self).mono (by omega)
  | argSign => exact List.forall_mem_singleton.mpr ((reaches_bare _).mono (by omega))
  | argMissing => exact List.forall_mem_singleton.mpr (reaches_emptyGroup.mono (by omega))
  | noBrackets | noArguments | sizer => exact List.forall_mem_nil _
  | environment _ _ _ _ _ ih => exact ih (List.forall_mem_nil _) (List.forall_mem_nil _)
  | strayEnd =>
    refine List.forall_mem_singleton.mpr (Reaches.mono (k := 2) (reaches_command ?_ ?_) (by omega))
    · exact List.forall_mem_singleton.mpr (reaches_leaf _)
    · exact List.forall_mem_nil _
  | known _ _ _ _ ih ih' => exact List.forall_mem_singleton.mpr (reaches_command ih' ih)
  | unknownBraces _ _ _ ih =>
    exact List.forall_mem_singleton.mpr (reaches_command ih (List.forall_mem_nil _))
  | unknownBare => exact List.forall_mem_singleton.mpr ((reaches_bare _).mono (by omega))
  | moreArguments _ _ ih ih' =>
    exact List.forall_mem_cons.mpr ⟨List.forall_mem_singleton.mp ih, ih'⟩
  | nextCell _ _ ih ih' =>
    intro hrows hrow
    have hcell := reaches_cell fun n hn => (ih (List.forall_mem_nil _) n hn).reaches
    exact ih' hrows (List.forall_mem_cons.mpr ⟨hcell, hrow⟩)
  | nextRow _ _ ih ih' =>
    intro hrows hrow
    have hcell := reaches_cell fun n hn => (ih (List.forall_mem_nil _) n hn).reaches
    refine ih' (List.forall_mem_cons.mpr ⟨fun c hc => ?_, hrows⟩) (List.forall_mem_nil _)
    exact List.forall_mem_cons.mpr ⟨hcell, hrow⟩ c (List.mem_reverse.mp hc)
  | lastCell _ _ _ _ ih | unclosed _ _ ih =>
    intro hrows hrow
    have hcell := reaches_cell fun n hn => (ih (List.forall_mem_nil _) n hn).reaches
    refine List.forall_mem_singleton.mpr (reaches_table ?_)
    refine List.forall_mem_cons.mpr ⟨fun c hc => ?_, hrows⟩
    exact List.forall_mem_cons.mpr ⟨hcell, hrow⟩ c (List.mem_reverse.mp hc)
  | subscript _ _ ih ih' => exact fun hbase _ hsup => ih' hbase ih hsup
  | superscript _ _ ih ih' => exact fun hbase hsub _ => ih' hbase hsub ih
  | scripted => exact fun hbase hsub hsup => List.forall_mem_singleton.mpr (hbase.script hsub hsup)

end Reading

open Reading

theorem reaches_of_parse {limits : ReadLimits} {t : Text} {p : Parsed}
    (h : parse limits t = .ok p) : Reaches (3 * limits.maxDepth + 4) p.tree := by
  obtain ⟨ns, rest, said, htree, -, hcourse⟩ := course_of_parse h
  have hnodes := hcourse.bounds (List.forall_mem_nil _)
  rw [htree]
  exact reaches_group fun n hn => (hnodes n hn).reaches

/-- **How deep a tree is**: as deep as the limit on nesting permits, and deeper by the scripts on a
way down that are hung on a script. -/
theorem depth_of_parse {limits : ReadLimits} {t : Text} {p : Parsed}
    (h : parse limits t = .ok p) :
    p.tree.depth ≤ 3 * limits.maxDepth + 4 + p.tree.stacked ∧
      ((∀ n ∈ p.tree.nodes, n.isStacked = false) → p.tree.depth ≤ 3 * limits.maxDepth + 4) := by
  have hdepth := reaches_of_parse h
  refine ⟨hdepth, fun hunstacked => ?_⟩
  have hzero := stacked_eq_zero hunstacked
  unfold Reaches at hdepth
  omega

/-- A script on a node on a group on a script on a node on a character, as deep as can be. -/
theorem depth_of_parse_vectors :
    ∃ p, parse (.untimed 1) "\\vec\x7b\\vec x_1\x7d_1".toList = .ok p ∧
      (∀ n ∈ p.tree.nodes, n.isStacked = false) ∧ p.tree.depth = 7 ∧ p.tree.stacked = 0 ∧
      p.tree.depth ≤ 3 * 1 + 4 + p.tree.stacked ∧ p.tree.depth ≤ 3 * 1 + 4 := by
  have htokens : tokenize "\\vec\x7b\\vec x_1\x7d_1".toList = [.command "vec", .openBrace,
      .command "vec", .text [' ', 'x'], .sub, .text ['1'], .closeBrace, .sub, .text ['1']] := by
    decide +kernel
  have hparse : parse (.untimed 1) "\\vec\x7b\\vec x_1\x7d_1".toList =
      .ok ⟨.group [.script (.command "vec"
        [.group [.script (.command "vec" [.leaf ['x']] none) (some (.leaf ['1'])) none]] none)
        (some (.leaf ['1'])) none], []⟩ := by
    rw [parse, htokens]
    cbv
  have hunstacked : ∀ n ∈ (Node.group [.script (.command "vec"
      [.group [.script (.command "vec" [.leaf ['x']] none) (some (.leaf ['1'])) none]] none)
      (some (.leaf ['1'])) none]).nodes, n.isStacked = false := by decide
  have hdepth := depth_of_parse hparse
  exact ⟨_, hparse, hunstacked, rfl, rfl, hdepth.1, hdepth.2 hunstacked⟩

/-! ## Towers -/

/-- The marks of a tower, each with a superscript. -/
def towerMarks : Nat → List Token
  | 0 => []
  | n + 1 => .sup :: .text ['1'] :: towerMarks n

/-- A tower: `n` superscripts, each hung on the one before. -/
def tower (n : Nat) : Text := 'x' :: (List.replicate n ['^', '1']).flatten

/-- The tree of a tower. -/
def towerNode : Nat → Node
  | 0 => .leaf ['x']
  | n + 1 => .script (towerNode n) none (some (.leaf ['1']))

/-- A run of one character ends in front of a mark. -/
theorem tokenize_single_run {c : Char} (hc : Token.isPlain c = true) (n : Nat) :
    tokenize (c :: (List.replicate n ['^', '1']).flatten) =
      .text [c] :: tokenize (List.replicate n ['^', '1']).flatten := by
  rw [tokenize_plain hc]
  cases n with
  | zero => rfl
  | succ n => rfl

theorem tokenize_tower (n : Nat) : tokenize (tower n) = .text ['x'] :: towerMarks n := by
  rw [tower, tokenize_single_run (by decide)]
  congr 1
  induction n with
  | zero => exact tokenize_nil
  | succ n ih =>
    rw [List.replicate_succ, List.flatten_cons, List.cons_append, List.cons_append, List.nil_append,
      tokenize_sup, tokenize_single_run (by decide), ih, towerMarks]

theorem depth_towerNode (n : Nat) : (towerNode n).depth = n + 1 := by
  induction n with
  | zero => rfl
  | succ n ih =>
    have hdepth : (towerNode (n + 1)).depth = max (max 0 (towerNode n).depth) 1 + 1 := rfl
    rw [hdepth, ih]
    omega

namespace Reading

theorem popBase_towerNode (n : Nat) : popBase [towerNode n] = (towerNode n, []) := by
  cases n with
  | zero => rfl
  | succ n => rfl

/-- Under a limit that permits no nesting, a mark is hung on the tower before it. -/
theorem readScripts_towerMarks (n k supply : Nat) {s : Reading}
    (hs : s.tokens = towerMarks (n + 1)) (hsupply : 2 ≤ supply) :
    ∃ s', readScripts (.untimed 0) supply 0 (towerNode k) none none s =
      .ok (towerNode (k + 1), s') ∧ s'.tokens = towerMarks n := by
  obtain ⟨supply, rfl⟩ : ∃ m, supply = m + 2 := Nat.exists_eq_add_of_le' hsupply
  obtain ⟨t, htick, ht⟩ := tick_of_patient (patient_untimed 0)
    (s.at' (.text ['1'] :: towerMarks n))
  rw [tokens_at'] at ht
  have hargument : readArgument (.untimed 0) (supply + 1) 0 (s.at' (.text ['1'] :: towerMarks n)) =
      .ok (.leaf ['1'], t.at' (towerMarks n)) := by
    simp only [readArgument, htick, ok_bind, ht]
    rfl
  refine ⟨t.at' (towerMarks n), ?_, rfl⟩
  unfold readScripts
  simp only [hs, towerMarks, hargument, ok_bind]
  unfold readScripts
  cases n with
  | zero => rfl
  | succ n => rfl

theorem readNodes_towerMarks (n k supply : Nat) {s : Reading} (hs : s.tokens = towerMarks n)
    (hsupply : n + 2 ≤ supply) :
    ∃ s', readNodes (.untimed 0) supply 0 .atEnd [towerNode k] s =
      .ok ([towerNode (k + n)], s') := by
  induction n generalizing k supply s with
  | zero =>
    obtain ⟨supply, rfl⟩ : ∃ m, supply = m + 1 := Nat.exists_eq_add_one.mpr (by omega)
    obtain ⟨t, htick, ht⟩ := tick_of_patient (patient_untimed 0) s
    rw [hs, towerMarks] at ht
    exact ⟨t, by simp only [readNodes, htick, ok_bind, ht]; rfl⟩
  | succ n ih =>
    obtain ⟨supply, rfl⟩ : ∃ m, supply = m + 1 := Nat.exists_eq_add_one.mpr (by omega)
    obtain ⟨t, htick, ht⟩ := tick_of_patient (patient_untimed 0) s
    obtain ⟨u, hscripts, hu⟩ :=
      readScripts_towerMarks n k supply (ht.trans hs) (by omega)
    obtain ⟨s', hrest⟩ := ih (k + 1) supply hu (by omega)
    rw [Nat.add_right_comm, Nat.add_assoc] at hrest
    rw [hs, towerMarks] at ht
    exact ⟨s', by simp only [readNodes, htick, ok_bind, ht, popBase_towerNode, hscripts, hrest]⟩

theorem le_weigh_towerMarks (n : Nat) : n ≤ weigh (towerMarks n) := by
  induction n with
  | zero => exact Nat.zero_le _
  | succ n ih =>
    simp only [towerMarks, weigh_cons, weight]
    omega

end Reading

/-- **The limit on nesting does not bound the depth**: a tower of any height is read without any
nesting. -/
theorem depth_readTower (n : Nat) :
    ∃ p, parse (.untimed 0) (tower n) = .ok p ∧ p.tree.depth = n + 2 := by
  obtain ⟨t, htick, ht⟩ := tick_of_patient (patient_untimed 0)
    ⟨tokenize (tower n), 0, []⟩
  obtain ⟨supply, hsupply⟩ : ∃ m, readingSupply (tokenize (tower n)) = m + 1 :=
    Nat.exists_eq_add_one.mpr (by rw [readingSupply_eq]; omega)
  have henough : n + 2 ≤ supply := by
    have hle := le_weigh_towerMarks n
    rw [readingSupply_eq, tokenize_tower, weigh_cons] at hsupply
    omega
  obtain ⟨s, hread⟩ := readNodes_towerMarks n 0 supply (s := t.at' (towerMarks n)) rfl henough
  rw [tokenize_tower] at ht
  rw [Nat.zero_add] at hread
  have hnodes : readNodes (.untimed 0) (supply + 1) 0 .atEnd [] ⟨tokenize (tower n), 0, []⟩ =
      .ok ([towerNode n], s) := by
    simp only [readNodes, htick, ok_bind, ht]
    exact hread
  refine ⟨⟨.group [towerNode n], s.notices⟩, ?_, ?_⟩
  · simp only [parse, hsupply, hnodes]
    rfl
  · have hdepth : (Node.group [towerNode n]).depth = max 0 (towerNode n).depth + 1 := rfl
    rw [hdepth, depth_towerNode]
    omega

/-- Three superscripts on `x` make the tree deeper than three for each level and four. -/
theorem depth_of_threeMarks :
    ∃ p, parse (.untimed 0) "x^1^1^1".toList = .ok p ∧ ¬p.tree.depth ≤ 3 * 0 + 4 := by
  obtain ⟨p, hparse, hdepth⟩ := depth_readTower 3
  exact ⟨p, hparse, by omega⟩

end SpokenMath
