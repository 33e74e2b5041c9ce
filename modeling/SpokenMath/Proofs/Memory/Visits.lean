import SpokenMath.Proofs.Memory.References

/-!
# What each node tells of structures

The structures of an expression are found in one pass over its nodes, from the first one down to
those below a structure, which are left out. The **visits** of an expression are the nodes in this
order, each with the effects that are due to it.

A visit can do one of four things (`Tells`): tell nothing, open a structure, open and close a proof,
or close the proof that is taken for the innermost structure. Which structure is innermost is
guessed: it is the one that was opened last, in the expression or before it, whatever has been
closed since.

**Theorem (`effects_analyze_visits`).** The effects of an expression are what comes before the first
visit, then those of the visits in order, and then perhaps the closing of a proof by a mark.
-/

namespace SpokenMath.Analysis

variable {notices : List Notice} {n : Node} {s : Structures}

/-! ## One visit -/

namespace Structures

/-- The effects that are due to a node. -/
def added (notices : List Notice) (s : Structures) (n : Node) : List Effect :=
  (s.visit notices n).effects.drop s.effects.length

/-- What is told by a node and what is innermost then, if `top` was innermost before. -/
inductive Tells (notices : List Notice) (top : Option StructureKind) :
    Node → List Effect → Option StructureKind → Prop
  | nothing {other : Node} (hname : ∀ name rows, other = .environment name rows →
      StructureKind.ofName? name = none) : Tells notices top other [] top
  | opened {name rows kind} (hname : StructureKind.ofName? name = some kind)
      (hunended : kind = .proof → .unterminatedEnvironment name ∈ notices) :
      Tells notices top (.environment name rows) [.opening kind] (some kind)
  | proof {name rows} (hname : StructureKind.ofName? name = some .proof)
      (hended : .unterminatedEnvironment name ∉ notices) :
      Tells notices top (.environment name rows) [.opening .proof, .closing .proof] (some .proof)
  | loneEnd {env optional} (hname : StructureKind.ofName? (String.ofList env) = some .proof)
      (htop : top = some .proof) :
      Tells notices top (.command "end" [.leaf env] optional) [.closing .proof] top

/-- **A visit does one of four things**, and its effects come behind those so far. -/
theorem tells_visit (notices : List Notice) (s : Structures) (n : Node) :
    Tells notices s.top n (s.added notices n) (s.visit notices n).top ∧
      (s.visit notices n).effects = s.effects ++ s.added notices n := by
  -- It is enough to know the effects that come behind.
  suffices ∃ es, Tells notices s.top n es (s.visit notices n).top ∧
      (s.visit notices n).effects = s.effects ++ es by
    obtain ⟨es, htells, heffects⟩ := this
    have hadded : s.added notices n = es := by
      rw [added, heffects, List.drop_left]
    rw [hadded]
    exact ⟨htells, heffects⟩
  unfold visit
  split
  · next name rows =>
    split
    · next hnone =>
      refine ⟨[], .nothing fun _ _ heq => ?_, (List.append_nil _).symm⟩
      obtain ⟨rfl, -⟩ := Node.environment.inj heq
      exact hnone
    · next kind hkind =>
      refine ⟨_, ?_, rfl⟩
      dsimp only
      split
      · next hended =>
        simp only [Bool.and_eq_true, beq_iff_eq, Bool.not_eq_true', List.contains_eq_mem,
          decide_eq_false_iff_not] at hended
        obtain ⟨rfl, hended⟩ := hended
        exact .proof hkind hended
      · next hunended =>
        refine .opened hkind fun hproof => ?_
        simpa [hproof] using hunended
  · next env optional =>
    have hend : ∀ name rows, Node.command "end" [.leaf env] optional = .environment name rows →
        StructureKind.ofName? name = none := nofun
    split
    · exact ⟨[], .nothing hend, (List.append_nil _).symm⟩
    · next kind hkind =>
      split
      · next hcloses =>
        simp only [Bool.and_eq_true, Bool.not_eq_true', beq_iff_eq] at hcloses
        obtain ⟨hproof, htop⟩ := hcloses
        have hproof : kind = .proof := by simpa [StructureKind.isStatement] using hproof
        subst hproof
        exact ⟨_, .loneEnd hkind htop, rfl⟩
      · exact ⟨[], .nothing hend, (List.append_nil _).symm⟩
  · next henvironment _ =>
    refine ⟨[], .nothing fun name rows heq => ?_, (List.append_nil _).symm⟩
    exact absurd heq (henvironment name rows)

/-! ## All visits -/

/-- The nodes that are visited, each with its effects. -/
def visits (notices : List Notice) : Structures → List Node → List (Node × List Effect)
  | _, [] => []
  | s, n :: ns => (n, s.added notices n) :: visits notices (s.visit notices n) ns

theorem effects_foldl_visit (s : Structures) (ns : List Node) :
    (ns.foldl (visit notices) s).effects = s.effects ++ (visits notices s ns).flatMap Prod.snd := by
  induction ns generalizing s with
  | nil => exact (List.append_nil _).symm
  | cons n ns ih =>
    rw [List.foldl_cons, ih, (tells_visit notices s n).2, visits, List.flatMap_cons,
      List.append_assoc]

/-- A visit is made behind the visits before it. -/
theorem visits_split {ns : List Node} {early late : List (Node × List Effect)} {es : List Effect}
    (h : visits notices s ns = early ++ (n, es) :: late) :
    ∃ front back, ns = front ++ n :: back ∧ early = visits notices s front ∧
      es = (front.foldl (visit notices) s).added notices n := by
  induction early generalizing s ns with
  | nil =>
    cases ns with
    | nil => cases h
    | cons m ns =>
      obtain ⟨hfirst, -⟩ := List.cons.inj h
      obtain ⟨rfl, rfl⟩ := Prod.mk.inj hfirst
      exact ⟨[], ns, rfl, rfl, rfl⟩
  | cons first early ih =>
    cases ns with
    | nil => cases h
    | cons m ns =>
      obtain ⟨rfl, hrest⟩ := List.cons.inj h
      obtain ⟨front, back, rfl, rfl, rfl⟩ := ih hrest
      exact ⟨m :: front, back, rfl, rfl, rfl⟩

/-- What is known in front of the first node: the heading of the text opens a structure, and
without a heading the innermost structure is that of the memory. -/
def start (text : Text) (m : Memory) : Structures :=
  match (heading.find? text).bind fun h =>
    StructureKind.ofName? (String.ofList ((h.group? 1).getD [])) with
  | some kind => { effects := [.opening kind], top := some kind }
  | none => { top := m.current?.map (·.kind) }

end Structures

open Structures

/-! ## The visits of an expression -/

variable {tree : Node} {m : Memory} {report : Bool}

/-- The nodes of an expression that are visited, each with its effects. -/
def visits (tree : Node) (notices : List Notice) (m : Memory) : List (Node × List Effect) :=
  Structures.visits notices (start (plainText tree) m) (tree.preorder staysOpen)

/-- The effects in front of the first visit: references, definitions, and the heading. -/
def preface (tree : Node) (m : Memory) : List Effect :=
  ((freeLetters tree).filter m.isDefined).map .reference ++
    (definitions (plainText tree)).map (fun p => .define p.1 p.2) ++
    (start (plainText tree) m).effects

/-- All visits are made, one after the other, and a mark closes a proof that nothing closed. -/
theorem structures_eq (tree : Node) (text : Text) (notices : List Notice) (m : Memory) :
    structures tree text notices m =
      let s := (tree.preorder staysOpen).foldl (visit notices) (start text m)
      if !s.proofClosed && proofEnd.isMatch text then
        { s with effects := s.effects ++ [.closing .proof] } else s := by
  unfold structures start
  cases (heading.find? text).bind fun h =>
    StructureKind.ofName? (String.ofList ((h.group? 1).getD [])) <;> rfl

theorem effects_structures (tree : Node) (text : Text) (notices : List Notice) (m : Memory) :
    ∃ rest, (structures tree text notices m).effects = (start text m).effects ++
      ((Structures.visits notices (start text m) (tree.preorder staysOpen)).flatMap Prod.snd ++
        rest) := by
  rw [structures_eq]
  dsimp only
  split
  · exact ⟨[.closing .proof], by rw [effects_foldl_visit, List.append_assoc]⟩
  · exact ⟨[], by rw [effects_foldl_visit, List.append_nil]⟩

/-- **The effects of an expression, visit by visit.** -/
theorem effects_analyze_visits (tree : Node) (notices : List Notice) (m : Memory) (report : Bool) :
    preface tree m ++ (visits tree notices m).flatMap Prod.snd <+:
      (analyze tree notices m report).effects := by
  obtain ⟨rest, hrest⟩ := effects_structures tree (plainText tree) notices m
  refine ⟨rest, ?_⟩
  rw [effects_analyze, hrest, preface, visits]
  simp only [List.append_assoc]

end SpokenMath.Analysis
