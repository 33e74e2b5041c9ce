import Mathlib.Data.List.DropRight
import SpokenMath.Proofs.Markup.Endings
import SpokenMath.Proofs.Memory.Stack
import SpokenMath.Proofs.Memory.Visits

/-!
# Lone ends

A lone end closes a proof if a proof is innermost. What is innermost is foreseen while the
expression is read, and the effects are carried out later, on the stack of the memory. Both agree on
the structure that was opened last (`Foreseen`), but no closing is foreseen: behind a proof that was
opened and closed, a lone end is still taken for one of this proof.

**Theorem (`apply_loneEnd`).** So a lone end closes a proof as long as one is open. It fails if as
many closings as there were open proofs came before it, since the last opening.
-/

namespace SpokenMath

/-- Whether a structure is opened. -/
def Effect.isOpening : Effect → Bool
  | .opening _ => true
  | _ => false

/-- Effects up to the last opening. -/
def throughOpening (es : List Effect) : List Effect := es.rdropWhile (!·.isOpening)

/-- The effects since the last opening. -/
def sinceOpening (es : List Effect) : List Effect := es.rtakeWhile (!·.isOpening)

theorem throughOpening_append_sinceOpening (es : List Effect) :
    throughOpening es ++ sinceOpening es = es :=
  List.rdropWhile_append_rtakeWhile

section

variable {es fs : List Effect} {kind : StructureKind}

theorem throughOpening_opening : throughOpening (es ++ [.opening kind]) = es ++ [.opening kind] :=
  List.rdropWhile_concat_neg _ _ _ (by simp [Effect.isOpening])

theorem sinceOpening_opening : sinceOpening (es ++ [.opening kind]) = [] :=
  List.rtakeWhile_concat_neg _ _ _ (by simp [Effect.isOpening])

theorem throughOpening_append (h : ∀ e ∈ fs, e.isOpening = false) :
    throughOpening (es ++ fs) = throughOpening es := by
  rw [throughOpening, List.rdropWhile, List.reverse_append, List.dropWhile_append_of_pos]
  · rfl
  · simpa using h

theorem sinceOpening_append (h : ∀ e ∈ fs, e.isOpening = false) :
    sinceOpening (es ++ fs) = sinceOpening es ++ fs := by
  rw [sinceOpening, List.rtakeWhile, List.reverse_append, List.takeWhile_append_of_pos,
    List.reverse_append, List.reverse_reverse]
  · rfl
  · simpa using h

end

/-! ## Closings on the stack -/

namespace Memory

variable {m : Memory} {kind : StructureKind} {index : Nat} {es : List Effect}

/-- How many proofs are open. -/
def openProofs (m : Memory) : Nat := m.frames.countP (·.kind == .proof)

theorem applyAll_append (index : Nat) (es fs : List Effect) (m : Memory) :
    (applyAll index (es ++ fs) m).2 = (applyAll index fs (applyAll index es m).2).2 := by
  induction es generalizing m with
  | nil => rfl
  | cons e es ih => exact ih _

/-- What is opened is innermost then: an overflow takes the outermost structure. -/
theorem current?_openStructure (m : Memory) (kind : StructureKind) (index : Nat) :
    (m.openStructure kind index).2.current?.map (·.kind) = some kind := by
  simp only [openStructure, current?]
  split
  · next hfull =>
    cases hroom : makeRoom kind m.frames with
    | nil => simp [hroom, maxFrames] at hfull
    | cons f below => rfl
  · rfl

/-- Nothing but a proof is innermost. -/
def OnProof (m : Memory) : Prop := ∀ f ∈ m.frames.head?, f.kind = .proof

theorem OnProof.openProofs_pos (hproof : m.current?.map (·.kind) = some .proof) :
    m.OnProof ∧ 0 < m.openProofs := by
  obtain ⟨top, htop, hkind⟩ := Option.map_eq_some_iff.mp hproof
  have htop : m.frames.head? = some top := htop
  refine ⟨fun f hf => ?_, List.countP_pos_iff.mpr ⟨top, List.mem_of_mem_head? htop, ?_⟩⟩
  · rw [htop] at hf
    obtain rfl := Option.some.inj hf
    exact hkind
  · exact beq_iff_eq.mpr hkind

/-- **Closing a proof where no statement is innermost.** It takes one proof off if there is one, and
again no statement is innermost. -/
theorem apply_closing_proof (index : Nat) (h : Shaped m.frames) (hproof : m.OnProof) :
    (m.apply index (.closing .proof)).2.OnProof ∧
      (m.apply index (.closing .proof)).2.openProofs = m.openProofs - 1 ∧
      (m.apply index (.closing .proof)).1 =
        if 0 < m.openProofs then none else some (.mismatchedClose "nothing" "proof") := by
  cases hclose : m.closeStructure .proof with
  | ok m' =>
    obtain ⟨hproof', top, hkind, hframes⟩ := frames_of_closeStructure h hclose
    have hopen : m.openProofs = m'.openProofs + 1 := by
      rcases hframes with hframes | ⟨-, s, hs, hframes⟩
      · simp [openProofs, hframes, hkind]
      · simp [openProofs, hframes, hkind, hs]
    simp only [apply, hclose]
    exact ⟨hproof', by rw [hopen, Nat.add_sub_cancel],
      (if_pos (hopen ▸ Nat.succ_pos _)).symm⟩
  | error e =>
    simp only [apply, hclose]
    unfold closeStructure at hclose
    split at hclose
    · next top below hframes =>
      have hkind : top.kind = .proof := hproof top (by simp [hframes])
      rw [if_pos hkind] at hclose
      cases hclose
    · next hframes =>
      obtain rfl := Except.error.inj hclose
      have hopen : m.openProofs = 0 := by simp [openProofs, hframes]
      exact ⟨hproof, by rw [hopen], by rw [hopen]; rfl⟩

/-- Effects that open nothing and close nothing but proofs. -/
def Idle (e : Effect) : Prop := e.isOpening = false ∧ ∀ kind, e = .closing kind → kind = .proof

/-- **Each closing takes a proof off** as long as nothing is opened. -/
theorem openProofs_applyAll (index : Nat) (h : Shaped m.frames) (hproof : m.OnProof)
    (hes : ∀ e ∈ es, Idle e) :
    (applyAll index es m).2.OnProof ∧
      (applyAll index es m).2.openProofs = m.openProofs - es.count (.closing .proof) := by
  induction es generalizing m with
  | nil => exact ⟨hproof, rfl⟩
  | cons e es ih =>
    obtain ⟨he, hrest⟩ := List.forall_mem_cons.mp hes
    have hshaped : Shaped (m.apply index e).2.frames := shaped_apply h e
    -- Everything but a closing leaves the stack as it is.
    have hother (hframes : (m.apply index e).2.frames = m.frames) (hne : e ≠ .closing .proof) :
        (applyAll index (e :: es) m).2.OnProof ∧ (applyAll index (e :: es) m).2.openProofs =
          m.openProofs - (e :: es).count (.closing .proof) := by
      have hstill : (m.apply index e).2.OnProof := by rwa [OnProof, hframes]
      have hopen : (m.apply index e).2.openProofs = m.openProofs := by
        rw [openProofs, hframes, openProofs]
      rw [List.count_cons_of_ne hne, ← hopen]
      exact ih hshaped hstill hrest
    cases e with
    | define symbol meaning => exact hother rfl nofun
    | reference symbol => exact hother (frames_reference symbol) nofun
    | opening kind => exact absurd he.1 (by simp [Effect.isOpening])
    | closing kind =>
      obtain rfl := he.2 kind rfl
      obtain ⟨hstill, hopen, -⟩ := apply_closing_proof index h hproof
      obtain ⟨hlast, hcount⟩ := ih hshaped hstill hrest
      refine ⟨hlast, hcount.trans ?_⟩
      rw [hopen, List.count_cons_self, Nat.sub_sub, Nat.add_comm]
    | topic domain => exact hother rfl nofun

theorem countP_makeRoom_le (kind : StructureKind) (frames : List Frame) :
    (makeRoom kind frames).countP (·.kind == .proof) ≤ frames.countP (·.kind == .proof) := by
  rcases makeRoom_cases kind frames with ⟨h, -⟩ | ⟨top, below, rfl, -, ⟨-, h⟩ | ⟨-, h⟩⟩
  · rw [h]
  · rw [h]
    exact (List.sublist_cons_self top below).countP_le
  · rw [h, List.countP_cons, List.countP_cons]

theorem openProofs_apply_le (m : Memory) (index : Nat) (e : Effect) :
    (m.apply index e).2.openProofs ≤ m.openProofs + if e.isOpening then 1 else 0 := by
  cases e with
  | define symbol meaning => exact Nat.le_refl _
  | reference symbol =>
    have hframes : (m.apply index (.reference symbol)).2.frames = m.frames :=
      frames_reference symbol
    rw [openProofs, hframes]
    exact Nat.le_refl _
  | opening kind =>
    have hnew : (⟨kind, index, .opened⟩ :: makeRoom kind m.frames : List Frame).countP
        (·.kind == .proof) ≤ m.openProofs + 1 := by
      rw [List.countP_cons]
      exact Nat.add_le_add (countP_makeRoom_le kind m.frames) (by split <;> simp)
    simp only [apply, openStructure]
    split
    · exact ((List.dropLast_sublist _).countP_le).trans hnew
    · exact hnew
  | closing kind =>
    cases hclose : m.closeStructure kind with
    | ok m' =>
      simp only [apply, hclose]
      unfold closeStructure at hclose
      split at hclose
      case h_2 => cases hclose
      next top below hframes =>
      split at hclose
      case isFalse => cases hclose
      obtain rfl := Except.ok.inj hclose
      rw [openProofs, openProofs, hframes]
      exact ((List.dropWhile_sublist _).trans (List.sublist_cons_self _ _)).countP_le
    | error e =>
      simp only [apply, hclose]
      exact Nat.le_refl _
  | topic domain => exact Nat.le_refl _

/-- No more proofs are open than were opened. -/
theorem openProofs_applyAll_le (index : Nat) (es : List Effect) (m : Memory) :
    (applyAll index es m).2.openProofs ≤ m.openProofs + es.countP Effect.isOpening := by
  induction es generalizing m with
  | nil => exact Nat.le_refl _
  | cons e es ih =>
    have hall := ih (m.apply index e).2
    have hfirst := openProofs_apply_le m index e
    rw [List.countP_cons]
    calc (applyAll index (e :: es) m).2.openProofs
        ≤ (m.apply index e).2.openProofs + es.countP Effect.isOpening := hall
      _ ≤ m.openProofs + (es.countP Effect.isOpening + if e.isOpening then 1 else 0) := by omega

end Memory

open Memory

namespace Analysis

variable {m : Memory} {notices : List Notice} {es fs : List Effect}
  {top top' : Option StructureKind} {n : Node} {tree : Node} {report : Bool}

/-! ## What is foreseen -/

/-- What is taken for the innermost structure behind some effects. It is the innermost one behind
the last opening, and since then only proofs were closed. -/
structure Foreseen (m : Memory) (es : List Effect) (top : Option StructureKind) : Prop where
  innermost : (applyAll m.expressions (throughOpening es) m).2.current?.map (·.kind) = top
  idle : ∀ e ∈ sinceOpening es, Idle e

theorem Foreseen.opening (m : Memory) (es : List Effect) (kind : StructureKind) :
    Foreseen m (es ++ [.opening kind]) (some kind) where
  innermost := by
    rw [throughOpening_opening, applyAll_append]
    exact current?_openStructure _ kind _
  idle := by
    rw [sinceOpening_opening]
    exact List.forall_mem_nil _

theorem Foreseen.idles (h : Foreseen m es top) (hfs : ∀ e ∈ fs, Idle e) :
    Foreseen m (es ++ fs) top where
  innermost := by
    rw [throughOpening_append fun e he => (hfs e he).1]
    exact h.innermost
  idle := by
    rw [sinceOpening_append fun e he => (hfs e he).1]
    exact List.forall_mem_append.mpr ⟨h.idle, hfs⟩

theorem idle_closing_proof : ∀ e ∈ [Effect.closing .proof], Idle e :=
  List.forall_mem_singleton.mpr ⟨rfl, fun _ heq => (Effect.closing.inj heq).symm⟩

/-- **A visit keeps it foreseen.** -/
theorem Foreseen.tells (h : Foreseen m es top) (htells : Structures.Tells notices top n fs top') :
    Foreseen m (es ++ fs) top' := by
  cases htells with
  | nothing => rwa [List.append_nil]
  | @opened _ _ kind => exact .opening m es kind
  | proof =>
    have hopened : Foreseen m (es ++ [.opening .proof]) (some .proof) := .opening m es .proof
    simpa using hopened.idles idle_closing_proof
  | loneEnd => exact h.idles idle_closing_proof

/-- And so do all visits. -/
theorem Foreseen.visits (notices : List Notice) {s : Structures} (h : Foreseen m es s.top)
    (ns : List Node) :
    Foreseen m (es ++ (s.visits notices ns).flatMap Prod.snd)
      (ns.foldl (Structures.visit notices) s).top := by
  induction ns generalizing s es with
  | nil => simpa [Structures.visits] using h
  | cons n ns ih =>
    rw [Structures.visits, List.flatMap_cons, ← List.append_assoc]
    exact ih (h.tells (Structures.tells_visit notices s n).1)

/-- In front of the first visit, the innermost structure is known. -/
theorem foreseen_preface (tree : Node) (m : Memory) :
    Foreseen m (preface tree m) (Structures.start (plainText tree) m).top := by
  have hnone : Foreseen m [] (m.current?.map (·.kind)) := ⟨rfl, List.forall_mem_nil _⟩
  have hidle : ∀ e ∈ ((freeLetters tree).filter m.isDefined).map .reference ++
      (definitions (plainText tree)).map (fun p => Effect.define p.1 p.2), Idle e := by
    refine List.forall_mem_append.mpr ⟨List.forall_mem_map.mpr fun _ _ => ?_,
      List.forall_mem_map.mpr fun _ _ => ?_⟩ <;> exact ⟨rfl, nofun⟩
  unfold preface Structures.start
  split
  · exact .opening m _ _
  · simpa using hnone.idles hidle

/-- **A closing where a proof is foreseen.** It takes a proof off unless all that were open have
been closed since the last opening, and then nothing is open. -/
theorem Foreseen.apply_closing (hm : Shaped m.frames) (h : Foreseen m es (some .proof)) :
    let opened := (applyAll m.expressions (throughOpening es) m).2
    0 < opened.openProofs ∧
      ((applyAll m.expressions es m).2.apply m.expressions (.closing .proof)).1 =
        if (sinceOpening es).count (.closing .proof) < opened.openProofs then none
        else some (.mismatchedClose "nothing" "proof") := by
  intro opened
  obtain ⟨hproof, hopen⟩ := OnProof.openProofs_pos h.innermost
  have hshaped : Shaped opened.frames := shaped_applyAll hm _
  have hall : (applyAll m.expressions es m).2 =
      (applyAll m.expressions (sinceOpening es) opened).2 := by
    rw [← applyAll_append, throughOpening_append_sinceOpening]
  obtain ⟨hstill, hcount⟩ := openProofs_applyAll m.expressions hshaped hproof h.idle
  obtain ⟨-, -, hnotice⟩ := apply_closing_proof m.expressions (shaped_applyAll hshaped _)
    hstill
  refine ⟨hopen, ?_⟩
  rw [hall, hnotice, hcount]
  exact if_congr Nat.sub_pos_iff_lt rfl rfl

/-- In front of the first visit, at most the heading is opened. -/
theorem countP_isOpening_preface_le (tree : Node) (m : Memory) :
    (preface tree m).countP Effect.isOpening ≤ 1 := by
  have hstart : (Structures.start (plainText tree) m).effects.countP Effect.isOpening ≤ 1 := by
    unfold Structures.start
    split <;> simp [Effect.isOpening]
  simpa [preface, List.countP_append, List.countP_map, Function.comp_def, Effect.isOpening]
    using hstart

/-! ## Lone ends -/

/-- The name of a lone end that something is told of. -/
def loneEnd? : Node × List Effect → Option String
  | (.command "end" [.leaf env] _, _ :: _) => some (String.ofList env)
  | _ => none

theorem resolvedEnds_visit (notices : List Notice) (s : Structures) (n : Node) :
    (s.visit notices n).resolvedEnds =
      s.resolvedEnds ++ (loneEnd? (n, s.added notices n)).toList := by
  unfold Structures.added Structures.visit
  split
  · split <;> simp [loneEnd?]
  · split
    · simp [loneEnd?]
    · split <;> simp [loneEnd?]
  · simp [loneEnd?]

theorem resolvedEnds_foldl_visit (s : Structures) (ns : List Node) :
    (ns.foldl (Structures.visit notices) s).resolvedEnds =
      s.resolvedEnds ++ (s.visits notices ns).filterMap loneEnd? := by
  induction ns generalizing s with
  | nil => exact (List.append_nil _).symm
  | cons n ns ih =>
    rw [List.foldl_cons, ih, resolvedEnds_visit, Structures.visits, List.append_assoc]
    cases hend : loneEnd? (n, s.added notices n) <;> simp [hend]

/-- **The ends that are resolved** are the lone ends that something is told of. -/
theorem resolvedEnds_analyze (tree : Node) (notices : List Notice) (m : Memory) (report : Bool) :
    (analyze tree notices m report).resolvedEnds =
      (visits tree notices m).filterMap loneEnd? := by
  have hstart : (Structures.start (plainText tree) m).resolvedEnds = [] := by
    unfold Structures.start
    split <;> rfl
  have hends : (analyze tree notices m report).resolvedEnds =
      (structures tree (plainText tree) notices m).resolvedEnds := rfl
  rw [hends, structures_eq, visits]
  dsimp only
  split <;> rw [resolvedEnds_foldl_visit, hstart, List.nil_append]

/-- Something is told of a lone end if a proof is taken for the innermost structure. -/
theorem Structures.Tells.top_of_loneEnd {name : String} (h : Tells notices top n es top')
    (hend : loneEnd? (n, es) = some name) : es = [.closing .proof] ∧ top = some .proof := by
  cases h with
  | nothing => simp [loneEnd?] at hend
  | opened => simp [loneEnd?] at hend
  | proof => simp [loneEnd?] at hend
  | loneEnd _ htop => exact ⟨rfl, htop⟩

end Analysis

open Analysis

variable {tree : Node} {notices : List Notice} {report : Bool}

/-- **What a resolved lone end closes.** Whatever was done to a new memory, and whatever the reading
noted: an end that an expression resolves closes a proof there, after the effects that come before
it. A proof was innermost behind the last opening before it. The closing succeeds exactly if fewer
proofs were closed since then than were open; otherwise nothing is open any more. -/
theorem apply_loneEnd {ops : List Operation} {early late : List (Node × List Effect)}
    {v : Node × List Effect} {name : String}
    (hvisits : visits tree notices (performAll {} ops) = early ++ v :: late)
    (hend : loneEnd? v = some name) :
    let m : Memory := performAll {} ops
    let before := preface tree m ++ early.flatMap Prod.snd
    let opened := (applyAll m.expressions (throughOpening before) m).2
    (analyze tree notices m report).resolvedEnds =
        early.filterMap loneEnd? ++ name :: late.filterMap loneEnd? ∧
      before ++ [.closing .proof] <+: (analyze tree notices m report).effects ∧
      v.2 = [.closing .proof] ∧ 0 < opened.openProofs ∧
      ((applyAll m.expressions before m).2.apply m.expressions (.closing .proof)).1 =
        if (sinceOpening before).count (.closing .proof) < opened.openProofs then none
        else some (.mismatchedClose "nothing" "proof") := by
  intro m before opened
  obtain ⟨n, es⟩ := v
  obtain ⟨front, back, -, hearly, hes⟩ := Structures.visits_split hvisits
  obtain ⟨htells, -⟩ := Structures.tells_visit notices
    (front.foldl (Structures.visit notices) (Structures.start (plainText tree) m)) n
  rw [← hes] at htells
  obtain ⟨rfl, htop⟩ := htells.top_of_loneEnd hend
  have hforeseen : Foreseen m before (some .proof) := by
    have h := (foreseen_preface tree m).visits notices front
    rwa [htop, ← hearly] at h
  obtain ⟨hopen, hnotice⟩ := hforeseen.apply_closing (shaped_nil.performAll ops)
  refine ⟨?_, ?_, rfl, hopen, hnotice⟩
  · rw [resolvedEnds_analyze, hvisits, List.filterMap_append, List.filterMap_cons, hend]
  · refine List.IsPrefix.trans ⟨late.flatMap Prod.snd, ?_⟩
      (effects_analyze_visits tree notices m report)
    rw [hvisits]
    simp [before]

/-! ## Two ends too many -/

/-- A proof in full, and two ends more. -/
def twoMoreEnds : Text :=
  "\\begin\x7bproof\x7d1\\end\x7bproof\x7d\\end\x7bproof\x7d\\end\x7bproof\x7d".toList

/-- Whether a tree is that of a proof and of two ends. -/
def isTwoMoreEnds : Node → Bool
  | .group [.environment "proof" _, .command "end" [.leaf env] _, .command "end" [.leaf env'] _] =>
    env = "proof".toList && env' = "proof".toList
  | _ => false

/-- The effects of both ends do not depend on what was open before. -/
theorem visits_of_isTwoMoreEnds (h : isTwoMoreEnds tree = true)
    (hended : .unterminatedEnvironment "proof" ∉ notices) : ∃ proof end₁ end₂,
    loneEnd? (end₁, [.closing .proof]) = some "proof" ∧
    loneEnd? (end₂, [.closing .proof]) = some "proof" ∧
    ∀ m, visits tree notices m = [(tree, []), (proof, [.opening .proof, .closing .proof]),
      (end₁, [.closing .proof])] ++ [(end₂, [.closing .proof])] := by
  unfold isTwoMoreEnds at h
  split at h
  case h_2 => cases h
  next rows env o env' o' =>
  simp only [Bool.and_eq_true, decide_eq_true_eq] at h
  obtain ⟨henv, henv'⟩ := h
  have hkind : StructureKind.ofName? "proof" = some .proof := by decide +kernel
  refine ⟨.environment "proof" rows, .command "end" [.leaf env] o,
    .command "end" [.leaf env'] o', by simp [loneEnd?, henv], by simp [loneEnd?, henv'], ?_⟩
  intro m
  have hnodes : (Node.group [.environment "proof" rows, .command "end" [.leaf env] o,
      .command "end" [.leaf env'] o']).preorder staysOpen =
        [.group [.environment "proof" rows, .command "end" [.leaf env] o,
          .command "end" [.leaf env'] o'], .environment "proof" rows, .command "end" [.leaf env] o,
          .command "end" [.leaf env'] o'] := by
    simp [Node.preorder_eq, staysOpen, hkind, Node.children]
  rw [visits, hnodes]
  simp [Structures.visits, Structures.added, Structures.visit, hkind, hended, henv, henv',
    StructureKind.isStatement]

/-- What is visited in this text. -/
theorem exists_visits_twoMoreEnds : ∃ p, parse (.untimed 4) twoMoreEnds = .ok p ∧
    ∃ proof end₁ end₂, loneEnd? (end₁, [.closing .proof]) = some "proof" ∧
      loneEnd? (end₂, [.closing .proof]) = some "proof" ∧
      ∀ m, visits p.tree p.notices m =
        [(p.tree, []), (proof, [.opening .proof, .closing .proof]), (end₁, [.closing .proof])] ++
          [(end₂, [.closing .proof])] := by
  have hread : (parse (.untimed 4) twoMoreEnds).toOption.map
      (fun p => (isTwoMoreEnds p.tree, p.notices)) =
        some (true, [.strayEnd "proof", .strayEnd "proof"]) := by decide +kernel
  obtain ⟨p, hparse, hp⟩ := exists_parse_of_map hread
  obtain ⟨htree, hnotices⟩ := Prod.mk.inj hp
  refine ⟨p, hparse, visits_of_isTwoMoreEnds htree ?_⟩
  rw [hnotices]
  decide

/-- The second of both ends, in a new memory. -/
theorem apply_loneEnd_twoMoreEnds : ∃ p, parse (.untimed 4) twoMoreEnds = .ok p ∧
    ∃ early v, visits p.tree p.notices (performAll {} []) = early ++ [v] ∧
      loneEnd? v = some "proof" ∧
      let m : Memory := performAll {} []
      let before := preface p.tree m ++ early.flatMap Prod.snd
      let opened := (applyAll m.expressions (throughOpening before) m).2
      (analyze p.tree p.notices m true).resolvedEnds = early.filterMap loneEnd? ++ ["proof"] ∧
        before ++ [.closing .proof] <+: (analyze p.tree p.notices m true).effects ∧
        v.2 = [.closing .proof] ∧ 0 < opened.openProofs ∧
        ((applyAll m.expressions before m).2.apply m.expressions (.closing .proof)).1 =
          if (sinceOpening before).count (.closing .proof) < opened.openProofs then none
          else some (.mismatchedClose "nothing" "proof") := by
  obtain ⟨p, hparse, proof, end₁, end₂, -, hend₂, hvisits⟩ := exists_visits_twoMoreEnds
  exact ⟨p, hparse, _, _, hvisits _, hend₂, apply_loneEnd (hvisits _) hend₂⟩

/-- **The second of both ends closes nothing** in a new memory: at most two proofs were opened, and
two were closed. -/
theorem apply_loneEnd_fails : ∃ p, parse (.untimed 4) twoMoreEnds = .ok p ∧
    ∃ early v, visits p.tree p.notices {} = early ++ [v] ∧ loneEnd? v = some "proof" ∧
      v.2 = [.closing .proof] ∧
      ((applyAll 0 (preface p.tree {} ++ early.flatMap Prod.snd) {}).2.apply 0
        (.closing .proof)).1 = some (.mismatchedClose "nothing" "proof") := by
  obtain ⟨p, hparse, proof, end₁, end₂, -, hend₂, hvisits⟩ := exists_visits_twoMoreEnds
  refine ⟨p, hparse, _, _, hvisits {}, hend₂, rfl, ?_⟩
  -- Both closings stand behind the opening of the proof.
  let opening : List Effect := preface p.tree {} ++ [.opening .proof]
  let closings : List Effect := [.closing .proof, .closing .proof]
  have heffects : preface p.tree {} ++ [(p.tree, []),
      (proof, [.opening .proof, .closing .proof]), (end₁, [.closing .proof])].flatMap Prod.snd =
        opening ++ closings := by
    simp [opening, closings]
  have hidle : ∀ e ∈ closings, Idle e :=
    List.forall_mem_cons.mpr ⟨idle_closing_proof _ (List.mem_singleton_self _), idle_closing_proof⟩
  have hforeseen : Foreseen {} (opening ++ closings) (some .proof) :=
    (Foreseen.opening {} (preface p.tree {}) .proof).idles hidle
  have hthrough : throughOpening (opening ++ closings) = opening :=
    (throughOpening_append fun e he => (hidle e he).1).trans throughOpening_opening
  have hsince : sinceOpening (opening ++ closings) = closings := by
    rw [sinceOpening_append fun e he => (hidle e he).1, sinceOpening_opening, List.nil_append]
  have hopened : (applyAll 0 opening {}).2.openProofs ≤ 2 := by
    refine (openProofs_applyAll_le 0 opening {}).trans ?_
    simpa [opening, Effect.isOpening, openProofs] using countP_isOpening_preface_le p.tree {}
  obtain ⟨-, hnotice⟩ := hforeseen.apply_closing shaped_nil
  rw [hthrough, hsince] at hnotice
  rw [heffects]
  exact hnotice.trans (if_neg (Nat.not_lt_of_le hopened))

end SpokenMath
