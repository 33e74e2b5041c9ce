import Mathlib.Data.List.Chain
import SpokenMath.Memory.Basic

/-!
# The shape of the stack of structures

Structures are opened and closed in any order and any number, and still the stack has a simple
shape, which no operation on a memory breaks (`shaped_perform`): a statement is either on top, where
it is open, or waits right below its proof, and a proof is open as long as it is on the stack
(`Shaped`).

**Theorem (`shaped_performAll`).** Whatever is done to a new memory, its stack has this shape.
Closing a proof therefore takes the proof off and, if there is one right below it, one statement;
and closing a statement takes off this statement only.

An overflow takes a frame off the other end. It cannot break the shape, because the shape says
something of a frame and of the frame above it, and nothing of the frame below.
-/

namespace SpokenMath.Memory

/-! ## Operations -/

/-- What can be done to a memory. -/
inductive Operation
  | define (symbol meaning : String) (index : Nat)
  | reference (symbol : String)
  | opening (kind : StructureKind) (index : Nat)
  | closing (kind : StructureKind)
  | topic (domain : Domain)
  | commit (effects : List Effect)
  | reset

/-- The memory behind an operation. A closing that fails leaves it as it is. -/
def perform (m : Memory) : Operation → Memory
  | .define symbol meaning index => (m.define symbol meaning index).2
  | .reference symbol => m.reference symbol
  | .opening kind index => (m.openStructure kind index).2
  | .closing kind =>
    match m.closeStructure kind with
    | .ok m => m
    | .error _ => m
  | .topic domain => m.setTopic domain
  | .commit effects => (m.commit effects).2
  | .reset => {}

/-- The memory behind operations, one after the other. -/
def performAll (m : Memory) (ops : List Operation) : Memory := ops.foldl perform m

/-! ## The shape -/

/-- How a frame may lie on another one: a statement waits, finished, right below a proof. -/
def MayCover (upper lower : Frame) : Prop :=
  lower.kind.isStatement = true → upper.kind = .proof ∧ lower.state = .closed

/-- The shape of a stack, the innermost frame first. -/
structure Shaped (frames : List Frame) : Prop where
  length_le : frames.length ≤ maxFrames
  top_opened : ∀ top ∈ frames.head?, top.state = .opened
  proof_opened : ∀ f ∈ frames, f.kind = .proof → f.state = .opened
  covered : frames.IsChain MayCover

variable {m m' : Memory} {kind : StructureKind} {index : Nat} {frames below : List Frame}
  {f top : Frame}

theorem isStatement_iff : kind.isStatement = true ↔ kind ≠ .proof := by
  simp [StructureKind.isStatement]

theorem shaped_nil : Shaped [] where
  length_le := Nat.zero_le _
  top_opened := by simp
  proof_opened := by simp
  covered := .nil

/-- Right below a statement there is a proof or nothing. -/
theorem proof_under_statement (h : (f :: below).IsChain MayCover) (hf : f.kind ≠ .proof) :
    ∀ g ∈ below.head?, g.kind = .proof := by
  intro g hg
  by_contra hne
  exact hf ((List.isChain_cons.mp h).1 g hg (isStatement_iff.mpr hne)).1

/-- The outermost frame can be dropped. -/
theorem Shaped.dropLast (hlength : frames.length ≤ maxFrames + 1)
    (htop : ∀ top ∈ frames.head?, top.state = .opened)
    (hproof : ∀ f ∈ frames, f.kind = .proof → f.state = .opened)
    (hcovered : frames.IsChain MayCover) : Shaped frames.dropLast where
  length_le := by
    rw [List.length_dropLast]
    exact Nat.sub_le_of_le_add hlength
  top_opened := by
    intro top h
    cases frames with
    | nil => cases h
    | cons first rest =>
      cases rest with
      | nil => cases h
      | cons second rest => exact htop top h
  proof_opened f hf := hproof f (List.dropLast_subset frames hf)
  covered := hcovered.dropLast

/-! ## Opening -/

/-- What the stack is when room is made for a structure: a statement on top is either replaced by a
statement, or finished by a proof. -/
theorem makeRoom_cases (kind : StructureKind) (frames : List Frame) :
    makeRoom kind frames = frames ∧ (∀ f ∈ frames.head?, f.kind = .proof) ∨
    (∃ top below, frames = top :: below ∧ top.kind ≠ .proof ∧
      (kind ≠ .proof ∧ makeRoom kind frames = below ∨
        kind = .proof ∧ makeRoom kind frames = { top with state := .closed } :: below)) := by
  cases frames with
  | nil => exact .inl ⟨rfl, by simp⟩
  | cons top below =>
    by_cases htop : top.kind = .proof
    · have hfalse : top.kind.isStatement = false := by simp [StructureKind.isStatement, htop]
      exact .inl ⟨by simp [makeRoom, hfalse], by simp [htop]⟩
    · refine .inr ⟨top, below, rfl, htop, ?_⟩
      have htrue : top.kind.isStatement = true := isStatement_iff.mpr htop
      by_cases hkind : kind = .proof
      · subst hkind
        exact .inr ⟨rfl, by simp [makeRoom, htop, StructureKind.isStatement]⟩
      · exact .inl ⟨hkind, by simp [makeRoom, htrue, isStatement_iff.mpr hkind]⟩

theorem length_makeRoom_le : (makeRoom kind frames).length ≤ frames.length := by
  rcases makeRoom_cases kind frames with ⟨h, -⟩ | ⟨top, below, rfl, -, ⟨-, h⟩ | ⟨-, h⟩⟩ <;>
    simp [h]

theorem proof_opened_makeRoom (h : Shaped frames) :
    ∀ f ∈ makeRoom kind frames, f.kind = .proof → f.state = .opened := by
  intro f hf hproof
  rcases makeRoom_cases kind frames with ⟨heq, -⟩ | ⟨top, below, rfl, htop, ⟨-, heq⟩ | ⟨-, heq⟩⟩
  · exact h.proof_opened f (heq ▸ hf) hproof
  · rw [heq] at hf
    exact h.proof_opened f (List.mem_cons_of_mem top hf) hproof
  · rw [heq] at hf
    rcases List.mem_cons.mp hf with rfl | hf
    · exact absurd hproof htop
    · exact h.proof_opened f (List.mem_cons_of_mem top hf) hproof

/-- The new frame may lie on what is there then. -/
theorem covered_opening (h : Shaped frames) :
    ((⟨kind, index, .opened⟩ : Frame) :: makeRoom kind frames).IsChain MayCover := by
  rcases makeRoom_cases kind frames with ⟨heq, hproof⟩ | ⟨top, below, rfl, htop, hroom⟩
  · -- A proof is on top, or nothing.
    rw [heq]
    refine List.isChain_cons.mpr ⟨fun f hf hstatement => ?_, h.covered⟩
    exact absurd (hproof f hf) (isStatement_iff.mp hstatement)
  · obtain ⟨hunder, hchain⟩ := List.isChain_cons.mp h.covered
    rcases hroom with ⟨-, heq⟩ | ⟨rfl, heq⟩
    · -- A statement goes. No other statement lay right below it, for it was no proof.
      rw [heq]
      refine List.isChain_cons.mpr ⟨fun f hf hstatement => ?_, hchain⟩
      exact absurd (proof_under_statement h.covered htop f hf) (isStatement_iff.mp hstatement)
    · -- A statement is finished. What lies below it does not depend on its state.
      rw [heq]
      exact List.isChain_cons_cons.mpr ⟨fun _ => ⟨rfl, rfl⟩, List.isChain_cons.mpr ⟨hunder, hchain⟩⟩

theorem shaped_openStructure (h : Shaped m.frames) :
    Shaped (m.openStructure kind index).2.frames := by
  have htop : ∀ top ∈ ((⟨kind, index, .opened⟩ : Frame) :: makeRoom kind m.frames).head?,
      top.state = .opened := by simp
  have hproof : ∀ f ∈ (⟨kind, index, .opened⟩ : Frame) :: makeRoom kind m.frames,
      f.kind = .proof → f.state = .opened :=
    List.forall_mem_cons.mpr ⟨fun _ => rfl, proof_opened_makeRoom h⟩
  have hcovered : ((⟨kind, index, .opened⟩ : Frame) :: makeRoom kind m.frames).IsChain MayCover :=
    covered_opening h
  simp only [openStructure]
  split
  · refine Shaped.dropLast ?_ htop hproof hcovered
    exact Nat.succ_le_succ (length_makeRoom_le.trans h.length_le)
  · next hroom => exact ⟨Nat.le_of_not_lt hroom, htop, hproof, hcovered⟩

/-! ## Closing -/

/-- Only a statement right below a proof is finished. -/
theorem Shaped.closed_iff (h : Shaped (top :: below)) :
    ∀ f ∈ below.head?, f.state = .closed ↔ f.kind ≠ .proof := by
  intro f hf
  have hmem : f ∈ below := List.mem_of_mem_head? hf
  constructor
  · intro hclosed hproof
    have hopened := h.proof_opened f (List.mem_cons_of_mem top hmem) hproof
    rw [hclosed] at hopened
    cases hopened
  · intro hne
    exact ((List.isChain_cons.mp h.covered).1 f hf (isStatement_iff.mpr hne)).2

/-- **What a closing takes off a shaped stack**: the top, and a statement right below it, over which
the top is a proof. On top of the rest is a proof. -/
theorem frames_of_closeStructure (h : Shaped m.frames) (hclose : m.closeStructure kind = .ok m') :
    (∀ f ∈ m'.frames.head?, f.kind = .proof) ∧ ∃ top, top.kind = kind ∧
      (m.frames = top :: m'.frames ∨
        kind = .proof ∧ ∃ s, s.kind ≠ .proof ∧ m.frames = top :: s :: m'.frames) := by
  unfold closeStructure at hclose
  split at hclose
  case h_2 => cases hclose
  next top below hframes =>
  split at hclose
  case isFalse => cases hclose
  next hkind =>
  obtain rfl := Except.ok.inj hclose
  rw [hframes] at h ⊢
  have hclosed := h.closed_iff
  cases below with
  | nil => exact ⟨by simp, top, hkind, .inl rfl⟩
  | cons first rest =>
    have hfirst := hclosed first rfl
    by_cases hproof : first.kind = .proof
    · have hopened : ¬first.state = .closed := fun hc => hfirst.mp hc hproof
      simp only [List.dropWhile_cons, hopened, decide_false, Bool.false_eq_true, ↓reduceIte]
      exact ⟨by simp [hproof], top, hkind, .inl rfl⟩
    · -- The statement goes, and what lies right below it is a proof and therefore open.
      obtain ⟨hover, hcovered⟩ := List.isChain_cons_cons.mp h.covered
      have htop : top.kind = .proof := (hover (isStatement_iff.mpr hproof)).1
      have hunder := proof_under_statement hcovered hproof
      have hrest : rest.dropWhile (fun f => decide (f.state = .closed)) = rest := by
        cases rest with
        | nil => rfl
        | cons second rest =>
          have hopened := h.proof_opened second (by simp) (hunder second rfl)
          simp [hopened]
      simp only [List.dropWhile_cons, hfirst.mpr hproof, decide_true, ↓reduceIte, hrest]
      exact ⟨hunder, top, hkind, .inr ⟨hkind ▸ htop, first, hproof, rfl⟩⟩

/-- The rest of a shaped stack is shaped if nothing but a proof is on top of it. -/
theorem Shaped.suffix (h : Shaped frames) (hsuffix : below <:+ frames)
    (hproof : ∀ f ∈ below.head?, f.kind = .proof) : Shaped below where
  length_le := hsuffix.length_le.trans h.length_le
  top_opened f hf :=
    h.proof_opened f (hsuffix.subset (List.mem_of_mem_head? hf)) (hproof f hf)
  proof_opened f hf := h.proof_opened f (hsuffix.subset hf)
  covered := h.covered.suffix hsuffix

theorem shaped_closeStructure (h : Shaped m.frames) (hclose : m.closeStructure kind = .ok m') :
    Shaped m'.frames := by
  obtain ⟨hproof, top, -, hframes | ⟨-, s, -, hframes⟩⟩ := frames_of_closeStructure h hclose
  · exact h.suffix (hframes ▸ List.suffix_cons top _) hproof
  · exact h.suffix (hframes ▸ List.suffix_append [top, s] _) hproof

/-! ## Every operation, and every run -/

theorem frames_reference (symbol : String) : (m.reference symbol).frames = m.frames := by
  unfold reference
  split <;> rfl

theorem shaped_apply (h : Shaped m.frames) (e : Effect) : Shaped (m.apply index e).2.frames := by
  cases e with
  | define symbol meaning => exact h
  | reference symbol => exact (frames_reference symbol).symm ▸ h
  | opening kind => exact shaped_openStructure h
  | closing kind =>
    cases hclose : m.closeStructure kind with
    | ok m' => simpa only [apply, hclose] using shaped_closeStructure h hclose
    | error e => simpa only [apply, hclose] using h
  | topic domain => exact h

theorem shaped_applyAll (h : Shaped m.frames) (es : List Effect) :
    Shaped (applyAll index es m).2.frames := by
  induction es generalizing m with
  | nil => exact h
  | cons e es ih => exact ih (shaped_apply h e)

/-- **No operation breaks the shape.** -/
theorem shaped_perform (h : Shaped m.frames) (op : Operation) : Shaped (m.perform op).frames := by
  cases op with
  | define symbol meaning index => exact h
  | reference symbol => exact (frames_reference symbol).symm ▸ h
  | opening kind index => exact shaped_openStructure h
  | closing kind =>
    cases hclose : m.closeStructure kind with
    | ok m' => simpa only [perform, hclose] using shaped_closeStructure h hclose
    | error e => simpa only [perform, hclose] using h
  | topic domain => exact h
  | commit effects => exact shaped_applyAll h effects
  | reset => exact shaped_nil

theorem Shaped.performAll (h : Shaped m.frames) (ops : List Operation) :
    Shaped (m.performAll ops).frames := by
  induction ops generalizing m with
  | nil => exact h
  | cons op ops ih => exact ih (shaped_perform h op)

/-- **The shape of every stack.** Whatever is done to a new memory, at most 64 structures are open,
no two neighbours are both statements, every proof and the top are open, and a statement below the
top is finished and lies right below a proof. So closing a proof takes off the proof on top, and a
statement right below it, and nothing else; and closing a statement takes off one frame. -/
theorem shaped_performAll (ops : List Operation) :
    let m : Memory := performAll {} ops
    m.frames.length ≤ 64 ∧
      m.frames.IsChain (fun upper lower => ¬(upper.kind.isStatement ∧ lower.kind.isStatement)) ∧
      (∀ f ∈ m.frames, f.kind = .proof → f.state = .opened) ∧
      (∀ top ∈ m.frames.head?, top.state = .opened) ∧
      m.frames.IsChain (fun upper lower =>
        lower.kind.isStatement → lower.state = .closed ∧ upper.kind = .proof) ∧
      (∀ m', m.closeStructure .proof = .ok m' → ∃ top, top.kind = .proof ∧
        (m.frames = top :: m'.frames ∧ (∀ f ∈ m'.frames.head?, ¬f.kind.isStatement) ∨
          ∃ s, s.kind.isStatement ∧ m.frames = top :: s :: m'.frames)) ∧
      ∀ kind m', kind.isStatement → m.closeStructure kind = .ok m' →
        ∃ top, top.kind = kind ∧ m.frames = top :: m'.frames := by
  intro m
  have h : Shaped m.frames := shaped_nil.performAll ops
  refine ⟨h.length_le, h.covered.imp ?_, h.proof_opened, h.top_opened, h.covered.imp ?_, ?_, ?_⟩
  · intro upper lower hcover ⟨hupper, hlower⟩
    exact isStatement_iff.mp hupper (hcover hlower).1
  · intro upper lower hcover hlower
    exact (hcover hlower).symm
  · intro m' hclose
    obtain ⟨hproof, top, hkind, hframes | ⟨-, s, hs, hframes⟩⟩ := frames_of_closeStructure h hclose
    · exact ⟨top, hkind, .inl ⟨hframes, fun f hf hs => isStatement_iff.mp hs (hproof f hf)⟩⟩
    · exact ⟨top, hkind, .inr ⟨s, isStatement_iff.mpr hs, hframes⟩⟩
  · intro kind m' hstatement hclose
    obtain ⟨-, top, hkind, hframes | ⟨rfl, -⟩⟩ := frames_of_closeStructure h hclose
    · exact ⟨top, hkind, hframes⟩
    · cases hstatement

end SpokenMath.Memory
