import SpokenMath.Memory.Fingerprint
import SpokenMath.Proofs.Encoding

/-!
# The view of a memory

What of a memory can change the reading of an expression is its **view**: the symbols with their
meanings, the kinds and the states of the frames, and the topic. Numbers of expressions and counts
of uses are not in it.

**Theorem (`fingerprintBytes_eq_iff`).** The same bytes are hashed of two memories exactly if they
have the same view.

Most of this is reading back fields up to the mark of the next section. The one danger is a symbol
whose name is so long that its length begins like the mark in front of the frames. The rest of the
other memory would then have to hold the first byte of a mark once more than it does, for the fields
of frames and topics are free of it.
-/

namespace SpokenMath

/-! ## Names -/

namespace Domain

theorem ofCanonical?_name (d : Domain) : ofCanonical? d.name = some d := by
  cases d <;> rfl

theorem name_injective : Function.Injective name := fun a b h =>
  Option.some.inj (by rw [← ofCanonical?_name a, h, ofCanonical?_name b])

/-- A domain or none is known by its name, where none is written as the empty name. -/
theorem getD_name_injective :
    Function.Injective fun d : Option Domain => (d.map name).getD "" := by
  intro a b h
  cases a with
  | none =>
    cases b with
    | none => rfl
    | some b => cases b <;> exact absurd h (by decide)
  | some a =>
    cases b with
    | none => cases a <;> exact absurd h (by decide)
    | some b => exact congrArg some (name_injective h)

end Domain

namespace StructureKind

theorem name_injective : Function.Injective name := by
  intro a b h
  cases a <;> cases b <;> first | rfl | exact absurd h (by decide)

/-- The field of a kind is free of the byte that begins a mark. -/
theorem count_field_name (k : StructureKind) :
    (lengthPrefixed (nameBytes k.name)).count 0xff = 0 := by
  cases k <;> decide

end StructureKind

namespace FrameState

theorem name_injective : Function.Injective name := by
  intro a b h
  cases a <;> cases b <;> first | rfl | exact absurd h (by decide)

/-- The field of a state is free of the byte that begins a mark. -/
theorem count_field_name (s : FrameState) :
    (lengthPrefixed (nameBytes s.name)).count 0xff = 0 := by
  cases s <;> decide

end FrameState

namespace Memory

/-! ## The view -/

/-- What of a memory can change the reading of an expression. -/
structure View where
  meanings : List (String × String)
  /-- The kinds and the states of the frames, the innermost one first. -/
  stack : List (StructureKind × FrameState)
  topic : Option Domain
  deriving DecidableEq, Repr

/-- The view of a memory. -/
def view (m : Memory) : View where
  meanings := m.symbols.map fun (s, e) => (s, e.meaning)
  stack := m.frames.map fun f => (f.kind, f.state)
  topic := m.topic

theorem lookup_map_snd {α β γ : Type} [BEq α] (f : β → γ) (a : α) (l : List (α × β)) :
    (l.map fun p => (p.1, f p.2)).lookup a = (l.lookup a).map f := by
  induction l with
  | nil => rfl
  | cons p l ih =>
    obtain ⟨k, v⟩ := p
    simp only [List.map_cons, List.lookup_cons]
    cases a == k
    · exact ih
    · rfl

theorem isDefined_eq (m : Memory) (s : String) :
    m.isDefined s = (m.view.meanings.lookup s).isSome := by
  rw [isDefined, lookup?, view, lookup_map_snd]
  exact Option.isSome_map.symm

theorem current?_kind_eq (m : Memory) :
    m.current?.map (·.kind) = m.view.stack.head?.map Prod.fst := by
  rw [current?, view, List.head?_map, Option.map_map]
  rfl

theorem open_frame_eq (m : Memory) :
    (m.frames.find? fun f => f.state == .opened).map (·.kind) =
      (m.view.stack.find? fun f => f.2 == .opened).map Prod.fst := by
  rw [view, List.find?_map, Option.map_map]
  rfl

/-! ## What is hashed of it -/

/-- The fields of a row of pairs. -/
def pairFields {α β : Type} (f : α → List UInt8) (g : β → List UInt8) (l : List (α × β)) :
    List (List UInt8) :=
  l.flatMap fun p => [f p.1, g p.2]

theorem pairFields_inj {α β : Type} {f : α → List UInt8} {g : β → List UInt8}
    (hf : Function.Injective f) (hg : Function.Injective g) {l k : List (α × β)}
    (h : pairFields f g l = pairFields f g k) : l = k := by
  induction l generalizing k with
  | nil =>
    cases k with
    | nil => rfl
    | cons p k => cases h
  | cons p l ih =>
    cases k with
    | nil => cases h
    | cons q k =>
      simp only [pairFields, List.flatMap_cons, List.cons_append, List.nil_append,
        List.cons.injEq] at h
      obtain ⟨h₁, h₂, hrest⟩ := h
      rw [Prod.ext (hf h₁) (hg h₂), ih hrest]

/-- The fields of the symbols. -/
def View.symbolFields (v : View) : List (List UInt8) := pairFields nameBytes nameBytes v.meanings

/-- The fields of the frames, the outermost one first. -/
def View.frameFields (v : View) : List (List UInt8) :=
  pairFields (fun k => nameBytes (StructureKind.name k)) (fun s => nameBytes (FrameState.name s))
    v.stack.reverse

/-- The field of the topic. -/
def View.topicField (v : View) : List UInt8 := field ((v.topic.map Domain.name).getD "")

/-- What stands behind the mark of the frames. -/
def View.frameBytes (v : View) : List UInt8 :=
  v.frameFields.flatMap lengthPrefixed ++ 0xff :: 0x74 :: v.topicField

theorem fingerprintBytes_eq (m : Memory) :
    m.fingerprintBytes = 0xff :: 0x73 ::
      (m.view.symbolFields.flatMap lengthPrefixed ++ 0xff :: 0x66 :: m.view.frameBytes) := by
  have hs : m.symbols.flatMap (fun (s, e) => field s ++ field e.meaning) =
      m.view.symbolFields.flatMap lengthPrefixed := by
    simp only [View.symbolFields, pairFields, view, List.flatMap_map, List.flatMap_assoc]
    simp [field]
  have hf : m.frames.reverse.flatMap (fun f => field f.kind.name ++ field f.state.name) =
      m.view.frameFields.flatMap lengthPrefixed := by
    simp only [View.frameFields, pairFields, view, ← List.map_reverse, List.flatMap_map,
      List.flatMap_assoc]
    simp [field]
  rw [fingerprintBytes, hs, hf]
  simp only [mark, View.frameBytes, View.topicField, view, List.append_assoc, List.cons_append,
    List.nil_append]
  rfl

theorem length_topicField_lt (v : View) : v.topicField.length < 27 := by
  unfold View.topicField field
  cases v.topic with
  | none => decide
  | some d => cases d <;> decide

theorem count_topicField (v : View) : v.topicField.count 0xff = 0 := by
  unfold View.topicField field
  cases v.topic with
  | none => decide
  | some d => cases d <;> decide

theorem count_frameFields (v : View) : (v.frameFields.flatMap lengthPrefixed).count 0xff = 0 := by
  rw [View.frameFields]
  generalize v.stack.reverse = l
  induction l with
  | nil => rfl
  | cons p l ih =>
    simp only [pairFields, List.flatMap_cons, List.cons_append, List.nil_append,
      List.count_append] at ih ⊢
    rw [StructureKind.count_field_name, FrameState.count_field_name, ih]

/-- Behind the mark of the frames, the byte that begins a mark stands once. -/
theorem count_frameBytes (v : View) : v.frameBytes.count 0xff = 1 := by
  simp [View.frameBytes, count_frameFields, count_topicField]

/-- The fields of a row are not longer than the row. -/
theorem length_le_of_mem_fields {b : List UInt8} {bs : List (List UInt8)} (h : b ∈ bs) :
    b.length ≤ (bs.flatMap lengthPrefixed).length := by
  obtain ⟨front, back, rfl⟩ := List.append_of_mem h
  simp only [List.flatMap_append, List.flatMap_cons, List.length_append, length_lengthPrefixed]
  omega

/-! ## Lengths -/

/-- The lengths of all names and meanings are words of 64 bits, in which they are written. -/
def Writable (m : Memory) : Prop :=
  ∀ p ∈ m.symbols, (nameBytes p.1).length < UInt64.size ∧
    (nameBytes p.2.meaning).length < UInt64.size

theorem Writable.length_lt {m : Memory} (h : m.Writable) {b : List UInt8}
    (hb : b ∈ m.view.symbolFields) : b.length < UInt64.size := by
  simp only [View.symbolFields, pairFields, view, List.mem_flatMap, List.mem_map, List.mem_cons,
    List.not_mem_nil, or_false] at hb
  obtain ⟨_, ⟨p, hp, rfl⟩, rfl | rfl⟩ := hb
  · exact (h p hp).1
  · exact (h p hp).2

/-- No name is longer than everything that is hashed. -/
theorem writable_of_length_lt {m : Memory} (h : m.fingerprintBytes.length < UInt64.size) :
    m.Writable := by
  have hfield {b : List UInt8} (hb : b ∈ m.view.symbolFields) : b.length < UInt64.size := by
    have hle := length_le_of_mem_fields hb
    rw [fingerprintBytes_eq] at h
    simp only [List.length_cons, List.length_append] at h
    omega
  have hfields (p) (hp : p ∈ m.symbols) :
      [nameBytes p.1, nameBytes p.2.meaning] ⊆ m.view.symbolFields := fun _ hb =>
    List.mem_flatMap.mpr ⟨(p.1, p.2.meaning), List.mem_map.mpr ⟨p, hp, rfl⟩, hb⟩
  intro p hp
  exact ⟨hfield (hfields p hp (by simp)), hfield (hfields p hp (by simp))⟩

/-- The names of kinds and states are short. -/
theorem length_lt_of_mem_frameFields {v : View} {b : List UInt8} (h : b ∈ v.frameFields) :
    b.length < UInt64.size := by
  obtain ⟨⟨k, s⟩, -, hb⟩ := List.mem_flatMap.mp h
  simp only [List.mem_cons, List.not_mem_nil, or_false] at hb
  rcases hb with rfl | rfl
  · cases k <;> decide
  · cases s <;> decide

/-! ## Reading it back -/

theorem stack_eq_of_frameFields {v w : View} (h : v.frameFields = w.frameFields) :
    v.stack = w.stack :=
  List.reverse_inj.mp (pairFields_inj
    (nameBytes_injective.comp StructureKind.name_injective)
    (nameBytes_injective.comp FrameState.name_injective) h)

theorem topic_eq_of_topicField {v w : View} (h : v.topicField = w.topicField) :
    v.topic = w.topic := by
  have hv := length_topicField_lt v
  have hw := length_topicField_lt w
  simp only [View.topicField, field, length_lengthPrefixed] at hv hw h
  have hfield := lengthPrefixed_append_inj (Nat.lt_trans (by omega) (by decide : 27 < UInt64.size))
    (Nat.lt_trans (by omega) (by decide : 27 < UInt64.size)) (congrArg (· ++ []) h)
  exact Domain.getD_name_injective (nameBytes_injective hfield.1)

/-- **The bytes that are hashed of a memory determine its view**, however many frames there are. -/
theorem view_eq_of_writable {m m' : Memory} (hm : m.Writable) (hm' : m'.Writable)
    (h : m.fingerprintBytes = m'.fingerprintBytes) : m.view = m'.view := by
  rw [fingerprintBytes_eq, fingerprintBytes_eq m'] at h
  -- The symbols end where the frames begin.
  obtain ⟨hsym, hframes⟩ := fields_mark_inj 0x66 (by rw [count_frameBytes, count_frameBytes])
    (fun _ => hm.length_lt) (fun _ => hm'.length_lt) (List.cons.inj (List.cons.inj h).2).2
  -- The frames end where the topic begins.
  obtain ⟨hstack, htopic⟩ := fields_mark_inj 0x74 (by rw [count_topicField, count_topicField])
    (fun _ => length_lt_of_mem_frameFields) (fun _ => length_lt_of_mem_frameFields) hframes
  have hmeanings := pairFields_inj nameBytes_injective nameBytes_injective hsym
  have hkinds := stack_eq_of_frameFields hstack
  have hdomain := topic_eq_of_topicField htopic
  cases hv : m.view
  cases hv' : m'.view
  simp_all

/-- A short message determines the view. -/
theorem view_eq_of_fingerprintBytes {m m' : Memory}
    (hsize : m.fingerprintBytes.length < UInt64.size)
    (h : m.fingerprintBytes = m'.fingerprintBytes) : m.view = m'.view :=
  view_eq_of_writable (writable_of_length_lt hsize) (writable_of_length_lt (h ▸ hsize)) h

/-- **What is hashed of a memory is an unambiguous encoding of its symbols with their meanings, of
the kinds and the states of its frames, and of its topic.** There may be any number of frames, and
any names and meanings whose lengths can be written. -/
theorem fingerprintBytes_eq_iff {m m' : Memory} (hm : m.Writable) (hm' : m'.Writable) :
    m.fingerprintBytes = m'.fingerprintBytes ↔
      m.symbols.map (fun p => (p.1, p.2.meaning)) = m'.symbols.map (fun p => (p.1, p.2.meaning)) ∧
        m.frames.map (fun f => (f.kind, f.state)) = m'.frames.map (fun f => (f.kind, f.state)) ∧
          m.topic = m'.topic := by
  constructor
  · intro h
    have hview := view_eq_of_writable hm hm' h
    exact ⟨congrArg View.meanings hview, congrArg View.stack hview, congrArg View.topic hview⟩
  · rintro ⟨hmeanings, hstack, htopic⟩
    have hview : m.view = m'.view := by
      simp only [view, View.mk.injEq]
      exact ⟨hmeanings, hstack, htopic⟩
    rw [fingerprintBytes_eq, fingerprintBytes_eq, hview]

theorem length_nameBytes_replicate (n : Nat) :
    (nameBytes (String.ofList (List.replicate n 'a'))).length = n := by
  rw [nameBytes_eq, String.toList_ofList, List.length_flatMap, List.map_replicate,
    List.sum_replicate_nat]
  exact Nat.mul_one n

/-- A name whose length is written like the mark in front of the frames. -/
def longName : String := String.ofList (List.replicate 26367 'a')

theorem length_longName : (nameBytes longName).length = 26367 := length_nameBytes_replicate _

theorem fingerprintBytes_eq_iff_longName :
    let m : Memory := { symbols := [(longName, ⟨"5", 0, 2⟩)], frames := [⟨.proof, 1, .opened⟩] }
    let later : Memory :=
      { symbols := [(longName, ⟨"5", 4, 7⟩)], frames := [⟨.proof, 3, .opened⟩], expressions := 9 }
    let other : Memory := { frames := [⟨.proof, 1, .opened⟩] }
    (field longName).take 2 = mark 'f' ∧ m.Writable ∧ later.Writable ∧ other.Writable ∧
      m.fingerprintBytes = later.fingerprintBytes ∧
        m.fingerprintBytes ≠ other.fingerprintBytes := by
  intro m later other
  have hlong : (nameBytes longName).length < UInt64.size := by
    rw [length_longName]
    decide
  have hshort : (nameBytes "5").length < UInt64.size := by decide
  have hm : m.Writable := by simpa [m, Writable] using ⟨hlong, hshort⟩
  have hlater : later.Writable := by simpa [later, Writable] using ⟨hlong, hshort⟩
  have hother : other.Writable := by simp [other, Writable]
  refine ⟨?_, hm, hlater, hother, (fingerprintBytes_eq_iff hm hlater).mpr ?_, fun h => ?_⟩
  · rw [field, lengthPrefixed, length_longName]
    rfl
  · simp [m, later]
  · simpa [m, other] using ((fingerprintBytes_eq_iff hm hother).mp h).1

end Memory

end SpokenMath
