import Mathlib.Tactic.SplitIfs
import SpokenMath.Memory.Basic

/-!
# What becomes of a symbol

No effect takes a meaning away, and nothing but a reference to a symbol counts as a use of it. So
the effects of a call leave a known symbol known, and count as many uses of it as there are
references among them (`refCount?_commit`).
-/

namespace SpokenMath.Memory

variable {m : Memory} {s t meaning : String} {entry : SymbolEntry} {index n : Nat} {e : Effect}
  {es : List Effect}

/-! ## Recording -/

theorem lookup_record_self (s : String) (entry : SymbolEntry)
    (symbols : List (String × SymbolEntry)) : (record s entry symbols).lookup s = some entry := by
  induction symbols with
  | nil => simp [record]
  | cons p symbols ih =>
    obtain ⟨t, e⟩ := p
    unfold record
    split_ifs with heq
    · simp
    · simp
    · have hne : (s == t) = false := beq_eq_false_iff_ne.mpr heq
      rw [List.lookup_cons, hne]
      exact ih

theorem lookup_record_of_ne (hne : t ≠ s) (entry : SymbolEntry)
    (symbols : List (String × SymbolEntry)) :
    (record s entry symbols).lookup t = symbols.lookup t := by
  have hbeq : (t == s) = false := beq_eq_false_iff_ne.mpr hne
  induction symbols with
  | nil => rw [record, List.lookup_cons, hbeq]
  | cons p symbols ih =>
    obtain ⟨u, e⟩ := p
    unfold record
    split_ifs with heq
    · subst heq
      simp [List.lookup_cons, hbeq]
    · rw [List.lookup_cons, hbeq]
    · rw [List.lookup_cons, List.lookup_cons, ih]

/-! ## One effect -/

/-- How often a symbol was used, if it has a meaning. -/
def refCount? (m : Memory) (s : String) : Option Nat := (m.lookup? s).map SymbolEntry.refCount

theorem isDefined_iff : m.isDefined s = true ↔ ∃ n, m.refCount? s = some n := by
  rw [isDefined, ← Option.isSome_iff_exists, refCount?, Option.isSome_map]

/-- A new meaning is known, and the count of uses goes on. -/
theorem refCount?_define_self (m : Memory) (s meaning : String) (index : Nat) :
    (m.define s meaning index).2.refCount? s = some ((m.refCount? s).getD 0) := by
  simp only [refCount?, lookup?, define, lookup_record_self]
  cases m.symbols.lookup s <;> rfl

theorem refCount?_define_of_ne (hne : s ≠ t) (m : Memory) (meaning : String) (index : Nat) :
    (m.define t meaning index).2.refCount? s = m.refCount? s := by
  simp only [refCount?, lookup?, define, lookup_record_of_ne hne]

theorem refCount?_reference_self (h : m.refCount? s = some n) :
    (m.reference s).refCount? s = some (n + 1) := by
  obtain ⟨entry, hentry, rfl⟩ := Option.map_eq_some_iff.mp h
  rw [lookup?] at hentry
  simp only [refCount?, reference, lookup?, hentry, lookup_record_self, Option.map_some]

theorem refCount?_reference_of_ne (hne : s ≠ t) (m : Memory) :
    (m.reference t).refCount? s = m.refCount? s := by
  unfold reference
  split
  · simp only [refCount?, lookup?, lookup_record_of_ne hne]
  · rfl

theorem refCount?_of_symbols {m m' : Memory} (h : m.symbols = m'.symbols) :
    m.refCount? s = m'.refCount? s := by
  rw [refCount?, refCount?, lookup?, lookup?, h]

theorem symbols_openStructure (m : Memory) (kind : StructureKind) (index : Nat) :
    (m.openStructure kind index).2.symbols = m.symbols := by
  unfold openStructure
  dsimp only
  split <;> rfl

theorem symbols_closeStructure {m m' : Memory} {kind : StructureKind}
    (h : m.closeStructure kind = .ok m') : m'.symbols = m.symbols := by
  unfold closeStructure at h
  split at h
  · split at h
    · cases h
      rfl
    · cases h
  · cases h

/-- Structures and topics are no symbols. -/
theorem symbols_apply (hdefine : ∀ t meaning, e ≠ .define t meaning)
    (hreference : ∀ t, e ≠ .reference t) : (m.apply index e).2.symbols = m.symbols := by
  cases e with
  | define t meaning => exact absurd rfl (hdefine t meaning)
  | reference t => exact absurd rfl (hreference t)
  | opening kind => exact symbols_openStructure m kind index
  | closing kind =>
    cases hclose : m.closeStructure kind with
    | ok m' => simpa only [apply, hclose] using symbols_closeStructure hclose
    | error error => simp only [apply, hclose]
  | topic domain => rfl

/-- One effect leaves a known symbol known, and counts a use of it if it is a reference to it. -/
theorem refCount?_apply (h : m.refCount? s = some n) (index : Nat) (e : Effect) :
    (m.apply index e).2.refCount? s = some (n + if e = .reference s then 1 else 0) := by
  by_cases hdefine : ∃ t meaning, e = .define t meaning
  · obtain ⟨t, meaning, rfl⟩ := hdefine
    have hcount : (m.define t meaning index).2.refCount? s = some n := by
      by_cases hne : s = t
      · subst hne
        rw [refCount?_define_self, h, Option.getD_some]
      · rw [refCount?_define_of_ne hne, h]
    simpa [apply] using hcount
  by_cases hreference : ∃ t, e = .reference t
  · obtain ⟨t, rfl⟩ := hreference
    by_cases hne : s = t
    · subst hne
      simpa [apply] using refCount?_reference_self h
    · simpa [Ne.symm hne, apply] using (refCount?_reference_of_ne hne m).trans h
  · have hsymbols : (m.apply index e).2.symbols = m.symbols :=
      symbols_apply (fun t meaning heq => hdefine ⟨t, meaning, heq⟩)
        (fun t heq => hreference ⟨t, heq⟩)
    rw [refCount?_of_symbols hsymbols, h, if_neg fun heq => hreference ⟨s, heq⟩, Nat.add_zero]

/-! ## The effects of a call -/

/-- Effects leave a known symbol known, and count as many uses of it as they refer to it. -/
theorem refCount?_applyAll (h : m.refCount? s = some n) (es : List Effect) :
    (applyAll index es m).2.refCount? s = some (n + es.count (.reference s)) := by
  induction es generalizing m n with
  | nil => exact h
  | cons e es ih =>
    have hstep := ih (refCount?_apply h index e)
    rw [List.count_cons, Nat.add_comm (es.count _), ← Nat.add_assoc]
    simpa only [beq_iff_eq, applyAll] using hstep

theorem refCount?_commit (h : m.refCount? s = some n) (es : List Effect) :
    (m.commit es).2.refCount? s = some (n + es.count (.reference s)) :=
  refCount?_applyAll h es

theorem isDefined_commit (h : m.isDefined s = true) (es : List Effect) :
    (m.commit es).2.isDefined s = true := by
  obtain ⟨n, hn⟩ := isDefined_iff.mp h
  exact isDefined_iff.mpr ⟨_, refCount?_commit hn es⟩

theorem isDefined_applyAll_of_define (h : .define s meaning ∈ es) :
    (applyAll index es m).2.isDefined s = true := by
  induction es generalizing m with
  | nil => cases h
  | cons e es ih =>
    rcases List.mem_cons.mp h with rfl | h
    · exact isDefined_iff.mpr
        ⟨_, refCount?_applyAll (refCount?_define_self m s meaning index) es⟩
    · exact ih h

/-- What a call defines is known behind it. -/
theorem isDefined_commit_of_define (m : Memory) (h : .define s meaning ∈ es) :
    (m.commit es).2.isDefined s = true :=
  isDefined_applyAll_of_define h

/-! ## Notices -/

theorem undefinedSymbol_ne_apply (m : Memory) (index : Nat) (e : Effect) (s : String) :
    .undefinedSymbol s ∉ (m.apply index e).1 := by
  cases e with
  | define t meaning =>
    simp only [apply, define]
    cases m.lookup? t with
    | none => simp
    | some entry =>
      dsimp only
      split <;> simp
  | reference t => simp [apply]
  | opening kind =>
    simp only [apply, openStructure]
    split <;> simp
  | closing kind =>
    simp only [apply]
    split
    · simp
    · simp [MismatchedClose.notice]
  | topic domain => simp [apply]

/-- No commit finds a symbol undefined. -/
theorem undefinedSymbol_not_mem_commit (m : Memory) (es : List Effect) (s : String) :
    .undefinedSymbol s ∉ (m.commit es).1 := by
  suffices h : ∀ m : Memory, ∀ index, .undefinedSymbol s ∉ (applyAll index es m).1 from h m _
  induction es with
  | nil => simp [applyAll]
  | cons e es ih =>
    intro m index hmem
    rcases List.mem_append.mp hmem with hmem | hmem
    · exact undefinedSymbol_ne_apply m index e s (Option.mem_toList.mp hmem)
    · exact ih _ index hmem

end SpokenMath.Memory
