import Mathlib.Data.List.Nodup
import SpokenMath.Memory.Analysis
import SpokenMath.Proofs.Lists
import SpokenMath.Proofs.Markup.Order
import SpokenMath.Proofs.Text.Pieces

/-!
# What an expression refers to

A letter **stands alone** in a tree if it stands between two characters that are no letters in
literal text, at the ends of the text at most, and no command on the way to that text is opaque
(`StandsAlone`).

**Theorem (`count_reference_analyze`).** A known letter that stands alone in an expression, and is
neither bound nor defined there, is referred to once, however often it stands there.
-/

namespace SpokenMath

/-! ## Letters that stand alone -/

/-- A character stands in a text without a letter beside it. -/
def Text.Alone (c : Char) (t : Text) : Prop :=
  ∃ front back, t = front ++ c :: back ∧ (∀ a ∈ front.getLast?, a.isAlpha = false) ∧
    ∀ a ∈ back.head?, a.isAlpha = false

/-- The arguments of the command are not read for symbols. -/
def Node.isOpaque : Node → Bool
  | command name _ _ => Analysis.isOpaque name
  | _ => false

/-- A character stands alone in literal text of a tree, outside of opaque commands. -/
inductive Node.StandsAlone (c : Char) : Node → Prop
  | leaf {t : Text} (h : t.Alone c) : StandsAlone c (leaf t)
  | inside {n child : Node} (hclear : n.isOpaque = false) (hchild : child ∈ n.children)
    (h : StandsAlone c child) : StandsAlone c n

namespace Text

variable {p : Char → Bool} {c : Char} {t : Text}

/-- A character between gaps is a word. -/
theorem singleton_mem_split {front back : Text} (hc : p c = false)
    (hfront : ∀ a ∈ front.getLast?, p a = true) (hback : ∀ a ∈ back.head?, p a = true) :
    [c] ∈ split p (front ++ c :: back) := by
  have hword : [c] ∈ split p (c :: back) := by
    cases back with
    | nil =>
      rw [split_cons_of_word hc rfl]
      exact List.mem_cons_self
    | cons a back =>
      have hsplit := split_append_cons (hback a rfl) [c] back
      rw [split_cons_of_word hc rfl] at hsplit
      rw [show c :: a :: back = [c] ++ a :: back from rfl, hsplit]
      exact List.mem_cons_self
  rcases List.eq_nil_or_concat front with rfl | ⟨front, a, rfl⟩
  · exact hword
  · rw [List.concat_eq_append, List.append_assoc, List.singleton_append,
      split_append_cons (hfront a (by simp))]
    exact List.mem_append_right _ hword

end Text

namespace Analysis

variable {c : Char} {tree : Node} {s : String}

theorem mem_lettersOf {t : Text} (h : t.Alone c) (hletter : c.isAlpha = true) (he : c ≠ 'e')
    (hi : c ≠ 'i') : String.singleton c ∈ lettersOf t := by
  obtain ⟨front, back, rfl, hfront, hback⟩ := h
  refine List.mem_filterMap.mpr ⟨[c], Text.singleton_mem_split ?_ ?_ ?_, ?_⟩
  · simp [hletter]
  · intro a ha
    simp [hfront a ha]
  · intro a ha
    simp [hback a ha]
  · simp [he, hi]

/-- The letters of a node are those of its children, unless it is opaque. -/
theorem mem_letters_of_child {n child : Node} (hclear : n.isOpaque = false)
    (hchild : child ∈ n.children) (h : s ∈ letters child) : s ∈ letters n := by
  unfold letters at h ⊢
  dsimp only at h ⊢
  obtain ⟨m, hm, hs⟩ := List.mem_flatMap.mp h
  refine List.mem_flatMap.mpr ⟨m, ?_, hs⟩
  rw [Node.preorder_eq]
  refine List.mem_cons_of_mem n ?_
  rw [if_pos]
  · exact List.mem_flatMap.mpr ⟨child, hchild, hm⟩
  · cases n with
    | command name args optional => simpa [Node.isOpaque] using hclear
    | _ => rfl

/-- A letter that stands alone is found. -/
theorem mem_letters (h : tree.StandsAlone c) (hletter : c.isAlpha = true) (he : c ≠ 'e')
    (hi : c ≠ 'i') : String.singleton c ∈ letters tree := by
  induction h with
  | leaf h =>
    have hmem := mem_lettersOf h hletter he hi
    simpa [letters, Node.preorder_eq, Node.children] using hmem
  | inside hclear hchild _ ih => exact mem_letters_of_child hclear hchild ih

/-! ## Structures are no symbols -/

/-- All effects so far are on structures. -/
def Structures.Structural (s : Structures) : Prop :=
  ∀ e ∈ s.effects, ∃ kind, e = .opening kind ∨ e = .closing kind

theorem Structures.Structural.append {s : Structures} (h : s.Structural) {es : List Effect}
    (hes : ∀ e ∈ es, ∃ kind, e = .opening kind ∨ e = .closing kind) :
    ∀ e ∈ s.effects ++ es, ∃ kind, e = .opening kind ∨ e = .closing kind :=
  List.forall_mem_append.mpr ⟨h, hes⟩

theorem Structures.Structural.visit {s : Structures} (h : s.Structural) (notices : List Notice)
    (n : Node) : (s.visit notices n).Structural := by
  unfold Structures.visit
  split
  · split
    · exact h
    · next kind _ =>
      refine h.append (List.forall_mem_cons.mpr ⟨⟨kind, .inl rfl⟩, ?_⟩)
      split
      · exact List.forall_mem_singleton.mpr ⟨kind, .inr rfl⟩
      · simp
  · split
    · exact h
    · split
      · exact h.append (List.forall_mem_singleton.mpr ⟨_, .inr rfl⟩)
      · exact h
  · exact h

theorem Structures.Structural.visits {s : Structures} (h : s.Structural) (notices : List Notice)
    (ns : List Node) : (ns.foldl (Structures.visit notices) s).Structural := by
  induction ns generalizing s with
  | nil => exact h
  | cons n ns ih => exact ih (h.visit notices n)

theorem structural_structures (tree : Node) (text : Text) (notices : List Notice) (m : Memory) :
    (structures tree text notices m).Structural := by
  have hend {s : Structures} (h : s.Structural) : Structures.Structural
      (if !s.proofClosed && proofEnd.isMatch text then
        { s with effects := s.effects ++ [.closing .proof] } else s) := by
    split
    · exact h.append (List.forall_mem_singleton.mpr ⟨.proof, .inr rfl⟩)
    · exact h
  refine hend (Structures.Structural.visits ?_ notices _)
  dsimp only
  split
  · exact List.forall_mem_singleton.mpr ⟨_, .inl rfl⟩
  · exact List.forall_mem_nil _

/-! ## References -/

section

variable {tree : Node} {notices : List Notice} {m : Memory} {report : Bool} {s : String}

/-- The letters that are neither defined nor bound in an expression, once each. -/
def freeLetters (tree : Node) : List String :=
  (letters tree).eraseDups.filter fun x =>
    ((definitions (plainText tree)).lookup x).isNone &&
      !(boundLetters tree (plainText tree)).contains x

theorem effects_analyze (tree : Node) (notices : List Notice) (m : Memory) (report : Bool) :
    (analyze tree notices m report).effects =
      ((freeLetters tree).filter m.isDefined).map .reference ++
        (definitions (plainText tree)).map (fun p => .define p.1 p.2) ++
        (structures tree (plainText tree) notices m).effects := by
  simp only [analyze, List.partition_eq_filter_filter, freeLetters]

theorem notices_analyze (tree : Node) (notices : List Notice) (m : Memory) (report : Bool) :
    (analyze tree notices m report).notices =
      if report then ((freeLetters tree).filter (!m.isDefined ·)).map .undefinedSymbol else [] := by
  simp only [analyze, List.partition_eq_filter_filter, freeLetters]
  rfl

theorem mem_freeLetters : s ∈ freeLetters tree ↔ s ∈ letters tree ∧
    (definitions (plainText tree)).lookup s = none ∧ s ∉ boundLetters tree (plainText tree) := by
  simp [freeLetters, List.mem_filter, List.mem_eraseDups]

/-- **A known letter is referred to once.** It stands alone in the expression any number of times,
and is neither defined nor bound there. -/
theorem count_reference_analyze (hfree : s ∈ freeLetters tree) (hknown : m.isDefined s = true) :
    (analyze tree notices m report).effects.count (.reference s) = 1 := by
  have hnodup : ((freeLetters tree).filter m.isDefined).Nodup :=
    ((nodup_eraseDups _).filter _).filter _
  have hreferences : (((freeLetters tree).filter m.isDefined).map Effect.reference).count
      (.reference s) = 1 := by
    refine List.count_eq_one_of_mem (hnodup.map fun _ _ => Effect.reference.inj) ?_
    exact List.mem_map_of_mem (List.mem_filter.mpr ⟨hfree, hknown⟩)
  have hdefinitions : ((definitions (plainText tree)).map fun p =>
      Effect.define p.1 p.2).count (.reference s) = 0 :=
    List.count_eq_zero.mpr (by simp)
  have hstructures : (structures tree (plainText tree) notices m).effects.count
      (.reference s) = 0 := by
    refine List.count_eq_zero.mpr fun hmem => ?_
    obtain ⟨kind, h | h⟩ := structural_structures tree _ notices m _ hmem <;> cases h
  rw [effects_analyze, List.count_append, List.count_append, hreferences, hdefinitions,
    hstructures]

/-- A known symbol is not found undefined. -/
theorem undefinedSymbol_not_mem_analyze (hknown : m.isDefined s = true) :
    .undefinedSymbol s ∉ (analyze tree notices m report).notices := by
  rw [notices_analyze]
  split
  · intro hmem
    obtain ⟨t, ht, heq⟩ := List.mem_map.mp hmem
    cases heq
    simpa [hknown] using (List.mem_filter.mp ht).2
  · exact List.not_mem_nil

end

/-! ## An assignment -/

/-- "x:=5" defines `x` and opens and closes nothing, and "x+x" defines nothing. -/
theorem definitions_assignment :
    (definitions "x:=5".toList = [("x", "5")] ∧ definitions "x+x".toList = []) ∧
      (structures (.group [.leaf "x:=5".toList]) "x:=5".toList [] {}).effects = [] := by
  -- One after the other: to evaluate a pattern takes much memory.
  constructor
  · decide +kernel
  · decide +kernel

end Analysis

end SpokenMath
