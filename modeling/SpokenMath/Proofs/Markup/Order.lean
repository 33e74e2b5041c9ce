import SpokenMath.Markup.Tree
import SpokenMath.Text.Basic
import Mathlib.Data.List.Forall2

/-!
# Subscripts before superscripts

Where a subscript and a superscript are hung on one base, the subscript is written first. A tree is
**orderly** if no subscript hangs on a base whose last mark is a superscript that could take it as
its partner; two blanks apart, as in `x^2 _3`, they do not come together when they are read, but
they do when the canonical text `x^{2}_{3}` is.

Texts are compared up to the first place where they differ. Wherever reading a text again changes
it, a subscript stands there where there was a superscript before (`Swapped`).
-/

namespace SpokenMath

namespace Node

/-- The last mark is a subscript that stands alone. -/
def endsInSub : Node → Bool
  | script _ (some _) none => true
  | _ => false

/-- The last mark is a superscript to which a subscript can still be joined. -/
def awaitsSub : Node → Bool
  | script base none (some _) => !base.endsInSub
  | _ => false

/-- No subscript is hung where it would be joined to the superscript before it. -/
def inOrder : Node → Bool
  | script base (some _) _ => !base.awaitsSub
  | _ => true

/-- All nodes of a tree are in order. -/
def Orderly (n : Node) : Prop := ∀ m ∈ n.nodes, m.inOrder = true

instance (n : Node) : Decidable n.Orderly := inferInstanceAs (Decidable (∀ m ∈ n.nodes, _))

/-! ## From nodes to the nodes below -/

theorem foldList_eq {α : Type} (f : Node → List α → α) (ns : List Node) :
    foldList f ns = ns.map (fold f) := by
  induction ns with
  | nil => rfl
  | cons n ns ih => exact congrArg (n.fold f :: ·) ih

theorem foldOption_eq {α : Type} (f : Node → List α → α) (o : Option Node) :
    foldOption f o = o.toList.map (fold f) := by
  cases o <;> rfl

theorem foldRows_eq {α : Type} (f : Node → List α → α) (rows : List (List Node)) :
    foldRows f rows = rows.flatten.map (fold f) := by
  induction rows with
  | nil => rfl
  | cons row rows ih =>
    rw [List.flatten_cons, List.map_append, ← foldList_eq, ← ih]
    rfl

/-- A fold goes through the children in order. -/
theorem fold_eq {α : Type} (f : Node → List α → α) (n : Node) :
    n.fold f = f n (n.children.map (fold f)) := by
  cases n with
  | leaf => rfl
  | group cs => exact congrArg (f (group cs)) (foldList_eq f cs)
  | command name args optional =>
    have hchildren : foldOption f optional ++ foldList f args =
        (optional.toList ++ args).map (fold f) := by
      rw [foldOption_eq, foldList_eq, List.map_append]
    exact congrArg (f _) hchildren
  | script base sub sup =>
    have hchildren : fold f base :: (foldOption f sub ++ foldOption f sup) =
        (base :: (sub.toList ++ sup.toList)).map (fold f) := by
      rw [foldOption_eq, foldOption_eq, List.map_cons, List.map_append]
    exact congrArg (f _) hchildren
  | environment name rows => exact congrArg (f _) (foldRows_eq f rows)

theorem preorder_eq (descend : Node → Bool) (n : Node) :
    n.preorder descend = n :: if descend n then n.children.flatMap (preorder descend) else [] :=
  fold_eq _ n

/-- What holds of all nodes holds of the root and of all nodes below its children. -/
theorem forall_nodes_iff {n : Node} {p : Node → Prop} :
    (∀ m ∈ n.nodes, p m) ↔ p n ∧ ∀ c ∈ n.children, ∀ m ∈ c.nodes, p m := by
  have hnodes : n.nodes = n :: (n.children.map nodes).flatten := fold_eq _ n
  simp only [hnodes, List.forall_mem_cons, List.mem_flatten, List.mem_map]
  refine and_congr_right fun _ => ⟨fun h c hc m hm => h m ⟨_, ⟨c, hc, rfl⟩, hm⟩, ?_⟩
  rintro h m ⟨_, ⟨c, hc, rfl⟩, hm⟩
  exact h c hc m hm

theorem sizeOf_lt_of_mem_children {n c : Node} (h : c ∈ n.children) : sizeOf c < sizeOf n := by
  cases n with
  | leaf t => cases h
  | group cs =>
    have hlt := List.sizeOf_lt_of_mem (show c ∈ cs from h)
    simp only [group.sizeOf_spec]
    omega
  | command name args optional =>
    simp only [command.sizeOf_spec]
    rcases List.mem_append.mp h with h | h
    · obtain rfl := Option.mem_toList.mp h
      simp only [Option.some.sizeOf_spec]
      omega
    · have hlt := List.sizeOf_lt_of_mem h
      omega
  | script base sub sup =>
    simp only [script.sizeOf_spec]
    rcases List.mem_cons.mp h with rfl | h
    · omega
    · rcases List.mem_append.mp h with h | h <;> obtain rfl := Option.mem_toList.mp h <;>
        simp only [Option.some.sizeOf_spec] <;> omega
  | environment name rows =>
    obtain ⟨row, hrow, hc⟩ := List.mem_flatten.mp h
    have hlt := List.sizeOf_lt_of_mem hrow
    have hlt' := List.sizeOf_lt_of_mem hc
    simp only [environment.sizeOf_spec]
    omega

/-- What a node has whenever its children have it, all nodes have. -/
theorem induction_on_children {p : Node → Prop} (h : ∀ n, (∀ c ∈ n.children, p c) → p n)
    (n : Node) : p n :=
  h n fun c _ => induction_on_children h c
termination_by sizeOf n
decreasing_by exact sizeOf_lt_of_mem_children ‹_›

theorem orderly_iff {n : Node} :
    n.Orderly ↔ n.inOrder = true ∧ ∀ c ∈ n.children, c.Orderly :=
  forall_nodes_iff

theorem orderly_leaf (t : Text) : (leaf t).Orderly :=
  orderly_iff.mpr ⟨rfl, nofun⟩

theorem orderly_bare (name : String) : (bare name).Orderly :=
  orderly_iff.mpr ⟨rfl, nofun⟩

theorem orderly_group {cs : List Node} : (group cs).Orderly ↔ ∀ c ∈ cs, c.Orderly :=
  orderly_iff.trans (and_iff_right rfl)

theorem orderly_command {name : String} {args : List Node} {optional : Option Node} :
    (command name args optional).Orderly ↔
      (∀ o ∈ optional, o.Orderly) ∧ ∀ a ∈ args, a.Orderly := by
  refine orderly_iff.trans ((and_iff_right rfl).trans ?_)
  show (∀ c ∈ optional.toList ++ args, c.Orderly) ↔ _
  rw [List.forall_mem_append]
  simp only [Option.mem_toList, Option.mem_def]

theorem orderly_script {base : Node} {sub sup : Option Node} :
    (script base sub sup).Orderly ↔ (script base sub sup).inOrder = true ∧ base.Orderly ∧
      (∀ n ∈ sub, n.Orderly) ∧ ∀ n ∈ sup, n.Orderly := by
  refine orderly_iff.trans (and_congr_right fun _ => ?_)
  show (∀ c ∈ base :: (sub.toList ++ sup.toList), c.Orderly) ↔ _
  rw [List.forall_mem_cons, List.forall_mem_append]
  simp only [Option.mem_toList, Option.mem_def]

end Node

/-! ## The first difference of two texts -/

/-- Where the texts differ first, there is a superscript in the first and a subscript in the
second. -/
def Swapped (s t : Text) : Prop :=
  ∃ front r r', s = front ++ '^' :: r ∧ t = front ++ '_' :: r'

/-- The texts are the same exactly if something holds. -/
structure SameIf (p : Prop) (s t : Text) : Prop where
  same : p → t = s
  swapped : ¬p → Swapped s t

theorem Swapped.ne {s t : Text} (h : Swapped s t) : t ≠ s := by
  obtain ⟨front, r, r', rfl, rfl⟩ := h
  simp

theorem Swapped.append {s t : Text} (h : Swapped s t) (u v : Text) : Swapped (s ++ u) (t ++ v) := by
  obtain ⟨front, r, r', rfl, rfl⟩ := h
  exact ⟨front, r ++ u, r' ++ v, by simp, by simp⟩

theorem Swapped.append_left {s t : Text} (h : Swapped s t) (u : Text) :
    Swapped (u ++ s) (u ++ t) := by
  obtain ⟨front, r, r', rfl, rfl⟩ := h
  exact ⟨u ++ front, r, r', by simp, by simp⟩

namespace SameIf

variable {p q : Prop} {s t s' t' : Text}

theorem refl (h : p) (s : Text) : SameIf p s s := ⟨fun _ => rfl, fun hp => absurd h hp⟩

theorem congr (h : SameIf p s t) (hpq : p ↔ q) : SameIf q s t :=
  ⟨fun hq => h.same (hpq.mpr hq), fun hq => h.swapped fun hp => hq (hpq.mp hp)⟩

theorem append (h : SameIf p s t) (h' : SameIf q s' t') : SameIf (p ∧ q) (s ++ s') (t ++ t') := by
  constructor
  · rintro ⟨hp, hq⟩
    rw [h.same hp, h'.same hq]
  · intro hpq
    by_cases hp : p
    · rw [h.same hp]
      exact (h'.swapped fun hq => hpq ⟨hp, hq⟩).append_left s
    · exact (h.swapped hp).append s' t'

theorem append_left (h : SameIf p s t) (u : Text) : SameIf p (u ++ s) (u ++ t) :=
  ((refl trivial u).append h).congr (iff_of_eq (true_and p))

theorem append_right (h : SameIf p s t) (u : Text) : SameIf p (s ++ u) (t ++ u) :=
  (h.append (refl trivial u)).congr (iff_of_eq (and_true p))

theorem eq_iff (h : SameIf p s t) : t = s ↔ p :=
  ⟨fun heq => Classical.byContradiction fun hp => (h.swapped hp).ne heq, h.same⟩

/-- Nothing is read differently from something. -/
theorem eq_nil (h : SameIf p s []) : s = [] := by
  by_cases hp : p
  · exact (h.same hp).symm
  · obtain ⟨front, r, r', -, hnil⟩ := h.swapped hp
    cases front <;> cases hnil

theorem flatMap {α : Type} {f : α → Text} {p : α → Prop} {xs ys : List α}
    (h : List.Forall₂ (fun x y => SameIf (p x) (f x) (f y)) xs ys) :
    SameIf (∀ x ∈ xs, p x) (xs.flatMap f) (ys.flatMap f) := by
  induction h with
  | nil => exact refl nofun []
  | cons h _ ih => exact (h.append ih).congr List.forall_mem_cons.symm

end SameIf

end SpokenMath
