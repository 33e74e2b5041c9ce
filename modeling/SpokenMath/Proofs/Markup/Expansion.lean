import SpokenMath.Markup.Canonical
import SpokenMath.Proofs.Markup.Order
import SpokenMath.Rule.Basic

/-!
# A command spoken in a tree

A rule for a command says what is spoken for the arguments. In a tree, the nodes with the name of
the command are replaced by leaves from the bottom up (`expandCommands`): when a node is replaced,
the same has been done to its arguments already.

A leaf with a space at its end loses this space in front of a script. What is spoken for a command
is kept as it is, so there it gets one more space, which is the one that is lost (`asBase`).
-/

namespace SpokenMath.Node

/-- What is written for a node between delimiters. -/
def textWithin (n : Node) : Text := (emit true n []).reverse

/-- What is hung under a script for the base `n`, when it has been expanded. -/
def asBase (n expanded : Node) : Node :=
  match n, expanded with
  | command .., leaf t => leaf (t ++ [' '])
  | _, _ => expanded

mutual

/-- Every command of this name replaced by what is spoken for its arguments, inner ones first. -/
def expandCommands (name : String) (render : Captures → Text) : Node → Node
  | leaf t => leaf t
  | group cs => group (expandAll name render cs)
  | command word args optional =>
    let args := expandAll name render args
    let optional := expandOption name render optional
    if word = name then
      leaf (render { groups := args.map textWithin, optional := optional.map textWithin })
    else command word args optional
  | script base sub sup =>
    script (asBase base (expandCommands name render base)) (expandOption name render sub)
      (expandOption name render sup)
  | environment word rows => environment word (expandRows name render rows)

def expandAll (name : String) (render : Captures → Text) : List Node → List Node
  | [] => []
  | n :: ns => expandCommands name render n :: expandAll name render ns

def expandOption (name : String) (render : Captures → Text) : Option Node → Option Node
  | none => none
  | some n => some (expandCommands name render n)

def expandRows (name : String) (render : Captures → Text) : List (List Node) → List (List Node)
  | [] => []
  | row :: rows => expandAll name render row :: expandRows name render rows

end

variable {name : String} {render : Captures → Text}

theorem expandAll_eq (ns : List Node) :
    expandAll name render ns = ns.map (expandCommands name render) := by
  induction ns with
  | nil => rfl
  | cons n ns ih => rw [expandAll, ih, List.map_cons]

theorem expandOption_eq (o : Option Node) :
    expandOption name render o = o.map (expandCommands name render) := by
  cases o <;> rfl

theorem expandCommands_group (cs : List Node) : (group cs).expandCommands name render =
    group (cs.map (expandCommands name render)) := by
  rw [expandCommands, expandAll_eq]

/-- A command of this name. -/
theorem expandCommands_self (args : List Node) :
    (command name args none).expandCommands name render =
      leaf (render { groups := args.map fun a => (a.expandCommands name render).textWithin }) := by
  rw [expandCommands, if_pos rfl, expandAll_eq, List.map_map]
  rfl

theorem expandCommands_of_ne {word : String} (h : word ≠ name) (args : List Node) :
    (command word args none).expandCommands name render =
      command word (args.map (expandCommands name render)) none := by
  rw [expandCommands, if_neg h, expandAll_eq, expandOption_eq, Option.map_none]

theorem expandCommands_script (base : Node) (sub sup : Option Node) :
    (script base sub sup).expandCommands name render =
      script (asBase base (base.expandCommands name render)) (sub.map (expandCommands name render))
        (sup.map (expandCommands name render)) := by
  rw [expandCommands, expandOption_eq, expandOption_eq]

/-! ## Bracketed arguments -/

/-- A command with a bracketed argument. -/
def hasOption : Node → Bool
  | command _ _ optional => optional.isSome
  | _ => false

/-- No command in the tree has a bracketed argument. -/
def WithoutOptions (n : Node) : Prop := ∀ m ∈ n.nodes, m.hasOption = false

instance (n : Node) : Decidable n.WithoutOptions :=
  inferInstanceAs (Decidable (∀ m ∈ n.nodes, _))

theorem withoutOptions_iff {n : Node} :
    n.WithoutOptions ↔ n.hasOption = false ∧ ∀ c ∈ n.children, c.WithoutOptions :=
  forall_nodes_iff

theorem withoutOptions_group {cs : List Node} :
    (group cs).WithoutOptions ↔ ∀ c ∈ cs, c.WithoutOptions :=
  withoutOptions_iff.trans (and_iff_right rfl)

theorem withoutOptions_command {word : String} {args : List Node} {optional : Option Node} :
    (command word args optional).WithoutOptions ↔
      optional = none ∧ ∀ a ∈ args, a.WithoutOptions := by
  refine withoutOptions_iff.trans ?_
  cases optional with
  | none => exact and_congr_left' (iff_of_true rfl rfl)
  | some o => exact iff_of_false (fun h => by cases h.1) fun h => by cases h.1

theorem withoutOptions_script {base : Node} {sub sup : Option Node} :
    (script base sub sup).WithoutOptions ↔ base.WithoutOptions ∧
      (∀ n ∈ sub, n.WithoutOptions) ∧ ∀ n ∈ sup, n.WithoutOptions := by
  refine withoutOptions_iff.trans ((and_iff_right rfl).trans ?_)
  show (∀ c ∈ base :: (sub.toList ++ sup.toList), c.WithoutOptions) ↔ _
  rw [List.forall_mem_cons, List.forall_mem_append]
  simp only [Option.mem_toList, Option.mem_def]

end SpokenMath.Node
