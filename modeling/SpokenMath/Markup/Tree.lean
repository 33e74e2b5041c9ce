import SpokenMath.Text.Basic

/-!
# Trees of the markup

A **leaf** is a run of literal text, a **group** is what stands between braces, a **command** has
braced arguments and at most one bracketed one, a **script** hangs a subscript and a superscript on
its base, and an **environment** is a table of rows and cells.
-/

namespace SpokenMath

/-- A node of the tree. -/
inductive Node
  | leaf (text : Text)
  | group (children : List Node)
  | command (name : String) (args : List Node) (optional : Option Node)
  | script (base : Node) (sub sup : Option Node)
  | environment (name : String) (rows : List (List Node))
  deriving Repr, BEq, Inhabited

namespace Node

/-- The nodes right below a node, in the order of the source. -/
def children : Node → List Node
  | leaf _ => []
  | group children => children
  | command _ args optional => optional.toList ++ args
  | script base sub sup => base :: sub.toList ++ sup.toList
  | environment _ rows => rows.flatten

/-- A pair of braces with nothing between them. -/
def isEmptyGroup : Node → Bool
  | group [] => true
  | _ => false

/-- A command without arguments. -/
def bare (name : String) : Node := command name [] none

/-! ## Folds

A fold over a tree is given by what it does with a node once the results of the children are known,
in the order of `children`. -/

mutual

/-- The results for the children are handed to `f` together with the node. -/
def fold {α : Type} (f : Node → List α → α) : Node → α
  | leaf text => f (leaf text) []
  | group children => f (group children) (foldList f children)
  | command name args optional =>
    f (command name args optional) (foldOption f optional ++ foldList f args)
  | script base sub sup =>
    f (script base sub sup) (fold f base :: foldOption f sub ++ foldOption f sup)
  | environment name rows => f (environment name rows) (foldRows f rows)

/-- The results for the nodes of a list. -/
def foldList {α : Type} (f : Node → List α → α) : List Node → List α
  | [] => []
  | n :: ns => fold f n :: foldList f ns

/-- The result for a node that may be missing. -/
def foldOption {α : Type} (f : Node → List α → α) : Option Node → List α
  | none => []
  | some n => [fold f n]

/-- The results for the cells, row by row. -/
def foldRows {α : Type} (f : Node → List α → α) : List (List Node) → List α
  | [] => []
  | row :: rows => foldList f row ++ foldRows f rows

end

/-- The number of nodes on the longest way down. -/
def depth (n : Node) : Nat := n.fold fun _ below => below.foldl max 0 + 1

/-- The number of nodes. -/
def count (n : Node) : Nat := n.fold fun _ below => below.foldl (· + ·) 1

/-- The nodes that satisfy `descend` on the whole way from the root, and the nodes right below
them, each before those below it. -/
def preorder (descend : Node → Bool) (n : Node) : List Node :=
  n.fold fun node below => node :: if descend node then below.flatten else []

/-- Every node, each before those below it. -/
def nodes (n : Node) : List Node := n.preorder fun _ => true

/-- The name of a command. -/
def commandName? : Node → Option String
  | command name _ _ => some name
  | _ => none

/-- The names of the commands, each before those below it. -/
def commandNames (n : Node) : List String := n.nodes.filterMap commandName?

end Node

end SpokenMath
