import SpokenMath.Proofs.Lists
import SpokenMath.Proofs.Markup.Order
import SpokenMath.Screening.Limits
import Mathlib.Data.List.TakeWhile

/-!
# Ways down from one risky command to the next

The screening sees that a risky command stands inside another one by the delimiters between the two,
and only if no other risky command is between them in the text. A step down **leads** if it keeps to
that: what stands before it in the text is **clear** of risky commands and environments, and an
argument of a risky command is a group (`Leads`).

A node is **bounded** if no way down from it that leads passes through too many risky commands.
Where nodes are read one after the other, those are bounded that a way can lead to (`BoundedBy`).
-/

namespace SpokenMath

namespace Node

/-- A use of a risky command. -/
def isRisky : Node → Bool
  | command name _ _ => riskyCommands.contains name
  | _ => false

def isGroup : Node → Bool
  | group _ => true
  | _ => false

/-- An environment, or a stray end of one. There can be words in it that no node shows. -/
def isEnvironmental : Node → Bool
  | environment .. => true
  | command name _ _ => name == "end"
  | _ => false

/-- The most risky commands on one way down. -/
def riskyDepth (n : Node) : Nat :=
  n.fold fun m below => below.foldl max 0 + if m.isRisky then 1 else 0

/-- A leaf that may close a parenthesis. -/
def isClosing : Node → Bool
  | leaf t => decide (')' ∈ t)
  | _ => false

/-- There are no risky commands and no environments in the node. -/
def Clear (n : Node) : Prop := ∀ m ∈ n.nodes, m.isRisky = false ∧ m.isEnvironmental = false

/-- A clear node that leaves open what was open before it. A parenthesis around a risky command can
be closed in front of an argument that has no braces, and then the next argument is no deeper than
the command. Where there are delimiters between the two it cannot. -/
def Passable (deep : Bool) (n : Node) : Prop :=
  n.Clear ∧ (deep = true ∨ n.isGroup = true ∨ ∀ m ∈ n.nodes, m.isClosing = false)

/-- A step down on which the screening keeps up. -/
inductive Leads : Node → Node → Prop
  | group {before c after} (hbefore : ∀ n ∈ before, n.Clear) :
      Leads (group (before ++ c :: after)) c
  | argument {name args optional before c after}
      (hargs : optional.toList ++ args = before ++ c :: after)
      (hbefore : ∀ n ∈ before, n.Passable !riskyCommands.contains name)
      (hgroup : riskyCommands.contains name = true → c.isGroup = true) :
      Leads (command name args optional) c
  | base {base sub sup} : Leads (script base sub sup) base
  | subscript {base n sup} (hbase : base.Clear) (hsup : ∀ m ∈ sup, m.Clear) :
      Leads (script base (some n) sup) n
  | superscript {base sub n} (hbase : base.Clear) (hsub : ∀ m ∈ sub, m.Clear) :
      Leads (script base sub (some n)) n

/-- With `j` risky commands above it, no way down that leads passes through more than the limit. -/
def Bounded (limit j : Nat) (n : Node) : Prop :=
  ∀ path, (n :: path).IsChain Leads → j + (n :: path).countP isRisky ≤ limit

/-- No way down from any node of the tree that leads passes through more than the limit. -/
def Secure (limit : Nat) (n : Node) : Prop := ∀ m ∈ n.nodes, m.Bounded limit 0

/-- Those of some nodes are bounded to which a way leads past the nodes before them. -/
def BoundedBy (deep : Bool) (limit j : Nat) : List Node → Prop
  | [] => True
  | c :: after =>
    (deep = true ∨ c.isGroup = true → c.Bounded limit j) ∧
      (c.Passable deep → BoundedBy deep limit j after)

variable {n c : Node} {ns ms : List Node} {deep : Bool} {limit j j' : Nat}

/-! ## All ways down -/

theorem riskyDepth_eq (n : Node) :
    n.riskyDepth = (n.children.map riskyDepth).foldl max 0 + if n.isRisky then 1 else 0 :=
  fold_eq _ n

/-- **The risky depth bounds the risky commands on each way down**, and nothing less does. -/
theorem riskyDepth_le_iff {k : Nat} : j + n.riskyDepth ≤ k ↔ ∀ path : List Node,
    (n :: path).IsChain (fun m c => c ∈ m.children) → j + (n :: path).countP isRisky ≤ k := by
  induction n using induction_on_children generalizing j with
  | h n ih =>
    have hbelow := foldl_max_le_iff (l := n.children.map riskyDepth) (a := 0)
      (k := k - (j + if n.isRisky then 1 else 0))
    rw [List.forall_mem_map, and_iff_right (Nat.zero_le _)] at hbelow
    rw [forall_isChain_iff, riskyDepth_eq]
    constructor
    · intro h
      refine ⟨by omega, fun c hc => (ih c hc).mp ?_⟩
      have hle := hbelow.mp (by omega) c hc
      omega
    · rintro ⟨hself, hnext⟩
      have hle := hbelow.mpr fun c hc => by
        have hle := (ih c hc).mpr (hnext c hc)
        omega
      omega

/-! ## Clear nodes -/

theorem clear_iff : n.Clear ↔ (n.isRisky = false ∧ n.isEnvironmental = false) ∧
    ∀ c ∈ n.children, c.Clear :=
  forall_nodes_iff

theorem clear_group : (group ns).Clear ↔ ∀ n ∈ ns, n.Clear :=
  clear_iff.trans (and_iff_right ⟨rfl, rfl⟩)

theorem clear_leaf (t : Text) : (leaf t).Clear :=
  clear_iff.mpr ⟨⟨rfl, rfl⟩, nofun⟩

theorem clear_script {base : Node} {sub sup : Option Node} :
    (script base sub sup).Clear ↔ base.Clear ∧ (∀ n ∈ sub, n.Clear) ∧ ∀ n ∈ sup, n.Clear := by
  refine clear_iff.trans ((and_iff_right ⟨rfl, rfl⟩).trans ?_)
  show (∀ c ∈ base :: (sub.toList ++ sup.toList), c.Clear) ↔ _
  rw [List.forall_mem_cons, List.forall_mem_append]
  simp only [Option.mem_toList, Option.mem_def]

theorem passable_deep : n.Passable true ↔ n.Clear := by
  simp [Passable]

theorem passable_group : (group ns).Passable deep ↔ ∀ n ∈ ns, n.Clear :=
  (and_iff_left (.inr (.inl rfl))).trans clear_group

/-- A node that is no group is passed only if its children are. -/
theorem Passable.child (h : n.Passable deep) (hgroup : n.isGroup = false) (hc : c ∈ n.children) :
    c.Passable deep := by
  obtain ⟨hclear, hclosing⟩ := h
  refine ⟨(clear_iff.mp hclear).2 c hc, ?_⟩
  rcases hclosing with hdeep | hisGroup | hclosing
  · exact .inl hdeep
  · rw [hgroup] at hisGroup
    cases hisGroup
  · exact .inr (.inr ((forall_nodes_iff.mp hclosing).2 c hc))

theorem bounded_iff : n.Bounded limit j ↔
    j + (if n.isRisky then 1 else 0) ≤ limit ∧
      ∀ c, Leads n c → c.Bounded limit (j + if n.isRisky then 1 else 0) :=
  forall_isChain_iff

theorem Bounded.le (h : n.Bounded limit j) : j ≤ limit :=
  Nat.le_trans (Nat.le_add_right _ _) (bounded_iff.mp h).1

theorem Bounded.mono (h : n.Bounded limit j) (hj : j' ≤ j) : n.Bounded limit j' :=
  fun path hpath => Nat.le_trans (Nat.add_le_add_right hj _) (h path hpath)

/-- A node from which no step leads on. -/
theorem bounded_of_dead_end (hrisky : n.isRisky = false) (hend : ∀ c, ¬ Leads n c)
    (hj : j ≤ limit) : n.Bounded limit j :=
  bounded_iff.mpr ⟨by simpa [hrisky] using hj, fun c hc => (hend c hc).elim⟩

theorem bounded_leaf (t : Text) (hj : j ≤ limit) : (leaf t).Bounded limit j :=
  bounded_of_dead_end rfl nofun hj

theorem boundedBy_iff : BoundedBy deep limit j ns ↔ ∀ before c after, ns = before ++ c :: after →
    (∀ n ∈ before, n.Passable deep) → (deep = true ∨ c.isGroup = true) → c.Bounded limit j := by
  induction ns with
  | nil => exact iff_of_true trivial fun before _ _ h => by cases before <;> cases h
  | cons n ns ih =>
    constructor
    · rintro ⟨hhead, htail⟩ before c after heq hbefore
      cases before with
      | nil =>
        obtain ⟨rfl, -⟩ := List.cons.inj heq
        exact hhead
      | cons m before =>
        obtain ⟨rfl, hns⟩ := List.cons.inj heq
        obtain ⟨hm, hbefore⟩ := List.forall_mem_cons.mp hbefore
        exact ih.mp (htail hm) before c after hns hbefore
    · intro h
      refine ⟨h [] n ns rfl nofun, fun hn => ih.mpr fun before c after heq hbefore => ?_⟩
      exact h (n :: before) c after (congrArg _ heq) (List.forall_mem_cons.mpr ⟨hn, hbefore⟩)

theorem boundedBy_append : BoundedBy deep limit j (ns ++ ms) ↔
    BoundedBy deep limit j ns ∧
      ((∀ n ∈ ns, n.Passable deep) → BoundedBy deep limit j ms) := by
  induction ns with
  | nil => exact ⟨fun h => ⟨trivial, fun _ => h⟩, fun h => h.2 nofun⟩
  | cons n ns ih =>
    rw [List.cons_append, BoundedBy, BoundedBy, ih, List.forall_mem_cons]
    tauto

theorem boundedBy_singleton :
    BoundedBy deep limit j [n] ↔ (deep = true ∨ n.isGroup = true → n.Bounded limit j) :=
  and_iff_left fun _ => trivial

theorem bounded_group :
    (group ns).Bounded limit j ↔ j ≤ limit ∧ BoundedBy true limit j ns := by
  refine bounded_iff.trans (and_congr_right fun _ => ?_)
  rw [boundedBy_iff]
  constructor
  · rintro h before c after rfl hbefore -
    exact h c (.group fun n hn => passable_deep.mp (hbefore n hn))
  · rintro h c ⟨hbefore⟩
    exact h _ c _ rfl (fun n hn => passable_deep.mpr (hbefore n hn)) (.inl rfl)

theorem bounded_command {name : String} {args : List Node} {optional : Option Node} :
    (command name args optional).Bounded limit j ↔
      j + (if riskyCommands.contains name then 1 else 0) ≤ limit ∧
        BoundedBy (!riskyCommands.contains name) limit
          (j + if riskyCommands.contains name then 1 else 0) (optional.toList ++ args) := by
  refine bounded_iff.trans (and_congr_right fun _ => ?_)
  rw [boundedBy_iff]
  constructor
  · intro h before c after heq hbefore hgroup
    refine h c (.argument heq hbefore fun hrisky => hgroup.resolve_left ?_)
    rw [hrisky]
    nofun
  · intro h c hc
    cases hc with
    | argument hargs hbefore hgroup =>
      refine h _ c _ hargs hbefore ?_
      cases hrisky : riskyCommands.contains name with
      | true => exact .inr (hgroup hrisky)
      | false => exact .inl rfl

theorem bounded_script {base : Node} {sub sup : Option Node} :
    (script base sub sup).Bounded limit j ↔ base.Bounded limit j ∧
      (base.Clear → (∀ m ∈ sup, m.Clear) → ∀ n ∈ sub, n.Bounded limit j) ∧
      (base.Clear → (∀ m ∈ sub, m.Clear) → ∀ n ∈ sup, n.Bounded limit j) := by
  refine bounded_iff.trans ⟨fun ⟨_, h⟩ => ⟨h base .base, ?_, ?_⟩, fun ⟨hbase, hsub, hsup⟩ => ?_⟩
  · rintro hbase hsup n rfl
    exact h n (.subscript hbase hsup)
  · rintro hbase hsub n rfl
    exact h n (.superscript hbase hsub)
  · refine ⟨hbase.le, fun c hc => ?_⟩
    cases hc with
    | base => exact hbase
    | subscript hclear hsup' => exact hsub hclear hsup' c rfl
    | superscript hclear hsub' => exact hsup hclear hsub' c rfl

/-! ## Secure trees -/

theorem secure_iff : n.Secure limit ↔ n.Bounded limit 0 ∧ ∀ c ∈ n.children, c.Secure limit :=
  forall_nodes_iff

theorem Leads.mem_children (h : Leads n c) : c ∈ n.children := by
  cases h with
  | group => simp [children]
  | argument hargs => simp [children, hargs]
  | base => simp [children]
  | subscript => simp [children]
  | superscript => simp [children]

/-- Only at risky commands there is something to see to. -/
theorem secure_of_children (hrisky : n.isRisky = false) (h : ∀ c ∈ n.children, c.Secure limit) :
    n.Secure limit := by
  refine secure_iff.mpr ⟨bounded_iff.mpr ⟨?_, fun c hc => ?_⟩, h⟩
  · rw [hrisky]
    exact Nat.zero_le limit
  · rw [hrisky]
    exact (secure_iff.mp (h c hc.mem_children)).1

theorem secure_leaf (t : Text) : (leaf t).Secure limit := secure_of_children rfl nofun

/-- A way down from the root stays among the nodes of the tree. -/
theorem mem_nodes_of_isChain {path : List Node}
    (h : (n :: path).IsChain fun m c => c ∈ m.children) : ∀ m ∈ n :: path, m ∈ n.nodes := by
  induction path generalizing n with
  | nil =>
    intro m hm
    obtain rfl := List.mem_singleton.mp hm
    exact (forall_nodes_iff.mp fun _ h => h).1
  | cons c path ih =>
    obtain ⟨hc, hpath⟩ := List.isChain_cons_cons.mp h
    have hroot := forall_nodes_iff.mp fun _ (h : _ ∈ n.nodes) => h
    refine List.forall_mem_cons.mpr ⟨hroot.1, fun m hm => ?_⟩
    exact hroot.2 c hc m (ih hpath m hm)

/-- **In a secure tree no way down from the root that leads on from its first risky command passes
through more than the limit.** -/
theorem Secure.countP_le (h : n.Secure limit) {path : List Node}
    (hpath : (n :: path).IsChain fun m c => c ∈ m.children)
    (hleads : ((n :: path).dropWhile fun m => !m.isRisky).IsChain Leads) :
    (n :: path).countP isRisky ≤ limit := by
  have hcount : (n :: path).countP isRisky =
      ((n :: path).dropWhile fun m => !m.isRisky).countP isRisky := by
    conv_lhs => rw [← List.takeWhile_append_dropWhile (p := fun m => !m.isRisky) (l := n :: path)]
    rw [List.countP_append, Nat.add_eq_right, List.countP_eq_zero]
    intro m hm
    simpa using List.mem_takeWhile_imp hm
  rw [hcount]
  cases hdrop : (n :: path).dropWhile fun m => !m.isRisky with
  | nil => exact Nat.zero_le limit
  | cons m rest =>
    rw [hdrop] at hleads
    have hsuffix : m :: rest <:+ n :: path := hdrop ▸ List.dropWhile_suffix _
    have hm := mem_nodes_of_isChain hpath m (hsuffix.subset List.mem_cons_self)
    simpa using h m hm rest hleads

end Node

end SpokenMath
