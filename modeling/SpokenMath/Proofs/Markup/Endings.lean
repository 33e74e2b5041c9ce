import SpokenMath.Proofs.Markup.Base
import SpokenMath.Proofs.Markup.Course
import SpokenMath.Proofs.Markup.DepthLimit
import SpokenMath.Proofs.Markup.Notices
import SpokenMath.Proofs.Markup.Order

/-!
# Environments and their endings

An environment is read up to the first `\end` that belongs to no environment inside it. If that one
has another name, or none comes, the environment is noted as unterminated. So every environment of a
tree is paid for, by a note or by an `\end` with its name, which is used up.

**Theorem (`environments_of_parse`).** A tree has at most as many environments of a name as were
noted as unterminated under this name, and as many more as the text has an `\end` for it.
-/

namespace SpokenMath

namespace Node

/-- An environment with this name. -/
def isEnvironment (name : String) : Node → Bool
  | environment name' _ => name' == name
  | _ => false

/-- The number of environments with this name in a tree. -/
def environments (name : String) (n : Node) : Nat := n.nodes.countP (isEnvironment name)

end Node

open Node

namespace Reading

variable {name : String}

/-! ## How many there are -/

/-- The number of environments with this name in some trees. -/
def environments (name : String) (ns : List Node) : Nat :=
  (ns.flatMap nodes).countP (isEnvironment name)

@[simp] theorem environments_nil : environments name [] = 0 := rfl

@[simp] theorem environments_cons (n : Node) (ns : List Node) :
    environments name (n :: ns) = n.environments name + environments name ns := by
  rw [environments, List.flatMap_cons, List.countP_append]
  rfl

@[simp] theorem environments_append (ms ns : List Node) :
    environments name (ms ++ ns) = environments name ms + environments name ns := by
  rw [environments, List.flatMap_append, List.countP_append]
  rfl

theorem environments_of_perm {ms ns : List Node} (h : ms.Perm ns) :
    environments name ms = environments name ns :=
  (h.flatMap_right nodes).countP_eq _

@[simp] theorem environments_reverse (ns : List Node) :
    environments name ns.reverse = environments name ns :=
  environments_of_perm (List.reverse_perm ns)

/-- A node counts itself and what is below it. -/
theorem environments_eq (n : Node) : n.environments name =
    (if n.isEnvironment name then 1 else 0) + environments name n.children := by
  have hnodes : n.nodes = n :: n.children.flatMap nodes := preorder_eq _ n
  rw [Node.environments, hnodes, List.countP_cons, Nat.add_comm]
  rfl

@[simp] theorem environments_leaf (t : Text) : (leaf t).environments name = 0 :=
  environments_eq (leaf t)

@[simp] theorem environments_group (cs : List Node) :
    (group cs).environments name = environments name cs :=
  (environments_eq (group cs)).trans (Nat.zero_add _)

@[simp] theorem environments_command (word : String) (args : List Node) (o : Option Node) :
    (command word args o).environments name =
      environments name o.toList + environments name args := by
  rw [environments_eq, children, environments_append]
  exact Nat.zero_add _

@[simp] theorem environments_bare (word : String) : (bare word).environments name = 0 :=
  environments_command word [] none

@[simp] theorem environments_script (base : Node) (sub sup : Option Node) :
    (script base sub sup).environments name = base.environments name +
      (environments name sub.toList + environments name sup.toList) := by
  rw [environments_eq, children, List.cons_append, environments_cons, environments_append]
  exact Nat.zero_add _

theorem environments_environment (word : String) (rows : List (List Node)) :
    (environment word rows).environments name =
      (if word = name then 1 else 0) + environments name rows.flatten := by
  rw [environments_eq, isEnvironment, children]
  simp only [beq_iff_eq]

/-! ## Nodes that are cut or dropped -/

theorem environments_pushText (run : Text) (acc : List Node) :
    environments name (pushText run acc) = environments name acc := by
  unfold pushText
  split <;> simp

/-- The base of a script and what is left of the nodes. -/
theorem Takes.environments (name : String) {acc rest : List Node} {base : Node}
    (h : Takes acc base rest) :
    base.environments name + Reading.environments name rest = Reading.environments name acc := by
  induction h with
  | nothing => rfl
  | blank _ _ ih => simpa using ih
  | text => split <;> simp
  | node => exact (environments_cons _ _).symm

theorem environments_cell_le (name : String) (ns : List Node) :
    (cell ns).environments name ≤ environments name ns := by
  rw [cell, environments_group]
  split
  · exact Nat.zero_le _
  · exact Nat.le_refl _

theorem environments_dropEmptyRows_le (rows : List (List Node)) :
    environments name (dropEmptyRows rows).flatten ≤ environments name rows.flatten := by
  fun_induction dropEmptyRows rows with
  | case1 row before rows _ ih =>
    rw [List.flatten_cons (l := row), environments_append]
    exact ih.trans (Nat.le_add_left _ _)
  | case2 => exact Nat.le_refl _
  | case3 => exact Nat.le_refl _

/-- One environment, and those in its rows at most. -/
theorem environments_table_le (name word : String) (rows : List (List Node)) :
    (table word rows).environments name ≤
      (if word = name then 1 else 0) + environments name rows.flatten := by
  rw [table, environments_environment]
  refine Nat.add_le_add_left ?_ _
  calc environments name (dropEmptyRows rows).reverse.flatten
      = environments name (dropEmptyRows rows).flatten :=
        environments_of_perm (List.reverse_perm _).flatten
    _ ≤ environments name rows.flatten := environments_dropEmptyRows_le rows

/-! ## Endings -/

/-- How often `\end` stands in front of this name. -/
def endings (name : String) : List Token → Nat
  | [] => 0
  | tok :: ts =>
    endings name ts + if tok = .command "end" ∧ (bracedName ts).1 = name then 1 else 0

@[simp] theorem endings_text (run : Text) (ts : List Token) :
    endings name (.text run :: ts) = endings name ts := by
  simp [endings]

theorem endings_end (ts : List Token) : endings name (.command "end" :: ts) =
    endings name ts + if (bracedName ts).1 = name then 1 else 0 := by
  simp [endings]

theorem endings_le_of_suffix (name : String) {ts ts' : List Token} (h : ts' <:+ ts) :
    endings name ts' ≤ endings name ts := by
  obtain ⟨front, rfl⟩ := h
  induction front with
  | nil => exact Nat.le_refl _
  | cons tok front ih => exact ih.trans (Nat.le_add_right _ _)

theorem endings_tail_le (name : String) (tok : Token) (ts : List Token) :
    endings name ts ≤ endings name (tok :: ts) :=
  endings_le_of_suffix name (List.suffix_cons tok ts)

theorem endings_skipPoint (ts : List Token) : endings name (skipPoint ts) = endings name ts := by
  unfold skipPoint
  split
  · split <;> simp only [endings_text]
  · rfl

/-! ## Along the course -/

/-- How many environments of a name a task carries along. -/
def Task.environments (name : String) : Task → Nat
  | nodes _ acc => Reading.environments name acc
  | rows _ above row => Reading.environments name above.flatten + Reading.environments name row
  | scripts base sub sup => base.environments name +
      (Reading.environments name sub.toList + Reading.environments name sup.toList)
  | group | argument | optional _ | command _ | arguments _ => 0

/-- One more row, the last cell of which has been read. -/
theorem environments_row_le (name : String) (above : List (List Node)) (row out : List Node) :
    environments name ((cell out :: row).reverse :: above).flatten ≤
      environments name above.flatten + environments name row + environments name out := by
  have hcell := environments_cell_le name out
  rw [List.flatten_cons, environments_append, environments_reverse, environments_cons]
  omega

/-- What is read off some tokens is paid for: of the environments with this name there are `before`
at most that were there already, and one for each note of the name and for each `\end` that is used
up. -/
def Paid (name : String) (before : Nat) (ts : List Token) (ns : List Node) (rest : List Token)
    (said : List Notice) : Prop :=
  environments name ns + endings name rest ≤
    before + said.count (.unterminatedEnvironment name) + endings name ts

namespace Paid

variable {before before' before'' : Nat} {ts ts' rest : List Token} {ms ns out : List Node}
  {said said' : List Notice}

/-- Nothing is to be paid for where nothing is new. -/
theorem free (hns : environments name ns ≤ before) (hrest : endings name rest ≤ endings name ts) :
    Paid name before ts ns rest said :=
  Nat.add_le_add (hns.trans (Nat.le_add_right _ _)) hrest

/-- There may be more tokens in front. -/
theorem behind (h : Paid name before ts ns rest said) (hsuffix : ts <:+ ts') :
    Paid name before ts' ns rest said :=
  h.trans (Nat.add_le_add_left (endings_le_of_suffix name hsuffix) _)

/-- There may be more notes. -/
theorem noting (h : Paid name before ts ns rest said) (hsublist : said.Sublist said') :
    Paid name before ts ns rest said' :=
  h.trans (Nat.add_le_add_right (Nat.add_le_add_left (hsublist.count_le _) _) _)

/-- Other nodes are paid for as well if they have only environments that were there before. -/
theorem change (h : Paid name before ts ns rest said)
    (hcount : environments name out + before ≤ before' + environments name ns) :
    Paid name before' ts out rest said := by
  unfold Paid at h ⊢
  omega

/-- One part after the other. -/
theorem join (h : Paid name before ts ms ts' said) (h' : Paid name before' ts' ns rest said')
    (hcount : environments name out + (before + before') ≤
      before'' + (environments name ms + environments name ns)) :
    Paid name before'' ts out rest (said ++ said') := by
  unfold Paid at h h' ⊢
  rw [List.count_append]
  omega

/-- An environment is paid for by the `\end` that it ends at, or else it is noted. -/
theorem ended (name word : String) (rows : List (List Node)) (ts : List Token) :
    Paid name (environments name rows.flatten) (.command "end" :: ts) [table word rows]
      (bracedName ts).2
      (if (bracedName ts).1 = word then [] else [.unterminatedEnvironment word]) := by
  have htable := environments_table_le name word rows
  have hrest := endings_le_of_suffix name (bracedName_suffix ts)
  rw [Paid, endings_end, environments_cons, environments_nil]
  by_cases hword : (bracedName ts).1 = word
  · rw [if_pos hword, List.count_nil, hword]
    omega
  · rw [if_neg hword, List.count_singleton]
    simp only [beq_iff_eq, Notice.unterminatedEnvironment.injEq]
    omega

theorem unended (name word : String) (rows : List (List Node)) (ts : List Token) :
    Paid name (environments name rows.flatten) ts [table word rows] ts
      [.unterminatedEnvironment word] := by
  have htable := environments_table_le name word rows
  rw [Paid, environments_cons, environments_nil, List.count_singleton]
  simp only [beq_iff_eq, Notice.unterminatedEnvironment.injEq]
  omega

end Paid

/-- **Every environment is paid for**, by a note or by an `\end` that is used up. -/
theorem Course.paid {levels : Nat} {task : Task} {ts rest : List Token} {ns : List Node}
    {said : List Notice} (name : String) (h : Course levels task ts ns rest said) :
    Paid name (task.environments name) ts ns rest said := by
  induction h with
  | atEnd | cellEnd | argMissing | noBrackets | noArguments | unknownBare | scripted =>
    exact .free (by simp [Task.environments]) (Nat.le_refl _)
  | closed | argSign => exact .free (by simp [Task.environments]) (endings_tail_le name _ _)
  | strayBrace _ _ _ ih =>
    exact (ih.behind (List.suffix_cons _ _)).noting (List.sublist_cons_self _ _)
  | literal _ _ ih =>
    refine (ih.behind (List.suffix_cons _ _)).change ?_
    simp [Task.environments, environments_pushText, Nat.add_comm]
  | braces _ _ ih ih' =>
    refine (ih.join ih' ?_).behind (List.suffix_cons _ _)
    simp only [Task.environments, environments_cons, environments_nil]
    omega
  | sign _ ih =>
    refine (ih.behind (List.suffix_cons _ _)).change ?_
    simp [Task.environments, Nat.add_comm]
  | word _ _ _ ih ih' =>
    refine (ih.join ih' ?_).behind (List.suffix_cons _ _)
    simp only [Task.environments, environments_append]
    omega
  | @marks _ _ acc _ _ _ _ _ _ _ _ _ _ _ ih ih' =>
    have hbase := (takes_popBase acc).environments name
    refine ih.join ih' ?_
    simp only [Task.environments, environments_cons, environments_nil, Option.toList_none]
    omega
  | group _ ih => exact ih.change (by simp [Task.environments])
  | argBlank _ _ ih | argGroup _ ih => exact ih.behind (List.suffix_cons _ _)
  | argChar => exact .free (by simp [Task.environments]) (by split <;> simp)
  | @argWord _ _ _ _ _ o _ _ ih =>
    refine (ih.behind (List.suffix_cons _ _)).change ?_
    cases o <;> simp [Task.environments]
  | @brackets _ ts _ _ _ _ hopen _ ih =>
    have hbehind := skipBlank_suffix ts
    rw [hopen] at hbehind
    exact (ih.change (by simp [Task.environments])).behind ((List.suffix_cons _ _).trans hbehind)
  | @environment _ _ _ _ _ _ ns _ _ _ _ _ _ _ ih ih' ih'' =>
    have hbehind : Paid name 0 _ ns _ _ := ih'.join ih'' (by simp [Task.environments])
    exact (ih.join hbehind (by simp [Task.environments])).behind (bracedName_suffix _)
  | strayEnd =>
    exact .free (by simp [Task.environments]) (endings_le_of_suffix name (bracedName_suffix _))
  | sizer => exact .free (Nat.le_refl 0) (Nat.le_of_eq (endings_skipPoint _))
  | known _ _ _ _ ih ih' => exact ih.join ih' (by simp [Task.environments])
  | unknownBraces _ _ _ ih =>
    refine ((ih.behind (List.suffix_cons _ _)).noting (List.sublist_cons_self _ _)).change ?_
    simp [Task.environments]
  | moreArguments _ _ ih ih' => exact ih.join ih' (by simp [Task.environments])
  | @nextCell _ _ _ _ _ out _ _ _ _ _ _ _ ih ih' =>
    have hcell := environments_cell_le name out
    refine ih.join (ih'.behind (List.suffix_cons _ _)) ?_
    simp only [Task.environments, environments_nil, environments_cons]
    omega
  | @nextRow _ _ above row _ out _ _ _ _ _ _ _ ih ih' =>
    have hrow := environments_row_le name above row out
    refine ih.join (ih'.behind (List.suffix_cons _ _)) ?_
    simp only [Task.environments, environments_nil]
    omega
  | @lastCell _ _ out ts' _ word above row _ ih =>
    have hrow := environments_row_le name above row out
    refine ih.join (.ended name word ((cell out :: row).reverse :: above) ts') ?_
    simp only [Task.environments, environments_nil]
    omega
  | @unclosed _ word above row _ out _ _ _ _ ih =>
    have hrow := environments_row_le name above row out
    refine ih.join (.unended name word ((cell out :: row).reverse :: above) _) ?_
    simp only [Task.environments, environments_nil]
    omega
  | subscript _ _ ih ih' | superscript _ _ ih ih' =>
    refine (ih.join ih' ?_).behind (List.suffix_cons _ _)
    simp only [Task.environments, environments_cons, environments_nil, Option.toList_none,
      Option.toList_some]
    omega

end Reading

open Reading

/-- **Environments are ended or noted.** A tree has no more environments of a name than were noted
under it and than the text has an `\end` for. -/
theorem environments_of_parse {limits : ReadLimits} {t : Text} {p : Parsed}
    (h : parse limits t = .ok p) (name : String) : p.tree.environments name ≤
      p.notices.count (.unterminatedEnvironment name) + endings name (tokenize t) := by
  obtain ⟨ns, rest, said, htree, hnotices, hcourse⟩ := course_of_parse h
  have hpaid : environments name ns + endings name rest ≤ _ := hcourse.paid name
  rw [htree, hnotices, environments_group, Notice.count_foldl_noted rfl, List.count_nil,
    Nat.zero_add]
  rw [Task.environments, environments_nil] at hpaid
  omega

end SpokenMath
