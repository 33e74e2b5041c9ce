import SpokenMath.Proofs.Markup.Spelling
import SpokenMath.Proofs.Markup.WellFormed
import SpokenMath.Proofs.Text.Pieces

/-!
# Nodes are written one behind the other

The canonical text is written onto what is there already, and a script takes a space off it. In a
well-formed tree this is a space of the base, which is never empty: so a node is written behind what
is there and leaves it as it is (`Formed.appends`).

**Theorem (`linearize_environment`).** Between its tags, the canonical text of an environment has
the texts of its rows with two backslashes between neighbours, and in a row those of its cells with
an alignment mark between neighbours. Only then are the blanks collapsed.
-/

namespace SpokenMath.Node

/-- The text of a node between delimiters, before its blanks are collapsed. -/
def written (n : Node) : Text := (emit true n []).reverse

/-- The text of a row, before its blanks are collapsed. -/
def writtenRow (row : List Node) : Text := Text.join (Text.spacedMark ['&']) (row.map written)

/-- The text of the rows, before their blanks are collapsed. -/
def writtenRows (rows : List (List Node)) : Text :=
  Text.join (Text.spacedMark ['\\', '\\']) (rows.map writtenRow)

/-- The canonical text of a row. -/
def linearizeRow (row : List Node) : Text := Text.collapse (emitCells true row []).reverse

/-! ## What is there stays -/

/-- A node is written behind what is there, and something is written for the base of a script. -/
structure Appends (n : Node) : Prop where
  emit_eq : ∀ enclosed out, emit enclosed n out = emit enclosed n [] ++ out
  ne_nil : (∀ t, n = leaf t → IsBase t) → emit false n [] ≠ []

variable {ns : List Node} {o : Option Node}

theorem emitAll_append (h : ∀ n ∈ ns, n.Appends) (out : Text) :
    emitAll ns out = emitAll ns [] ++ out := by
  induction ns generalizing out with
  | nil => rfl
  | cons n ns ih =>
    obtain ⟨hn, hns⟩ := List.forall_mem_cons.mp h
    rw [emitAll, emitAll, ih hns, ih hns (emit false n []), hn.emit_eq, List.append_assoc]

theorem emitArgs_append (h : ∀ n ∈ ns, n.Appends) (out : Text) :
    emitArgs ns out = emitArgs ns [] ++ out := by
  induction ns generalizing out with
  | nil => rfl
  | cons n ns ih =>
    obtain ⟨hn, hns⟩ := List.forall_mem_cons.mp h
    rw [emitArgs, emitArgs, ih hns, ih hns ('}' :: emit true n ['{']), hn.emit_eq true ('{' :: out),
      hn.emit_eq true ['{']]
    simp

theorem emitOptional_append (h : ∀ n ∈ o, n.Appends) (out : Text) :
    emitOptional o out = emitOptional o [] ++ out := by
  cases o with
  | none => rfl
  | some n =>
    rw [emitOptional, emitOptional, (h n rfl).emit_eq true ('[' :: out),
      (h n rfl).emit_eq true ['[']]
    simp

theorem emitMark_append {mark : Char} (h : ∀ n ∈ o, n.Appends) (out : Text) :
    emitMark mark o out = emitMark mark o [] ++ out := by
  cases o with
  | none => rfl
  | some n =>
    rw [emitMark, emitMark, (h n rfl).emit_eq true ('{' :: mark :: out),
      (h n rfl).emit_eq true ['{', mark]]
    simp

theorem join_cons (gap t : Text) (ts : List Text) :
    Text.join gap (t :: ts) = t ++ ts.flatMap (gap ++ ·) := by
  induction ts generalizing t with
  | nil => simp [Text.join]
  | cons t' ts ih =>
    rw [Text.join, List.intercalate_cons_cons, ← Text.join, ih, List.flatMap_cons,
      List.append_assoc, List.append_assoc]

/-- Cells are written with a mark between neighbours. -/
theorem emitCells_eq (h : ∀ n ∈ ns, n.Appends) (out : Text) :
    emitCells true ns out = (writtenRow ns).reverse ++ out := by
  have hlater (ms : List Node) (hms : ∀ m ∈ ms, m.Appends) (out : Text) :
      emitCells false ms out =
        ((ms.map written).flatMap (Text.spacedMark ['&'] ++ ·)).reverse ++ out := by
    induction ms generalizing out with
    | nil => rfl
    | cons m ms ih =>
      obtain ⟨hm, hms⟩ := List.forall_mem_cons.mp hms
      rw [emitCells, ih hms, if_neg Bool.false_ne_true, hm.emit_eq]
      simp [written, Text.spacedMark]
  cases ns with
  | nil => rfl
  | cons n ns =>
    obtain ⟨hn, hns⟩ := List.forall_mem_cons.mp h
    rw [emitCells, hlater ns hns, if_pos rfl, hn.emit_eq, writtenRow, List.map_cons, join_cons]
    simp [written]

/-- Rows are written with two backslashes between neighbours. -/
theorem emitRows_eq {rows : List (List Node)} (h : ∀ row ∈ rows, ∀ n ∈ row, n.Appends)
    (out : Text) : emitRows true rows out = (writtenRows rows).reverse ++ out := by
  have hlater (rs : List (List Node)) (hrs : ∀ row ∈ rs, ∀ n ∈ row, n.Appends) (out : Text) :
      emitRows false rs out =
        ((rs.map writtenRow).flatMap (Text.spacedMark ['\\', '\\'] ++ ·)).reverse ++ out := by
    induction rs generalizing out with
    | nil => rfl
    | cons row rs ih =>
      obtain ⟨hrow, hrs⟩ := List.forall_mem_cons.mp hrs
      rw [emitRows, ih hrs, if_neg Bool.false_ne_true, emitCells_eq hrow]
      simp [Text.spacedMark]
  cases rows with
  | nil => rfl
  | cons row rows =>
    obtain ⟨hrow, hrows⟩ := List.forall_mem_cons.mp h
    rw [emitRows, hlater rows hrows, if_pos rfl, emitCells_eq hrow, writtenRows, List.map_cons,
      join_cons]
    simp

theorem linearizeRow_eq (h : ∀ n ∈ ns, n.Appends) :
    linearizeRow ns = (writtenRow ns).collapse := by
  rw [linearizeRow, emitCells_eq h, List.append_nil, List.reverse_reverse]

/-! ## One case per kind of node -/

theorem appends_leaf (t : Text) : (leaf t).Appends where
  emit_eq enclosed out := by simp [emit]
  ne_nil h := by simpa [emit] using (h t rfl).ne_nil

theorem appends_group (h : ∀ c ∈ ns, c.Appends) : (group ns).Appends where
  emit_eq enclosed out := by
    cases enclosed with
    | true => simpa [emit] using emitAll_append h out
    | false =>
      have hall : emitAll ns ('{' :: out) = emitAll ns ['{'] ++ out := by
        rw [emitAll_append h, emitAll_append h ['{'], List.append_assoc]
        rfl
      simp [emit, hall]
  ne_nil _ := by simp [emit]

theorem appends_command {name : String} (hargs : ∀ a ∈ ns, a.Appends)
    (hoptional : ∀ n ∈ o, n.Appends) : (command name ns o).Appends := by
  have hall (out : Text) : emitArgs ns (emitOptional o (name.toList.reverse ++ '\\' :: out)) =
      emitArgs ns [] ++ (emitOptional o [] ++ (name.toList.reverse ++ '\\' :: out)) := by
    rw [emitOptional_append hoptional, emitArgs_append hargs]
  refine ⟨fun enclosed out => ?_, fun _ => ?_⟩
  · simp only [emit, hall out, hall []]
    split <;> simp
  · simp only [emit, hall []]
    split <;> simp

theorem dropSpace_append {t : Text} (h : t ≠ []) (out : Text) :
    dropSpace (t ++ out) = dropSpace t ++ out := by
  cases t with
  | nil => exact absurd rfl h
  | cons c t =>
    unfold dropSpace
    split
    · next heq =>
      obtain ⟨rfl, rfl⟩ := List.cons.inj heq
      rfl
    · next hne =>
      split
      · next heq =>
        obtain ⟨rfl, rfl⟩ := List.cons.inj heq
        exact absurd rfl (hne _)
      · rfl

theorem appends_script {base : Node} {sub sup : Option Node} (hbase : base.Appends)
    (hleaf : ∀ t, base = leaf t → IsBase t) (hsub : ∀ n ∈ sub, n.Appends)
    (hsup : ∀ n ∈ sup, n.Appends) (hmark : sub ≠ none ∨ sup ≠ none) :
    (script base sub sup).Appends where
  emit_eq enclosed out := by
    have hdrop : dropSpace (emit false base out) = dropSpace (emit false base []) ++ out := by
      rw [hbase.emit_eq, dropSpace_append (hbase.ne_nil hleaf)]
    rw [emit, emit, hdrop, emitMark_append hsub (_ ++ _), emitMark_append hsup,
      emitMark_append hsub (dropSpace _), emitMark_append hsup (_ ++ dropSpace _)]
    simp only [List.append_assoc]
  ne_nil _ := by
    rw [emit]
    rcases sup with _ | n
    · obtain ⟨m, rfl⟩ := Option.ne_none_iff_exists'.mp (hmark.resolve_right (fun h => h rfl))
      simp [emitMark]
    · simp [emitMark]

theorem appends_environment {name : String} {rows : List (List Node)}
    (h : ∀ row ∈ rows, ∀ n ∈ row, n.Appends) : (environment name rows).Appends where
  emit_eq enclosed out := by simp [emit, emitRows_eq h]
  ne_nil _ := by simp [emit, Tag.closing]

/-- **A node of a well-formed tree is written behind what is there.** -/
theorem Formed.appends {n : Node} (h : n.Formed) : n.Appends := by
  induction h with
  | @leaf t => exact appends_leaf t
  | strayEnd t =>
    exact appends_command (List.forall_mem_singleton.mpr (appends_leaf t)) nofun
  | @inner n hregular hleaf _ ih =>
    cases n with
    | leaf t => cases hleaf
    | group cs => exact appends_group ih
    | command name args optional =>
      exact appends_command (fun a ha => ih a (List.mem_append_right _ ha))
        fun o ho => ih o (List.mem_append_left _ (Option.mem_toList.mpr ho))
    | script base sub sup =>
      obtain ⟨hmark, hbase⟩ := hregular
      refine appends_script (ih base List.mem_cons_self) hbase (fun n hn => ih n ?_)
        (fun n hn => ih n ?_) hmark
      · exact List.mem_cons_of_mem _ (List.mem_append_left _ (Option.mem_toList.mpr hn))
      · exact List.mem_cons_of_mem _ (List.mem_append_right _ (Option.mem_toList.mpr hn))
    | environment name rows =>
      exact appends_environment fun row hrow c hc =>
        ih c (List.mem_flatten.mpr ⟨row, hrow, hc⟩)

/-! ## Environments -/

/-- What stands in a tree is as well formed as the tree, unless it is a leaf. -/
theorem Formed.of_mem_nodes {n m : Node} (h : n.Formed) (hm : m ∈ n.nodes)
    (hleaf : m.isLeaf = false) : m.Formed := by
  induction h with
  | leaf hliteral =>
    obtain rfl := List.mem_singleton.mp hm
    cases hleaf
  | strayEnd t =>
    rcases List.mem_cons.mp hm with rfl | hm
    · exact .strayEnd t
    · obtain rfl := List.mem_singleton.mp hm
      cases hleaf
  | @inner n hregular hinner hchildren ih =>
    have hnodes : n.nodes = n :: n.children.flatMap nodes := preorder_eq _ n
    rw [hnodes] at hm
    rcases List.mem_cons.mp hm with rfl | hm
    · exact .inner hregular hinner hchildren
    · obtain ⟨c, hc, hm⟩ := List.mem_flatMap.mp hm
      exact ih c hc hm

/-- The cells of an environment in a well-formed tree are written one behind the other. -/
theorem appends_of_mem_nodes {n : Node} {name : String} {rows : List (List Node)} (h : n.Formed)
    (hnode : .environment name rows ∈ n.nodes) : ∀ row ∈ rows, ∀ c ∈ row, c.Appends := by
  cases h.of_mem_nodes hnode rfl with
  | inner _ _ hchildren =>
    intro row hrow c hc
    exact (hchildren c (List.mem_flatten.mpr ⟨row, hrow, hc⟩)).appends

theorem collapseFrom_opening (name t : Text) : Text.collapseFrom .start (Tag.opening name ++ t) =
    Tag.opening name.spaced ++ Text.collapseFrom .solid t := by
  have hword : ∀ c ∈ "begin".toList, isBlank c = false := by simp [isBlank]
  have hopening : Tag.opening name ++ t =
      '\\' :: ("begin".toList ++ '{' :: (name ++ '}' :: t)) := by
    simp [Tag.opening, Tag.openingMark]
  rw [hopening, Text.collapseFrom_cons_of_not_blank (by decide),
    Text.collapseFrom_append_of_not_blank hword,
    Text.collapseFrom_delimited (by decide) (by decide)]
  simp [Tag.opening, Tag.openingMark]

/-- What stands in front of a closing tag is written with its blanks. -/
theorem collapseFrom_closing (t name : Text) : Text.collapseFrom .solid (t ++ Tag.closing name) =
    t.spaced ++ Tag.closing name.spaced := by
  have hword : ∀ c ∈ "end".toList, isBlank c = false := by simp [isBlank]
  have hclosing : Tag.closing name = '\\' :: ("end".toList ++ '{' :: (name ++ ['}'])) := by
    simp [Tag.closing, Tag.closingMark]
  rw [hclosing, Text.collapseFrom_append, Text.collapseFrom_cons_of_not_blank (by decide),
    Text.collapseFrom_append_of_not_blank hword,
    Text.collapseFrom_delimited (by decide) (by decide)]
  simp [Text.spaced, Tag.closing, Tag.closingMark]

/-- **The canonical text of an environment**: its tags, and between them the texts of its rows. -/
theorem linearize_environment {name : String} {rows : List (List Node)}
    (h : ∀ row ∈ rows, ∀ n ∈ row, n.Appends) : (environment name rows).linearize =
      Tag.opening (Text.spaced name.toList) ++
        (Text.spaced (writtenRows rows) ++ Tag.closing (Text.spaced name.toList)) := by
  have hwritten : (emit true (environment name rows) []).reverse =
      Tag.opening name.toList ++ (writtenRows rows ++ Tag.closing name.toList) := by
    simp [emit, emitRows_eq h]
  rw [linearize, hwritten, ← Text.collapseFrom_start, collapseFrom_opening, collapseFrom_closing]

end SpokenMath.Node
