import SpokenMath.Proofs.Markup.Course
import SpokenMath.Proofs.Markup.DepthLimit
import SpokenMath.Proofs.Markup.Order
import SpokenMath.Proofs.Markup.Proper

/-!
# Every tree is well formed

Markup may be as malformed as it likes, the tree of it is not: arguments that are missing are
supplied, groups and environments are closed, empty rows at the end are dropped, and the base of a
script is cut off the text in front of it.

**Theorem (`wellFormed_of_parse`).** Every node of a tree has the children that go with it
(`Regular`), and no leaf has a character with a meaning in the markup, but for the name behind a
stray `end`.
-/

namespace SpokenMath

namespace Node

/-! ## Well-formed nodes -/

def isLeaf : Node → Bool
  | leaf _ => true
  | _ => false

/-- Neighbouring leaves are one leaf. -/
def Parted (n m : Node) : Prop := n.isLeaf = false ∨ m.isLeaf = false

/-- What may stand in an environment. -/
def IsCell (n : Node) : Prop := ∃ cs, n = group cs

/-- A command has the arguments of its shape. A stray `end` has the name behind it, and a command
without a shape has one argument at most and needs a word for its name to have that. -/
def Furnished (name : String) (args : List Node) (optional : Option Node) : Prop :=
  if name = "end" then (∃ t, args = [leaf t]) ∧ optional = none
  else match Shape.ofCommand? name with
    | some shape => args.length = shape.args ∧ (optional ≠ none → shape.optional = true)
    | none => args.length ≤ 1 ∧ optional = none ∧ (¬IsWordName name → args = [])

/-- The children of a node go with it. -/
def Regular : Node → Prop
  | leaf _ => True
  | group cs => cs.IsChain Parted
  | command name args optional =>
    name ∉ ["begin", "left", "right", "middle"] ∧ Furnished name args optional
  | script base sub sup => (sub ≠ none ∨ sup ≠ none) ∧ ∀ t, base = leaf t → IsBase t
  | environment _ rows =>
    rows ≠ [] ∧ (∀ row ∈ rows, row ≠ [] ∧ ∀ c ∈ row, c.IsCell) ∧
      ∀ row ∈ rows.getLast?, (∀ c ∈ row, c = group []) → rows = [row]

/-- The nodes that do not stand in the argument of a stray `end`. -/
def outsideEnd (n : Node) : List Node := n.preorder fun m => m.commandName? != some "end"

/-- A tree that is made of regular nodes and of leaves with literal text. -/
inductive Formed : Node → Prop
  | leaf {t} (hliteral : ∀ c ∈ t, IsLiteral c) : Formed (.leaf t)
  | strayEnd (t : Text) : Formed (.command "end" [.leaf t] none)
  | inner {n} (hregular : n.Regular) (hleaf : n.isLeaf = false)
      (hchildren : ∀ c ∈ n.children, Formed c) : Formed n

theorem Formed.regular {n : Node} (h : n.Formed) : ∀ m ∈ n.nodes, m.Regular := by
  induction h with
  | leaf => exact forall_nodes_iff.mpr ⟨trivial, nofun⟩
  | strayEnd t =>
    have hend : (command "end" [Node.leaf t] none).Regular := ⟨by decide, ⟨t, rfl⟩, rfl⟩
    refine forall_nodes_iff.mpr ⟨hend, List.forall_mem_singleton.mpr ?_⟩
    exact forall_nodes_iff.mpr ⟨trivial, nofun⟩
  | inner hregular _ _ ih => exact forall_nodes_iff.mpr ⟨hregular, ih⟩

theorem Formed.literal {n : Node} (h : n.Formed) {t : Text} (ht : Node.leaf t ∈ n.outsideEnd) :
    ∀ c ∈ t, IsLiteral c := by
  induction h with
  | leaf hliteral =>
    obtain rfl := Node.leaf.inj (List.mem_singleton.mp ht)
    exact hliteral
  | strayEnd => exact absurd (List.mem_singleton.mp ht) nofun
  | @inner n _ hleaf _ ih =>
    rw [outsideEnd, preorder_eq] at ht
    rcases List.mem_cons.mp ht with rfl | ht
    · cases hleaf
    · split at ht
      · obtain ⟨c, hc, ht⟩ := List.mem_flatMap.mp ht
        exact ih c hc ht
      · cases ht

theorem formed_group {cs : List Node} (hcs : ∀ c ∈ cs, c.Formed) (hparted : cs.IsChain Parted) :
    (group cs).Formed :=
  .inner hparted rfl hcs

theorem formed_emptyGroup : (group []).Formed := formed_group (List.forall_mem_nil _) .nil

/-- Nothing without arguments needs more than a name that is not taken. -/
theorem formed_sign {c : Char} (halpha : c.isAlpha = false) :
    (bare (String.singleton c)).Formed := by
  have hword : ¬IsWordName (String.singleton c) := fun hname => by
    rw [hname.2 c (by simp)] at halpha
    cases halpha
  have hwords : ∀ name ∈ ["end", "begin", "left", "right", "middle"],
      name.toList ≠ [] ∧ name.toList.all Char.isAlpha = true := by decide
  have htaken : ∀ name ∈ ["end", "begin", "left", "right", "middle"],
      String.singleton c ≠ name := by
    rintro name hname rfl
    exact hword ⟨(hwords _ hname).1, List.all_eq_true.mp (hwords _ hname).2⟩
  obtain ⟨hend, hother⟩ := List.forall_mem_cons.mp htaken
  refine .inner ⟨fun hmem => hother _ hmem rfl, ?_⟩ rfl (List.forall_mem_nil _)
  rw [Furnished, if_neg hend]
  split
  · next shape hshape =>
    refine ⟨?_, fun hnone => absurd rfl hnone⟩
    have hnone : ¬1 ≤ shape.args := fun hsome => hword (isWordName_of_shape hshape hsome)
    exact (Nat.lt_one_iff.mp (Nat.lt_of_not_le hnone)).symm
  · exact ⟨Nat.zero_le 1, rfl, fun _ => rfl⟩

end Node

open Node

namespace Reading

/-! ## Nodes in a row -/

/-- Nodes that may stand next to each other, from either end. -/
structure Lined (ns : List Node) : Prop where
  formed : ∀ n ∈ ns, n.Formed
  parted : ns.IsChain Parted

namespace Lined

variable {n : Node} {ns : List Node}

theorem nil : Lined [] := ⟨List.forall_mem_nil _, .nil⟩

theorem tail (h : Lined (n :: ns)) : Lined ns :=
  ⟨(List.forall_mem_cons.mp h.formed).2, h.parted.tail⟩

theorem reverse (h : Lined ns) : Lined ns.reverse where
  formed n hn := h.formed n (List.mem_reverse.mp hn)
  parted := List.isChain_reverse.mpr (h.parted.imp fun _ _ => Or.symm)

theorem group (h : Lined ns) : (Node.group ns).Formed := formed_group h.formed h.parted

/-- A node that is no leaf may come next. -/
theorem cons (h : Lined ns) (hn : n.Formed ∧ n.isLeaf = false) : Lined (n :: ns) :=
  ⟨List.forall_mem_cons.mpr ⟨hn.1, h.formed⟩, h.parted.cons fun _ _ => .inl hn.2⟩

theorem append {ms : List Node} (h : Lined ns) (hms : ∀ m ∈ ms, m.Formed ∧ m.isLeaf = false) :
    Lined (ms ++ ns) := by
  induction ms with
  | nil => exact h
  | cons m ms ih =>
    obtain ⟨hm, hms⟩ := List.forall_mem_cons.mp hms
    exact (ih hms).cons hm

/-- The text of a leaf makes no difference to the nodes beside it. -/
theorem leaf {t u : Text} (h : Lined (.leaf t :: ns)) (hu : ∀ c ∈ u, IsLiteral c) :
    Lined (.leaf u :: ns) where
  formed := List.forall_mem_cons.mpr ⟨.leaf hu, h.tail.formed⟩
  parted := h.parted.tail.cons (List.isChain_cons.mp h.parted).1

theorem leaf_literal {t : Text} (h : Lined (.leaf t :: ns)) : ∀ c ∈ t, IsLiteral c :=
  (h.formed (.leaf t) List.mem_cons_self).literal (List.mem_singleton_self _)

theorem pushText {run : Text} (h : Lined ns) (hrun : ∀ c ∈ run, IsLiteral c) :
    Lined (pushText run ns) := by
  unfold Reading.pushText
  split
  · next before ns => exact h.leaf (List.forall_mem_append.mpr ⟨h.leaf_literal, hrun⟩)
  · next hleaf =>
    refine ⟨List.forall_mem_cons.mpr ⟨.leaf hrun, h.formed⟩, h.parted.cons fun n hn => .inr ?_⟩
    obtain ⟨ns, rfl⟩ := List.head?_eq_some_iff.mp hn
    cases n with
    | leaf t => exact absurd rfl (hleaf t ns)
    | _ => rfl

end Lined

/-- The base of a script is cut off, and what is left stays in its place. -/
theorem Takes.lined {acc rest : List Node} {base : Node} (h : Takes acc base rest)
    (hacc : Lined acc) : base.Formed ∧ (∀ t, base = .leaf t → IsBase t) ∧ Lined rest := by
  induction h with
  | nothing => exact ⟨formed_emptyGroup, nofun, .nil⟩
  | blank _ _ ih => exact ih hacc.tail
  | @text front t gap acc hbase =>
    obtain ⟨hfront, hbehind⟩ := List.forall_mem_append.mp hacc.leaf_literal
    have ht := (List.forall_mem_append.mp hbehind).1
    refine ⟨.leaf ht, fun u hu => Node.leaf.inj hu ▸ hbase, ?_⟩
    split
    · exact hacc.tail
    · exact hacc.leaf hfront
  | @node n acc hleaf =>
    exact ⟨hacc.formed n List.mem_cons_self, fun t ht => absurd ht (hleaf t), hacc.tail⟩

/-! ## Rows of cells -/

theorem dropEmptyRows_ne_nil {rows : List (List Node)} (h : rows ≠ []) :
    dropEmptyRows rows ≠ [] := by
  fun_induction dropEmptyRows rows with
  | case1 row before rows hempty ih => exact ih (List.cons_ne_nil before rows)
  | case2 => exact List.cons_ne_nil _ _
  | case3 => exact h

/-- The last row has something in it unless it is the only one. -/
theorem eq_singleton_of_dropEmptyRows {row : List Node} {rows rest : List (List Node)}
    (h : dropEmptyRows rows = row :: rest) (hempty : ∀ c ∈ row, c = .group []) : rest = [] := by
  have hall : row.all isEmptyGroup = true :=
    List.all_eq_true.mpr fun c hc => by rw [hempty c hc]; rfl
  fun_induction dropEmptyRows rows with
  | case1 _ _ _ _ ih => exact ih h
  | case2 last before rows hfull =>
    obtain ⟨rfl, -⟩ := List.cons.inj h
    exact absurd hall hfull
  | case3 rows hshort =>
    subst h
    cases rest with
    | nil => rfl
    | cons before rest => exact absurd rfl (hshort row before rest)

/-- A cell with what stands in it. -/
def Filled (c : Node) : Prop := c.Formed ∧ c.IsCell

theorem Lined.cell {ns : List Node} (h : Lined ns) : Filled (cell ns) := by
  refine ⟨Lined.group ?_, _, rfl⟩
  split
  · exact .nil
  · exact h

/-- One more row, the last cell of which has been read. -/
theorem forall_row {above : List (List Node)} {row : List Node} {c : Node}
    (habove : ∀ r ∈ above, r ≠ [] ∧ ∀ c ∈ r, Filled c) (hc : Filled c)
    (hrow : ∀ c ∈ row, Filled c) :
    ∀ r ∈ (c :: row).reverse :: above, r ≠ [] ∧ ∀ c ∈ r, Filled c := by
  refine List.forall_mem_cons.mpr ⟨⟨by simp, fun d hd => ?_⟩, habove⟩
  exact List.forall_mem_cons.mpr ⟨hc, hrow⟩ d (List.mem_reverse.mp hd)

/-- Rows with a cell at least are an environment. -/
theorem formed_table {name : String} {rows : List (List Node)} (hrows : rows ≠ [])
    (h : ∀ row ∈ rows, row ≠ [] ∧ ∀ c ∈ row, Filled c) :
    (table name rows).Formed ∧ (table name rows).isLeaf = false := by
  have hkept : ∀ row ∈ (dropEmptyRows rows).reverse, row ∈ rows := fun row hrow =>
    mem_of_mem_dropEmptyRows (List.mem_reverse.mp hrow)
  refine ⟨.inner ⟨?_, ?_, ?_⟩ rfl ?_, rfl⟩
  · exact fun hnil => dropEmptyRows_ne_nil hrows (List.reverse_eq_nil_iff.mp hnil)
  · intro row hrow
    obtain ⟨hne, hcells⟩ := h row (hkept row hrow)
    exact ⟨hne, fun c hc => (hcells c hc).2⟩
  · intro row hrow hempty
    rw [List.getLast?_reverse] at hrow
    obtain ⟨rest, hrest⟩ := List.head?_eq_some_iff.mp hrow
    rw [hrest, eq_singleton_of_dropEmptyRows hrest hempty]
    rfl
  · intro c hc
    obtain ⟨row, hrow, hc⟩ := List.mem_flatten.mp hc
    exact ((h row (hkept row hrow)).2 c hc).1

/-! ## Along the course -/

/-- What a task makes of tokens of a text. -/
def Task.Forms : Task → List Token → List Node → Prop
  | nodes _ acc, _, ns => Lined acc → Lined ns
  | group, _, ns => ∀ n ∈ ns, n.Formed ∧ n.isLeaf = false
  | argument, _, ns => ∀ n ∈ ns, n.Formed
  | optional allowed, _, ns => ∀ n ∈ ns, n.Formed ∧ allowed = true
  | command name, _, ns => IsWordName name → ∀ n ∈ ns, n.Formed ∧ n.isLeaf = false
  | arguments k, _, ns => ns.length = k ∧ ∀ n ∈ ns, n.Formed
  | rows _ above row, _, ns =>
    (∀ r ∈ above, r ≠ [] ∧ ∀ c ∈ r, Filled c) → (∀ c ∈ row, Filled c) →
      ∀ n ∈ ns, n.Formed ∧ n.isLeaf = false
  | scripts base sub sup, ts, ns =>
    base.Formed → (∀ t, base = leaf t → IsBase t) → (∀ s ∈ sub.toList, s.Formed) →
      (∀ s ∈ sup.toList, s.Formed) → sub ≠ none ∨ sup ≠ none ∨ startsScript ts sub sup →
        ∀ n ∈ ns, n.Formed ∧ n.isLeaf = false

/-- A command that is neither an environment nor sizes a delimiter. -/
theorem formed_command {name : String} {args : List Node} {o : Option Node}
    (hname : IsOrdinary name) (hfurnished : Furnished name args o) (hargs : ∀ a ∈ args, a.Formed)
    (hoptional : ∀ n ∈ o.toList, n.Formed) : (Node.command name args o).Formed := by
  refine .inner ⟨fun hmem => ?_, hfurnished⟩ rfl (List.forall_mem_append.mpr ⟨hoptional, hargs⟩)
  rcases List.mem_cons.mp hmem with hbegin | hsizer
  · exact hname.1 hbegin
  · exact hname.2.2 (by simpa [IsSizer] using hsizer)

theorem Course.forms {levels : Nat} {task : Task} {ts rest : List Token} {ns : List Node}
    {said : List Notice} (h : Course levels task ts ns rest said) (hts : ∀ tok ∈ ts, tok.Cut) :
    task.Forms ts ns := by
  induction h with
  | atEnd | closed | cellEnd => exact Lined.reverse
  | strayBrace _ _ _ ih => exact ih (List.forall_mem_cons.mp hts).2
  | literal hrun _ ih =>
    obtain ⟨htok, hts⟩ := List.forall_mem_cons.mp hts
    exact fun hacc => ih hts (hacc.pushText (literal_of_cut hrun htok).2.1)
  | braces hgroup _ ih ih' =>
    have hts := (List.forall_mem_cons.mp hts).2
    have hn := List.forall_mem_singleton.mp (ih hts)
    exact fun hacc => ih' (hgroup.forall_rest Token.lasting_cut hts) (hacc.cons hn)
  | sign _ ih =>
    obtain ⟨⟨halpha, -⟩, hts⟩ := List.forall_mem_cons.mp hts
    exact fun hacc => ih hts (hacc.cons ⟨formed_sign halpha, rfl⟩)
  | word _ hword _ ih ih' =>
    obtain ⟨hname, hts⟩ := List.forall_mem_cons.mp hts
    exact fun hacc =>
      ih' (hword.forall_rest Token.lasting_cut hts) (hacc.append (ih hts hname))
  | @marks _ _ _ tok ts _ _ _ _ _ _ hmark hscripts _ ih ih' =>
    intro hacc
    obtain ⟨hbase, hleaf, hrest⟩ := (takes_popBase _).lined hacc
    have hstarts : startsScript (tok :: ts) none none :=
      hmark.imp (fun h => ⟨congrArg some h, rfl⟩) fun h => ⟨congrArg some h, rfl⟩
    have hn := List.forall_mem_singleton.mp
      (ih hts hbase hleaf (List.forall_mem_nil _) (List.forall_mem_nil _) (.inr (.inr hstarts)))
    exact ih' (hscripts.forall_rest Token.lasting_cut hts) (hrest.cons hn)
  | group _ ih => exact List.forall_mem_singleton.mpr ⟨(ih hts .nil).group, rfl⟩
  | argBlank _ _ ih => exact ih (List.forall_mem_cons.mp hts).2
  | @argChar _ run c run' _ hrun =>
    have hc : c ∈ run.trimStart := hrun ▸ List.mem_cons_self
    have hplain := (List.forall_mem_cons.mp hts).1.2 c (List.dropWhile_subset isBlank hc)
    exact List.forall_mem_singleton.mpr (.leaf (List.forall_mem_singleton.mpr (.inl hplain)))
  | argGroup _ ih => exact fun n hn => (ih (List.forall_mem_cons.mp hts).2 n hn).1
  | @argWord _ _ _ _ _ o _ _ ih =>
    obtain ⟨hname, hts⟩ := List.forall_mem_cons.mp hts
    refine List.forall_mem_singleton.mpr ?_
    cases o with
    | none => exact formed_emptyGroup
    | some n => exact (ih hts hname n List.mem_cons_self).1
  | argSign => exact List.forall_mem_singleton.mpr (formed_sign (List.forall_mem_cons.mp hts).1.1)
  | argMissing => exact List.forall_mem_singleton.mpr formed_emptyGroup
  | @brackets _ _ ts' _ _ _ hopen _ ih =>
    have hbehind : ∀ tok ∈ ts', tok.Cut := fun tok htok =>
      hts tok ((skipBlank_suffix _).subset (hopen ▸ List.mem_cons_of_mem _ htok))
    exact List.forall_mem_singleton.mpr ⟨(ih hbehind .nil).group, rfl⟩
  | noBrackets => exact List.forall_mem_nil _
  | @environment _ ts _ _ _ _ _ _ _ _ _ hoptional hargs _ _ _ ih =>
    have hbehind : ∀ tok ∈ (bracedName ts).2, tok.Cut := fun tok htok =>
      hts tok ((bracedName_suffix _).subset htok)
    have hrows := hargs.forall_rest Token.lasting_cut
      (hoptional.forall_rest Token.lasting_cut hbehind)
    exact fun _ => ih hrows (List.forall_mem_nil _) (List.forall_mem_nil _)
  | strayEnd => exact fun _ => List.forall_mem_singleton.mpr ⟨.strayEnd _, rfl⟩
  | sizer => exact fun _ => List.forall_mem_nil _
  | @known _ _ shape _ _ _ _ _ _ o hname hshape hoptional _ ih ih' =>
    obtain ⟨hlength, hargs⟩ := ih' (hoptional.forall_rest Token.lasting_cut hts)
    have hallowed : o ≠ none → shape.optional = true := fun hsome => by
      obtain ⟨n, rfl⟩ := Option.ne_none_iff_exists'.mp hsome
      exact (ih hts n List.mem_cons_self).2
    refine fun _ => List.forall_mem_singleton.mpr ⟨formed_command hname ?_ hargs ?_, rfl⟩
    · rw [Furnished, if_neg hname.2.1, hshape]
      exact ⟨hlength, hallowed⟩
    · exact fun n hn => (ih hts n hn).1
  | unknownBraces hname hshape _ ih =>
    have hn := (List.forall_mem_singleton.mp (ih (List.forall_mem_cons.mp hts).2)).1
    refine fun hword => List.forall_mem_singleton.mpr ⟨formed_command hname ?_
      (List.forall_mem_singleton.mpr hn) (List.forall_mem_nil _), rfl⟩
    rw [Furnished, if_neg hname.2.1, hshape]
    exact ⟨Nat.le_refl 1, rfl, fun hnot => absurd hword hnot⟩
  | unknownBare hname hshape =>
    refine fun _ => List.forall_mem_singleton.mpr ⟨formed_command hname ?_
      (List.forall_mem_nil _) (List.forall_mem_nil _), rfl⟩
    rw [Furnished, if_neg hname.2.1, hshape]
    exact ⟨Nat.zero_le 1, rfl, fun _ => rfl⟩
  | noArguments => exact ⟨rfl, List.forall_mem_nil _⟩
  | moreArguments harg _ ih ih' =>
    obtain ⟨hlength, hns⟩ := ih' (harg.forall_rest Token.lasting_cut hts)
    exact ⟨congrArg (· + 1) hlength,
      List.forall_mem_cons.mpr ⟨List.forall_mem_singleton.mp (ih hts), hns⟩⟩
  | nextCell hcell _ ih ih' =>
    have hrest := (List.forall_mem_cons.mp (hcell.forall_rest Token.lasting_cut hts)).2
    exact fun habove hrow =>
      ih' hrest habove (List.forall_mem_cons.mpr ⟨(ih hts .nil).cell, hrow⟩)
  | nextRow hcell _ ih ih' =>
    have hrest := (List.forall_mem_cons.mp (hcell.forall_rest Token.lasting_cut hts)).2
    exact fun habove hrow =>
      ih' hrest (forall_row habove (ih hts .nil).cell hrow) (List.forall_mem_nil _)
  | lastCell _ _ _ _ ih | unclosed _ _ ih =>
    exact fun habove hrow => List.forall_mem_singleton.mpr
      (formed_table (List.cons_ne_nil _ _) (forall_row habove (ih hts .nil).cell hrow))
  | subscript harg _ ih ih' =>
    have hts := (List.forall_mem_cons.mp hts).2
    exact fun hbase hleaf _ hsup _ =>
      ih' (harg.forall_rest Token.lasting_cut hts) hbase hleaf (ih hts) hsup (.inl nofun)
  | superscript harg _ ih ih' =>
    have hts := (List.forall_mem_cons.mp hts).2
    exact fun hbase hleaf hsub _ _ =>
      ih' (harg.forall_rest Token.lasting_cut hts) hbase hleaf hsub (ih hts) (.inr (.inl nofun))
  | scripted hmark =>
    intro hbase hleaf hsub hsup hsome
    have hsome := hsome.imp_right fun h => h.resolve_right hmark
    exact List.forall_mem_singleton.mpr ⟨.inner ⟨hsome, hleaf⟩ rfl
      (List.forall_mem_cons.mpr ⟨hbase, List.forall_mem_append.mpr ⟨hsub, hsup⟩⟩), rfl⟩

end Reading

open Reading

theorem formed_of_parse {limits : ReadLimits} {t : Text} {p : Parsed}
    (h : parse limits t = .ok p) : p.tree.Formed := by
  obtain ⟨ns, rest, said, htree, -, hcourse⟩ := course_of_parse h
  rw [htree]
  exact (hcourse.forms cut_of_mem_tokenize .nil).group

/-- **Every tree is well formed**, whatever the text and the limits. -/
theorem wellFormed_of_parse {limits : ReadLimits} {t : Text} {p : Parsed}
    (h : parse limits t = .ok p) :
    (∀ n ∈ p.tree.nodes, n.Regular) ∧
      ∀ u, leaf u ∈ p.tree.outsideEnd → ∀ c ∈ u, c ∉ ['\\', '{', '}', '_', '^', '&'] := by
  have hformed := formed_of_parse h
  refine ⟨hformed.regular, fun u hu c hc => ?_⟩
  rcases hformed.literal hu c hc with hplain | rfl | rfl
  · rintro hmark
    simp_all [Token.isPlain, Token.isSpecial]
  · decide
  · decide

/-- A character as an argument, a digit of what is left as a base, and a stray `end`. -/
theorem wellFormed_of_parse_vector :
    ∃ p, parse (.untimed 1) "\\vec 12^b\\end\x7bq\x7d".toList = .ok p ∧
      (∀ n ∈ p.tree.nodes, n.Regular) ∧
      ∀ u, leaf u ∈ p.tree.outsideEnd → ∀ c ∈ u, c ∉ ['\\', '{', '}', '_', '^', '&'] := by
  have hread : (parse (.untimed 1) "\\vec 12^b\\end\x7bq\x7d".toList).toOption.map (·.notices) =
      some [.strayEnd "q"] := by decide +kernel
  obtain ⟨p, hparse, -⟩ := exists_parse_of_map hread
  exact ⟨p, hparse, wellFormed_of_parse hparse⟩

end SpokenMath
