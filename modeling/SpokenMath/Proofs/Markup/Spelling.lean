import SpokenMath.Markup.Canonical
import SpokenMath.Proofs.Markup.Proper
import SpokenMath.Proofs.Text.Gap

/-!
# The canonical text, from left to right

The canonical text is written onto a reversed text, from which a script takes a space off. For a
proper tree the same text is put together from the texts of the nodes (`spell`), with a space
behind every control word that stands alone and has no script (`pad`).

**Theorem (`Proper.spelled`, `linearize_group`).** The canonical text of a proper tree is the text
of its nodes, collapsed.
-/

namespace SpokenMath.Node

/-- A control word without arguments. -/
def isAlone : Node → Bool
  | command name args optional => isWord name && args.isEmpty && optional.isNone
  | _ => false

/-- What keeps a control word apart from the letters behind it. -/
def pad (n : Node) : Text := if n.isAlone then [' '] else []

theorem pad_of_isAlone {n : Node} (h : n.isAlone = true) : n.pad = [' '] := if_pos h

theorem pad_of_not_isAlone {n : Node} (h : n.isAlone = false) : n.pad = [] :=
  if_neg (by rw [h]; exact Bool.false_ne_true)

mutual

/-- The text of a node. -/
def spell (enclosed : Bool) : Node → Text
  | leaf t => t
  | group cs => if enclosed then spellAll cs else '{' :: (spellAll cs ++ ['}'])
  | command name args optional => '\\' :: (name.toList ++ (spellOptional optional ++ spellArgs args))
  | script base sub sup => spell false base ++ (spellMark '_' sub ++ spellMark '^' sup)
  | environment _ _ => []

/-- The text of nodes one after the other. -/
def spellAll : List Node → Text
  | [] => []
  | n :: ns => spell false n ++ (n.pad ++ spellAll ns)

/-- The text of arguments. -/
def spellArgs : List Node → Text
  | [] => []
  | n :: ns => '{' :: (spell true n ++ (n.pad ++ '}' :: spellArgs ns))

/-- The text of an optional argument. -/
def spellOptional : Option Node → Text
  | none => []
  | some n => '[' :: (spell true n ++ (n.pad ++ [']']))

/-- The text of a script. -/
def spellMark (mark : Char) : Option Node → Text
  | none => []
  | some n => mark :: '{' :: (spell true n ++ (n.pad ++ ['}']))

end

/-- The nodes that are written for a node between delimiters. -/
def contents : Node → List Node
  | group cs => cs
  | n => [n]

theorem spell_true (n : Node) : spell true n ++ n.pad = spellAll n.contents := by
  cases n <;> simp [spell, spellAll, contents, pad, isAlone]

/-- The text of a node between braces. -/
def braces (n : Node) : Text := '{' :: (spellAll n.contents ++ ['}'])

theorem spell_group (cs : List Node) : spell false (group cs) = braces (group cs) := by
  simp [spell, braces, contents]

theorem spellArgs_eq (ns : List Node) : spellArgs ns = ns.flatMap braces := by
  induction ns with
  | nil => rfl
  | cons n ns ih => simp [spellArgs, braces, ih, ← spell_true]

theorem spellOptional_some (n : Node) :
    spellOptional (some n) = '[' :: (spellAll n.contents ++ [']']) := by
  simp [spellOptional, ← spell_true]

theorem spellMark_some (mark : Char) (n : Node) : spellMark mark (some n) = mark :: braces n := by
  simp [spellMark, braces, ← spell_true]

/-! ## Solid nodes -/

theorem solid_of_isBase {t : Text} (h : IsBase t) : t.Solid :=
  Text.solid_of_forall h.ne_nil h.not_blank

theorem solid_braces (n : Node) : n.braces.Solid :=
  Text.solid_delimited (by decide) (by decide) _

theorem solid_spellOptional (o : Option Node) : spellOptional o = [] ∨ (spellOptional o).Solid := by
  cases o with
  | none => exact .inl rfl
  | some n =>
    rw [spellOptional_some]
    exact .inr (Text.solid_delimited (by decide) (by decide) _)

theorem solid_spellArgs (ns : List Node) : spellArgs ns = [] ∨ (spellArgs ns).Solid := by
  rw [spellArgs_eq]
  induction ns with
  | nil => exact .inl rfl
  | cons n ns ih => exact .inr ((solid_braces n).append ih)

theorem solid_spellMark {mark : Char} (hmark : isBlank mark = false) (o : Option Node) :
    spellMark mark o = [] ∨ (spellMark mark o).Solid := by
  cases o with
  | none => exact .inl rfl
  | some n =>
    rw [spellMark_some]
    have hone : Text.Solid [mark] := ⟨⟨mark, rfl, hmark⟩, ⟨mark, rfl, hmark⟩⟩
    exact .inr (hone.append (.inr (solid_braces n)))

theorem solid_name {name : Text} (h : ∀ c ∈ name, isBlank c = false) : Text.Solid ('\\' :: name) :=
  Text.solid_of_forall (List.cons_ne_nil _ _) (List.forall_mem_cons.mpr ⟨by decide, h⟩)

theorem solid_command {name : String} (h : ∀ c ∈ name.toList, isBlank c = false)
    (args : List Node) (optional : Option Node) :
    (spell false (command name args optional)).Solid := by
  rw [spell, ← List.cons_append, ← List.append_assoc]
  exact ((solid_name h).append (solid_spellOptional optional)).append (solid_spellArgs args)

theorem IsWordName.not_blank {name : String} (h : IsWordName name) :
    ∀ c ∈ name.toList, isBlank c = false :=
  fun c hc => isBlank_of_isAlpha (h.2 c hc)

theorem solid_script {base : Node} (h : (spell false base).Solid) (sub sup : Option Node) :
    (spell false (script base sub sup)).Solid := by
  rw [spell, ← List.append_assoc]
  exact (h.append (solid_spellMark (by decide) sub)).append (solid_spellMark (by decide) sup)

/-- A proper node has no blanks at its ends, unless it is a leaf that is no base. -/
theorem Proper.solid {n : Node} (h : n.Proper) (hleaf : ∀ t, n = .leaf t → IsBase t) :
    (spell false n).Solid := by
  induction h with
  | @leaf t => exact solid_of_isBase (hleaf t rfl)
  | @group cs =>
    rw [spell_group]
    exact solid_braces _
  | @sign c _ _ hblank => exact solid_command (by simpa using hblank) [] none
  | known _ hword | unknownBare _ hword | unknownBraces _ hword =>
    exact solid_command hword.not_blank _ _
  | script _ hbase _ _ _ ih => exact solid_script (ih hbase) _ _

/-! ## Writing onto a reversed text -/

theorem dropSpace_of_solid {t : Text} (h : t.Solid) (out : Text) :
    dropSpace (t.reverse ++ out) = t.reverse ++ out := by
  obtain ⟨c, hc, hblank⟩ := h.last
  obtain ⟨r, rfl⟩ := List.getLast?_eq_some_iff.mp hc
  rw [List.reverse_append, List.reverse_singleton, List.singleton_append, List.cons_append]
  unfold dropSpace
  split
  · next heq =>
    obtain ⟨rfl, -⟩ := List.cons.inj heq
    exact absurd hblank (by decide)
  · rfl

/-- A script takes the space away that stands behind its base. -/
theorem dropSpace_spell {n : Node} (h : (spell false n).Solid) (out : Text) :
    dropSpace ((spell false n ++ n.pad).reverse ++ out) = (spell false n).reverse ++ out := by
  unfold pad
  split
  · rw [List.reverse_append]
    rfl
  · rw [List.append_nil]
    exact dropSpace_of_solid h out

/-- What is written for a node is its text. -/
def Spelled (n : Node) : Prop :=
  ∀ enclosed out, emit enclosed n out = (spell enclosed n ++ n.pad).reverse ++ out

theorem emitAll_eq {ns : List Node} (h : ∀ n ∈ ns, n.Spelled) (out : Text) :
    emitAll ns out = (spellAll ns).reverse ++ out := by
  induction ns generalizing out with
  | nil => rfl
  | cons n ns ih =>
    obtain ⟨hn, hns⟩ := List.forall_mem_cons.mp h
    simp [emitAll, spellAll, ih hns, hn false out]

theorem emitArgs_eq {ns : List Node} (h : ∀ n ∈ ns, n.Spelled) (out : Text) :
    emitArgs ns out = (spellArgs ns).reverse ++ out := by
  induction ns generalizing out with
  | nil => rfl
  | cons n ns ih =>
    obtain ⟨hn, hns⟩ := List.forall_mem_cons.mp h
    simp [emitArgs, spellArgs, ih hns, hn true]

theorem emitOptional_eq {o : Option Node} (h : ∀ n ∈ o, n.Spelled) (out : Text) :
    emitOptional o out = (spellOptional o).reverse ++ out := by
  cases o with
  | none => rfl
  | some n => simp [emitOptional, spellOptional, h n rfl true]

theorem emitMark_eq {mark : Char} {o : Option Node} (h : ∀ n ∈ o, n.Spelled) (out : Text) :
    emitMark mark o out = (spellMark mark o).reverse ++ out := by
  cases o with
  | none => rfl
  | some n => simp [emitMark, spellMark, h n rfl true]

theorem spelled_command {name : String} {args : List Node} {optional : Option Node}
    (hargs : ∀ a ∈ args, a.Spelled) (hoptional : ∀ o ∈ optional, o.Spelled) :
    (command name args optional).Spelled := by
  intro enclosed out
  simp only [emit, emitArgs_eq hargs, emitOptional_eq hoptional, spell]
  have halone : (isWord name && args.isEmpty && optional.isNone) =
    (command name args optional).isAlone := rfl
  rw [halone]
  cases h : (command name args optional).isAlone with
  | true =>
    rw [pad_of_isAlone h, if_pos rfl]
    simp
  | false =>
    rw [pad_of_not_isAlone h, if_neg Bool.false_ne_true]
    simp

theorem spelled_leaf (t : Text) : (leaf t).Spelled :=
  fun enclosed out => by simp [emit, spell, pad, isAlone]

theorem spelled_group {cs : List Node} (h : ∀ c ∈ cs, c.Spelled) : (group cs).Spelled := by
  intro enclosed out
  cases enclosed <;> simp [emit, spell, emitAll_eq h, pad, isAlone]

theorem spelled_script {base : Node} {sub sup : Option Node} (hbase : base.Spelled)
    (hsolid : (spell false base).Solid) (hsub : ∀ n ∈ sub, n.Spelled)
    (hsup : ∀ n ∈ sup, n.Spelled) : (script base sub sup).Spelled := by
  intro enclosed out
  rw [emit, hbase, dropSpace_spell hsolid, emitMark_eq hsub, emitMark_eq hsup, spell]
  simp [pad, isAlone]

theorem Proper.spelled {n : Node} (h : n.Proper) : n.Spelled := by
  induction h with
  | @leaf t => exact spelled_leaf t
  | group _ _ ih => exact spelled_group ih
  | sign | unknownBare => exact spelled_command nofun nofun
  | known _ _ _ _ _ _ _ hargs hoptional => exact spelled_command hargs hoptional
  | unknownBraces _ _ _ _ ih => exact spelled_command (by simpa using ih) nofun
  | script hbase hleaf _ _ _ ih ihsub ihsup =>
    exact spelled_script ih (hbase.solid hleaf) ihsub ihsup

/-- **The canonical text of a tree that is written so is the text of its nodes, collapsed.** -/
theorem linearize_group {cs : List Node} (h : (group cs).Spelled) :
    (group cs).linearize = (spellAll cs).collapse := by
  rw [linearize, h, List.append_nil, List.reverse_reverse, spell_true]
  rfl

/-! ## Collapsed nodes -/

/-- The text of a node, collapsed, behind something that is no blank. -/
def line (n : Node) : Text := (spell false n).collapseFrom .solid

/-- The collapsed text of a node between delimiters. -/
def within (n : Node) : Text := (spellAll n.contents).spaced

def lineBraces (n : Node) : Text := '{' :: (n.within ++ ['}'])

def lineOptional (o : Option Node) : Text := o.elim [] fun n => '[' :: (n.within ++ [']'])

def lineMark (mark : Char) (o : Option Node) : Text := o.elim [] fun n => mark :: n.lineBraces

theorem collapseFrom_braces (n : Node) (t : Text) :
    Text.collapseFrom .solid (n.braces ++ t) = n.lineBraces ++ Text.collapseFrom .solid t := by
  rw [braces, List.cons_append, List.append_assoc, List.singleton_append,
    Text.collapseFrom_delimited (by decide) (by decide), lineBraces, within]
  simp

theorem collapseFrom_spellArgs (ns : List Node) :
    Text.collapseFrom .solid (spellArgs ns) = ns.flatMap lineBraces := by
  rw [spellArgs_eq]
  induction ns with
  | nil => rfl
  | cons n ns ih => rw [List.flatMap_cons, collapseFrom_braces, ih, List.flatMap_cons]

theorem collapseFrom_spellOptional (o : Option Node) (t : Text) :
    Text.collapseFrom .solid (spellOptional o ++ t) =
      lineOptional o ++ Text.collapseFrom .solid t := by
  cases o with
  | none => rfl
  | some n =>
    rw [spellOptional_some, List.cons_append, List.append_assoc, List.singleton_append,
      Text.collapseFrom_delimited (by decide) (by decide), lineOptional, Option.elim_some, within]
    simp

theorem collapseFrom_spellMark {mark : Char} (hmark : isBlank mark = false) (o : Option Node)
    (t : Text) : Text.collapseFrom .solid (spellMark mark o ++ t) =
      lineMark mark o ++ Text.collapseFrom .solid t := by
  cases o with
  | none => rfl
  | some n =>
    rw [spellMark_some, List.cons_append, Text.collapseFrom_cons_of_not_blank hmark,
      collapseFrom_braces]
    rfl

theorem line_leaf {t : Text} (h : ∀ c ∈ t, isBlank c = false) : (leaf t).line = t := by
  have hcollapse := Text.collapseFrom_append_of_not_blank h []
  simpa [line, spell] using hcollapse

theorem line_group (cs : List Node) : (group cs).line = (group cs).lineBraces := by
  have hbraces := collapseFrom_braces (group cs) []
  rwa [List.append_nil, Text.collapseFrom_nil, List.append_nil, ← spell_group] at hbraces

theorem line_command {name : String} (h : ∀ c ∈ name.toList, isBlank c = false)
    (args : List Node) (optional : Option Node) :
    (command name args optional).line =
      '\\' :: (name.toList ++ (lineOptional optional ++ args.flatMap lineBraces)) := by
  rw [line, spell, Text.collapseFrom_cons_of_not_blank (by decide),
    Text.collapseFrom_append_of_not_blank h, collapseFrom_spellOptional, collapseFrom_spellArgs]
  rfl

theorem line_script {base : Node} (h : (spell false base).Solid) (sub sup : Option Node) :
    (script base sub sup).line = base.line ++ (lineMark '_' sub ++ lineMark '^' sup) := by
  have hsup : Text.collapseFrom .solid (spellMark '^' sup) = lineMark '^' sup := by
    simpa using collapseFrom_spellMark (by decide) sup []
  rw [line, spell, h.collapseFrom_append, collapseFrom_spellMark (by decide), hsup, line]
  rfl

/-- The text of a node and of what comes next, collapsed. -/
theorem collapseFrom_spellAll_cons {n : Node} (h : (spell false n).Solid) (ns : List Node)
    (g : Gap) : Text.collapseFrom g (spellAll (n :: ns)) =
      g.space ++ n.line ++ Text.collapseFrom (if n.isAlone then .blank else .solid) (spellAll ns) := by
  rw [spellAll, h.collapseFrom_append, line]
  congr 1
  cases halone : n.isAlone with
  | true => rw [pad_of_isAlone halone]; rfl
  | false => rw [pad_of_not_isAlone halone]; rfl

end SpokenMath.Node
