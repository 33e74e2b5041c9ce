import SpokenMath.Proofs.Markup.Writing
import SpokenMath.Rulebook.General.Environment

/-!
# Rows and cells are found again

The canonical text of an environment joins its cells and its rows with marks, and a rule cuts the
text at every such mark, wherever it stands: an escaped `\&` is cut in two, and an environment in a
cell is cut into rows and cells of the one around it (`splitRows_escapedMark`).

**Theorem (`splitRows_of_parse`).** The rows and cells of an environment are found again exactly if
no cell has an alignment mark or two backslashes next to each other in its text.
-/

namespace SpokenMath

/-- Nowhere are there two backslashes next to each other. -/
def Text.Unbroken (t : Text) : Prop := t.IsChain fun a b => ¬(a = '\\' ∧ b = '\\')

/-- Nothing in a text can be taken for a mark between cells or rows. -/
structure Text.IsWhole (t : Text) : Prop where
  noCell : '&' ∉ t
  noRow : t.Unbroken

namespace Text

variable {s t front : Text}

instance (t : Text) : Decidable t.Unbroken := inferInstanceAs (Decidable (List.IsChain _ t))

instance (t : Text) : Decidable t.IsWhole :=
  decidable_of_iff ('&' ∉ t ∧ t.Unbroken) ⟨fun h => ⟨h.1, h.2⟩, fun h => ⟨h.1, h.2⟩⟩

theorem unbroken_append (h : (∀ c ∈ s.getLast?, c ≠ '\\') ∨ ∀ c ∈ t.head?, c ≠ '\\') :
    (s ++ t).Unbroken ↔ s.Unbroken ∧ t.Unbroken := by
  rw [Unbroken, List.isChain_append, ← and_assoc, and_iff_left]
  · rfl
  · rintro a ha b hb ⟨rfl, rfl⟩
    exact h.elim (fun h => h _ ha rfl) (fun h => h _ hb rfl)

theorem unbroken_of_forall (h : ∀ c ∈ t, c ≠ '\\') : t.Unbroken := by
  refine List.Pairwise.isChain (List.pairwise_of_forall_mem_list ?_)
  rintro a ha b hb ⟨rfl, rfl⟩
  exact h _ ha rfl

theorem Unbroken.part (h : t.Unbroken) (hs : s <:+: t) : s.Unbroken := List.IsChain.infix h hs

/-- What has no marks in it can stand in front without a difference. -/
theorem isWhole_append (h : ∀ c ∈ front, c ≠ '&' ∧ c ≠ '\\') :
    (front ++ t).IsWhole ↔ t.IsWhole := by
  have hbroken : (front ++ t).Unbroken ↔ t.Unbroken := by
    rw [unbroken_append (.inl fun c hc => (h c (List.mem_of_mem_getLast? hc)).2), and_iff_right]
    exact unbroken_of_forall fun c hc => (h c hc).2
  have hcell : '&' ∉ front ++ t ↔ '&' ∉ t := by
    rw [List.mem_append, or_iff_right fun hmem => (h _ hmem).1 rfl]
  exact ⟨fun hw => ⟨hcell.mp hw.noCell, hbroken.mp hw.noRow⟩,
    fun hw => ⟨hcell.mpr hw.noCell, hbroken.mpr hw.noRow⟩⟩

theorem IsWhole.part (h : t.IsWhole) (hs : s <:+: t) : s.IsWhole :=
  ⟨fun hmem => h.noCell (hs.subset hmem), h.noRow.part hs⟩

theorem ne_mark_of_blank {c : Char} (h : isBlank c = true) : c ≠ '&' ∧ c ≠ '\\' := by
  constructor <;> rintro rfl <;> exact absurd h (by decide)

theorem Unbroken.padded (h : s.Unbroken) (hpadded : Padded s t) : t.Unbroken := by
  obtain ⟨lead, gap, hlead, hgap, rfl⟩ := hpadded
  rw [unbroken_append, unbroken_append]
  · exact ⟨unbroken_of_forall fun c hc => (ne_mark_of_blank (hlead c hc)).2, h,
      unbroken_of_forall fun c hc => (ne_mark_of_blank (hgap c hc)).2⟩
  · exact .inr fun c hc => (ne_mark_of_blank (hgap c (List.mem_of_mem_head? hc))).2
  · exact .inl fun c hc => (ne_mark_of_blank (hlead c (List.mem_of_mem_getLast? hc))).2

/-- Cells that are joined have no row mark if no cell has one. -/
theorem unbroken_collapseFrom_join {ss : List Text} (h : ∀ s ∈ ss, s.collapse.Unbroken) (g : Gap) :
    (collapseFrom g (join (spacedMark ['&']) ss)).Unbroken := by
  induction ss generalizing g with
  | nil => exact .nil
  | cons s ss ih =>
    obtain ⟨hs, hss⟩ := List.forall_mem_cons.mp h
    cases ss with
    | nil =>
      have hpadded := padded_collapseFrom (List.forall_mem_nil _) g s
      rw [List.append_nil] at hpadded
      rw [join, List.intercalate_singleton]
      exact hs.padded hpadded
    | cons s' ss =>
      obtain ⟨front, hpadded, -, heq⟩ := collapseFrom_append_spacedMark
        (List.cons_ne_nil '&' []) (by simp [isBlank]) g s (join (spacedMark ['&']) (s' :: ss))
      rw [join, List.intercalate_cons_cons, ← join, List.append_assoc, heq, unbroken_append,
        unbroken_append]
      · exact ⟨hs.padded hpadded, .singleton _, ih hss _⟩
      · exact .inl (by simp)
      · exact .inr (by simp)

end Text

namespace Rulebook

open Text Node

variable {c : Char} {t body w : Text} {ws : List Text}

/-! ## Rows of a text -/

theorem betweenRowMarks_cons (h : ¬(c = '\\' ∧ t.head? = some '\\'))
    (ht : betweenRowMarks t = w :: ws) : betweenRowMarks (c :: t) = (c :: w) :: ws := by
  rw [betweenRowMarks.eq_3]
  · rw [ht]
  · rintro u rfl rfl
    exact h ⟨rfl, rfl⟩

theorem betweenRowMarks_of_unbroken (h : t.Unbroken) : betweenRowMarks t = [t] := by
  induction t with
  | nil => rfl
  | cons c t ih =>
    obtain ⟨hhead, ht⟩ := List.isChain_cons.mp h
    exact betweenRowMarks_cons (fun ⟨hc, hnext⟩ => hhead _ hnext ⟨hc, rfl⟩) (ih ht)

theorem betweenRowMarks_append {front : Text} (h : front.Unbroken)
    (hlast : ∀ c ∈ front.getLast?, isBlank c = true) (back : Text) :
    betweenRowMarks (front ++ (['\\', '\\'] ++ back)) = front :: betweenRowMarks back := by
  induction front with
  | nil => rfl
  | cons c front ih =>
    obtain ⟨hhead, hfront⟩ := List.isChain_cons.mp h
    rw [List.cons_append]
    cases front with
    | nil =>
      have hc : c ≠ '\\' := (ne_mark_of_blank (hlast c rfl)).2
      exact betweenRowMarks_cons (fun h => hc h.1) rfl
    | cons d front =>
      refine betweenRowMarks_cons (fun ⟨hc, hnext⟩ => hhead d rfl ⟨hc, Option.some.inj hnext⟩) ?_
      exact ih hfront fun a ha => hlast a (by rwa [List.getLast?_cons_cons])

/-- No row has a row mark in it, and the first one stands at the front. -/
theorem unbroken_of_mem_betweenRowMarks (t : Text) :
    (∀ w ∈ betweenRowMarks t, w.Unbroken) ∧ ∀ w ∈ (betweenRowMarks t).head?, w <+: t := by
  fun_induction betweenRowMarks t with
  | case1 =>
    exact ⟨List.forall_mem_singleton.mpr .nil, fun w hw => Option.some.inj hw ▸ List.nil_prefix⟩
  | case2 t ih =>
    exact ⟨List.forall_mem_cons.mpr ⟨.nil, ih.1⟩,
      fun w hw => Option.some.inj hw ▸ List.nil_prefix⟩
  | case3 c t _ _ ih =>
    exact ⟨List.forall_mem_singleton.mpr (.singleton c),
      fun w hw => Option.some.inj hw ▸ List.cons_prefix_cons.mpr ⟨rfl, List.nil_prefix⟩⟩
  | case4 c t hmark piece pieces heq ih =>
    rw [heq] at ih
    obtain ⟨hall, hfirst⟩ := ih
    obtain ⟨hpiece, hpieces⟩ := List.forall_mem_cons.mp hall
    have hprefix : piece <+: t := hfirst piece rfl
    refine ⟨List.forall_mem_cons.mpr ⟨List.isChain_cons.mpr ⟨?_, hpiece⟩, hpieces⟩,
      fun w hw => Option.some.inj hw ▸ List.cons_prefix_cons.mpr ⟨rfl, hprefix⟩⟩
    rintro d hd ⟨rfl, rfl⟩
    obtain ⟨r, rfl⟩ := List.head?_eq_some_iff.mp hd
    obtain ⟨u, rfl⟩ := hprefix
    exact hmark _ rfl rfl

theorem split_of_not_mem (h : '&' ∉ t) : Text.split (· == '&') t = [t] := by
  refine split_of_forall fun c hc => beq_eq_false_iff_ne.mpr ?_
  rintro rfl
  exact h hc

/-- Cells are cut at alignment marks. -/
theorem cuts_cells : Cuts ['&'] ('&' ∉ ·) (Text.split (· == '&')) where
  ne_nil := List.cons_ne_nil _ _
  not_blank := by simp [isBlank]
  padded := by
    rintro s _ hs ⟨lead, gap, hlead, hgap, rfl⟩ hmem
    rcases List.mem_append.mp hmem with hmem | hmem
    · exact (ne_mark_of_blank (hlead _ hmem)).1 rfl
    · exact (List.mem_append.mp hmem).elim hs fun hmem => (ne_mark_of_blank (hgap _ hmem)).1 rfl
  one := split_of_not_mem
  more h _ back := by
    rw [List.singleton_append, split_append_cons (by rfl), split_of_not_mem h]
    rfl

/-- Rows are cut at two backslashes. -/
theorem cuts_rows : Cuts ['\\', '\\'] Text.Unbroken betweenRowMarks where
  ne_nil := List.cons_ne_nil _ _
  not_blank := by simp [isBlank]
  padded := Unbroken.padded
  one := betweenRowMarks_of_unbroken
  more := betweenRowMarks_append

/-! ## The text of a cell -/

/-- The text of a cell is made of the trimmed text. -/
theorem cellText_eq_of_trim {s t : Text} (h : s.trim = t.trim) : cellText s = cellText t := by
  rw [cellText, cellText, h]

/-- A minus sign in front does not make a cell whole, or break it. -/
theorem isWhole_cellText : (cellText t).IsWhole ↔ t.trim.IsWhole := by
  unfold cellText
  split
  · next rest heq =>
    have hword : ∀ c ∈ "negative ".toList, c ≠ '&' ∧ c ≠ '\\' := by simp
    have hstart : rest = rest.takeWhile isBlank ++ Text.trimStart rest :=
      (List.takeWhile_append_dropWhile ..).symm
    have hblank : ∀ c ∈ rest.takeWhile isBlank, c ≠ '&' ∧ c ≠ '\\' :=
      fun c hc => ne_mark_of_blank (List.mem_takeWhile_imp hc)
    have hsign : ∀ c ∈ ['-'], c ≠ '&' ∧ c ≠ '\\' := by simp
    rw [isWhole_append hword, heq, ← List.singleton_append, isWhole_append hsign]
    nth_rewrite 2 [hstart]
    rw [isWhole_append hblank]
  · rfl

/-- **Every cell that is found is whole.** -/
theorem isWhole_of_mem_splitRows {row : List Text} (hrow : row ∈ splitRows body) (ht : t ∈ row) :
    t.IsWhole := by
  obtain ⟨line, hline, rfl⟩ := List.mem_map.mp hrow
  obtain ⟨hline, -⟩ := List.mem_filter.mp hline
  obtain ⟨piece, hpiece, rfl⟩ := List.mem_map.mp hline
  obtain ⟨cell, hcell, rfl⟩ := List.mem_map.mp ht
  obtain ⟨hmarks, hpart⟩ := (forall_mem_split _ _).1 cell hcell
  have hwhole : cell.IsWhole :=
    ⟨fun hmem => by simpa using hmarks _ hmem,
      ((unbroken_of_mem_betweenRowMarks body).1 piece hpiece).part
        (hpart.trans (trim_part piece))⟩
  exact isWhole_cellText.mpr (hwhole.part (trim_part cell))

/-! ## Rows of an environment -/

variable {rows : List (List Node)} {row : List Node}

/-- A row without any text has no text in its cells. -/
theorem linearize_eq_nil_of_row (happends : ∀ c ∈ row, c.Appends) (h : linearizeRow row = []) :
    ∀ c ∈ row, c.linearize = [] := by
  rw [linearizeRow_eq happends, ← collapseFrom_start] at h
  cases row with
  | nil => nofun
  | cons c cs =>
    cases cs with
    | nil =>
      refine List.forall_mem_singleton.mpr ?_
      rwa [writtenRow, List.map_singleton, join, List.intercalate_singleton,
        collapseFrom_start] at h
    | cons c' cs =>
      -- There is a mark between two cells.
      obtain ⟨front, -, -, heq⟩ := collapseFrom_append_spacedMark
        (List.cons_ne_nil '&' []) (by simp [isBlank]) .start c.written (writtenRow (c' :: cs))
      rw [writtenRow, List.map_cons, List.map_cons, join, List.intercalate_cons_cons, ← join,
        List.append_assoc, ← List.map_cons, ← writtenRow, heq] at h
      simp at h

/-- The cells of a row are found again if they have no alignment mark in them. -/
theorem map_cellText_split (hne : row ≠ []) (happends : ∀ c ∈ row, c.Appends)
    (h : ∀ c ∈ row, '&' ∉ c.linearize) :
    (Text.split (· == '&') (linearizeRow row)).map cellText =
      row.map fun c => cellText c.linearize := by
  have htrim : (Text.split (· == '&') (linearizeRow row)).map Text.trim = row.map linearize := by
    have hcells : row.map written ≠ [] := by simpa using hne
    have hjoin := cuts_cells.map_trim_join hcells (List.forall_mem_map.mpr h) .start
      (List.forall_mem_nil _)
    rwa [List.append_nil, collapseFrom_start, ← writtenRow, ← linearizeRow_eq happends,
      List.map_map] at hjoin
  obtain ⟨f, hf⟩ := (Function.factorsThrough_iff cellText).mp fun _ _ => cellText_eq_of_trim
  have hcell (c : Node) : cellText c.linearize = f c.linearize := by
    rw [hf, Function.comp_apply, linearize, trim_collapse]
  rw [hf, ← List.map_map, htrim, List.map_map, ← hf]
  exact List.map_congr_left fun c _ => (hcell c).symm

/-- **The rows and cells of an environment are found again exactly if every cell is whole.** -/
theorem splitRows_writtenRows (hne : rows ≠ []) (happends : ∀ row ∈ rows, ∀ c ∈ row, c.Appends) :
    splitRows (Text.spaced (writtenRows rows)) =
        (rows.filter fun row => !(linearizeRow row).isEmpty).map
          (·.map fun c => cellText c.linearize) ↔
      ∀ row ∈ rows, ∀ c ∈ row, c.linearize.IsWhole := by
  constructor
  · intro hfound row hrow c hc
    by_cases hblank : linearizeRow row = []
    · rw [linearize_eq_nil_of_row (happends row hrow) hblank c hc]
      exact ⟨List.not_mem_nil, .nil⟩
    · have hcells : row.map (fun c => cellText c.linearize) ∈
          splitRows (Text.spaced (writtenRows rows)) := by
        rw [hfound]
        exact List.mem_map_of_mem (List.mem_filter.mpr ⟨hrow, by simpa using hblank⟩)
      have hcell := isWhole_of_mem_splitRows hcells (List.mem_map_of_mem hc)
      rwa [isWhole_cellText, linearize, trim_collapse] at hcell
  · intro hwhole
    have hunbroken : ∀ s ∈ rows.map writtenRow, s.collapse.Unbroken := by
      refine List.forall_mem_map.mpr fun row hrow => ?_
      rw [← collapseFrom_start]
      exact unbroken_collapseFrom_join
        (List.forall_mem_map.mpr fun c hc => (hwhole row hrow c hc).noRow) .start
    have hblank : ∀ c ∈ (Gap.solid.afterText (writtenRows rows)).space, isBlank c = true := by
      cases Gap.solid.afterText (writtenRows rows) <;> simp [isBlank_space]
    have hrows : (betweenRowMarks (Text.spaced (writtenRows rows))).map Text.trim =
        rows.map linearizeRow := by
      have hjoin := cuts_rows.map_trim_join (by simpa using hne) hunbroken .solid hblank
      rw [← writtenRows, ← spaced] at hjoin
      rw [hjoin, List.map_map]
      exact List.map_congr_left fun row hrow => (linearizeRow_eq (happends row hrow)).symm
    rw [splitRows, hrows, List.filter_map, List.map_map]
    refine List.map_congr_left fun row hrow => ?_
    obtain ⟨hrow, htext⟩ := List.mem_filter.mp hrow
    refine map_cellText_split ?_ (happends row hrow) fun c hc => (hwhole row hrow c hc).noCell
    rintro rfl
    cases htext

end Rulebook

open Node Rulebook

/-- **The cells that were read are found again exactly if each is whole.** What stands between the
tags of an environment is cut into its rows, without those that have no text, and these into their
cells, if no cell has an alignment mark or two backslashes next to each other in its text; and
otherwise it is not. -/
theorem splitRows_of_parse {limits : ReadLimits} {t : Text} {p : Parsed} {name : String}
    {rows : List (List Node)} (h : parse limits t = .ok p)
    (hnode : .environment name rows ∈ p.tree.nodes) :
    ∃ body, (environment name rows).linearize =
        Tag.opening (Text.spaced name.toList) ++
          (body ++ Tag.closing (Text.spaced name.toList)) ∧
      (splitRows body = (rows.filter fun row => !(linearizeRow row).isEmpty).map
          (·.map fun c => cellText c.linearize) ↔
        ∀ row ∈ rows, ∀ c ∈ row, c.linearize.IsWhole) := by
  have hcells := appends_of_mem_nodes (formed_of_parse h) hnode
  have hregular : (environment name rows).Regular := (formed_of_parse h).regular _ hnode
  exact ⟨_, linearize_environment hcells, splitRows_writtenRows hregular.1 hcells⟩

/-! ## Two tables -/

/-- The rows of an environment. -/
def Node.rows? : Node → Option (List (List Node))
  | environment _ rows => some rows
  | _ => none

/-- What is known of the rows of the only environment in a tree. -/
theorem exists_environment {α : Type} {n : Node} {f : List (List Node) → α} {a : α}
    (h : (n.nodes.filterMap rows?).map f = [a]) :
    ∃ name rows, environment name rows ∈ n.nodes ∧ f rows = a := by
  obtain ⟨rows, hrows, ha⟩ := List.map_eq_singleton_iff.mp h
  have hmem : rows ∈ n.nodes.filterMap rows? := by
    rw [hrows]
    exact List.mem_singleton_self rows
  obtain ⟨m, hm, hsome⟩ := List.mem_filterMap.mp hmem
  cases m with
  | environment name rows' =>
    obtain rfl := Option.some.inj hsome
    exact ⟨name, rows', hm, ha⟩
  | _ => cases hsome

/-- Two rows of two cells, and a row without any text. -/
def twoByTwo : Text := "\\begin\x7bpmatrix\x7d1 & 2 \\\\ \\\\ 3 & 4\\end\x7bpmatrix\x7d".toList

/-- When the rows of this table are found, of which the second has no text. -/
theorem splitRows_of_parse_twoByTwo : ∃ p, parse (.untimed 4) twoByTwo = .ok p ∧
    ∃ name rows, environment name rows ∈ p.tree.nodes ∧ rows.map List.length = [2, 1, 2] ∧
      ∃ body, (environment name rows).linearize =
          Tag.opening (Text.spaced name.toList) ++
            (body ++ Tag.closing (Text.spaced name.toList)) ∧
        (splitRows body = (rows.filter fun row => !(linearizeRow row).isEmpty).map
            (·.map fun c => cellText c.linearize) ↔
          ∀ row ∈ rows, ∀ c ∈ row, c.linearize.IsWhole) := by
  have hread : (parse (.untimed 4) twoByTwo).toOption.map
      (fun p => (p.tree.nodes.filterMap rows?).map (·.map List.length)) = some [[2, 1, 2]] := by
    decide +kernel
  obtain ⟨p, hparse, hp⟩ := exists_parse_of_map hread
  obtain ⟨name, rows, hnode, hlength⟩ := exists_environment hp
  exact ⟨p, hparse, name, rows, hnode, hlength, splitRows_of_parse hparse hnode⟩

/-- Two rows of two cells, one of which has an escaped mark in it. -/
def escapedMark : Text :=
  "\\begin\x7bpmatrix\x7da \\& b & c \\\\ d & e\\end\x7bpmatrix\x7d".toList

/-- **An escaped mark is cut in two**, and a row of two cells is read as a row of three. -/
theorem splitRows_escapedMark : ∃ p, parse (.untimed 4) escapedMark = .ok p ∧
    ∃ name rows, environment name rows ∈ p.tree.nodes ∧ rows.map List.length = [2, 2] ∧
      ∃ body, (environment name rows).linearize =
          Tag.opening (Text.spaced name.toList) ++
            (body ++ Tag.closing (Text.spaced name.toList)) ∧
        splitRows body = [["a \\".toList, ['b'], ['c']], [['d'], ['e']]] := by
  have hread : (parse (.untimed 4) escapedMark).toOption.map
      (fun p => (p.tree.nodes.filterMap rows?).map fun rows =>
        (rows.map List.length, splitRows (Text.spaced (writtenRows rows)))) =
        some [([2, 2], [["a \\".toList, ['b'], ['c']], [['d'], ['e']]])] := by
    decide +kernel
  obtain ⟨p, hparse, hp⟩ := exists_parse_of_map hread
  obtain ⟨name, rows, hnode, hrows⟩ := exists_environment hp
  obtain ⟨hlength, hsplit⟩ := Prod.mk.inj hrows
  exact ⟨p, hparse, name, rows, hnode, hlength, _,
    linearize_environment (appends_of_mem_nodes (formed_of_parse hparse) hnode), hsplit⟩

end SpokenMath
