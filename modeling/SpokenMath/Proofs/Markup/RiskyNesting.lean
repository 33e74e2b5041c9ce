import SpokenMath.Proofs.Markup.Milestone
import SpokenMath.Proofs.Markup.Base
import SpokenMath.Proofs.Markup.Course
import SpokenMath.Proofs.Markup.DepthLimit
import SpokenMath.Proofs.Screening.Accepted

/-!
# How deep risky commands are nested

The screening never sees a tree. It bounds the streak of risky commands along the text, each deeper
in the delimiters than the one before.

**Theorem (`secure_of_parse`).** In the tree of a text with matching delimiters, no way down that
leads passes through more risky commands than the longest streak of the text has.

**Theorem (`countP_isRisky_le_of_check`).** So it is with what the screening has accepted, as long
as cleaning keeps the delimiters and the risky commands.

The proof is an induction over the course of the reading, with the tokens ahead followed along.
Whatever a task reads, each milestone that holds before it holds behind it (`Watches`). A group is
read behind one more delimiter of the frame, and its closer gives the frame back. A risky command is
a milestone of its own for its arguments, and where it stands deeper than the milestone before, its
streak is one longer. Behind an environment no milestone is left.
-/

namespace SpokenMath

open Node

namespace Reading

variable {limit : Nat}

/-! ## Tasks that are watched -/

/-- The token that has been taken when a task is begun. -/
def Task.front : Task → List Token
  | group => [.openBrace]
  | command name => [.command name]
  | _ => []

/-- What a task has read already. -/
def Task.behind : Task → List Node
  | nodes _ acc => acc.reverse
  | rows _ above row => above.flatten ++ row
  | scripts base sub sup => [.script base sub sup]
  | _ => []

/-- The delimiter behind which nodes are read up to its closer. -/
def Stop.opener? : Stop → Option Char
  | .atBrace => some '{'
  | .atBracket => some '['
  | _ => none

theorem Stop.opener?_eq_some_iff {stop : Stop} {o : Char} : stop.opener? = some o ↔
    (stop = .atBrace ∧ o = '{') ∨ (stop = .atBracket ∧ o = '[') := by
  cases stop <;> simp [opener?, eq_comm]

/-- The milestones that a task keeps. Nodes are read behind the innermost delimiter of a milestone,
and environments keep none. -/
def Task.Keeps (m : Milestone) : Task → Prop
  | nodes stop _ => m.deep = true ∧ ∃ o, stop.opener? = some o ∧ m.frame.head? = some o
  | scripts _ _ _ => m.deep = true
  | rows _ _ _ => False
  | _ => True

/-- What is left of the milestone at the end of a task. -/
def Task.leave (m : Milestone) : Task → Milestone
  | nodes _ _ => m.leave
  | _ => m

/-- A task that leads from one trail to another adds nothing to secure trees that is not secure, and
the milestones that hold before it hold behind it. -/
structure Watches (limit : Nat) (task : Task) (ns : List Node) (r r' : Trail) : Prop where
  secure : (∀ n ∈ task.behind, n.Secure limit) → ∀ n ∈ ns, n.Secure limit
  holds : ∀ m : Milestone, m.Valid limit → task.Keeps m → m.Holds limit task.behind r →
    (task.leave m).Holds limit ns r'

/-- Where the tokens ahead can be followed, those left over can be followed, and the task watches
what it reads. -/
def Guards (limit : Nat) (task : Task) (ts : List Token) (ns : List Node) (rest : List Token) :
    Prop :=
  ∀ r : Trail, r.Admits limit (task.front ++ ts) →
    ∃ r' : Trail, r'.Admits limit rest ∧ Watches limit task ns r r'

/-- A task that begins with nothing behind it. -/
def Task.IsPart : Task → Prop
  | nodes _ _ | rows _ _ _ | scripts _ _ _ => False
  | _ => True

theorem Watches.part {task : Task} {ns : List Node} {r r' : Trail}
    (h : Watches limit task ns r r') (htask : task.IsPart) : (∀ n ∈ ns, n.Secure limit) ∧
      ∀ m : Milestone, m.Valid limit → r.At m → m.Holds limit ns r' := by
  cases task with
  | nodes | rows | scripts => exact htask.elim
  | _ =>
    exact ⟨h.secure (List.forall_mem_nil _), fun m hm hr =>
      h.holds m hm trivial (Milestone.holds_nil.mpr hr)⟩

theorem watches_part {task : Task} (htask : task.IsPart) {ns : List Node} {r r' : Trail}
    (hsecure : ∀ n ∈ ns, n.Secure limit)
    (hholds : ∀ m : Milestone, m.Valid limit → r.At m → m.Holds limit ns r') :
    Watches limit task ns r r' := by
  cases task with
  | nodes | rows | scripts => exact htask.elim
  | _ => exact ⟨fun _ => hsecure, fun m hm _ hr => hholds m hm (Milestone.holds_nil.mp hr)⟩

/-! ## Nodes that are added -/

section

variable {m : Milestone} {r : Trail}

theorem holds_leaf (t : Text) (hm : m.Valid limit) (hr : r.At m) : m.Holds limit [.leaf t] r :=
  Milestone.holds_singleton (fun _ => bounded_leaf t hm.streak) fun _ => hr

/-- A way leads past a leaf. -/
theorem at_of_holds_leaf {t : Text} (hdeep : m.deep = true) (h : m.Holds limit [.leaf t] r) :
    r.At m := by
  refine h.kept (List.forall_mem_singleton.mpr ?_)
  rw [hdeep]
  exact passable_deep.mpr (clear_leaf t)

theorem holds_emptyGroup (hm : m.Valid limit) (hr : r.At m) : m.Holds limit [.group []] r :=
  Milestone.holds_singleton (fun _ => bounded_group.mpr ⟨hm.streak, trivial⟩) fun _ => hr

theorem secure_emptyGroup : (Node.group []).Secure limit := secure_of_children rfl nofun

/-- A name of one character is no risky command. -/
theorem not_risky_sign (c : Char) : riskyCommands.contains (String.singleton c) = false := by
  have hlong : ∀ name ∈ riskyCommands, name.toList.length ≠ 1 := by decide
  refine Bool.eq_false_iff.mpr fun hrisky => ?_
  exact hlong _ (List.contains_iff_mem.mp hrisky) (by simp)

theorem secure_bare {name : String} (hrisky : riskyCommands.contains name = false) :
    (Node.bare name).Secure limit :=
  secure_of_children hrisky nofun

theorem holds_bare {name : String} (hrisky : riskyCommands.contains name = false)
    (hm : m.Valid limit) (hr : r.At m) : m.Holds limit [.bare name] r := by
  refine Milestone.holds_singleton (fun _ => bounded_command.mpr ⟨?_, trivial⟩) fun _ => hr
  rw [hrisky]
  exact hm.streak

end

/-! ## Scripts -/

section

variable {base x : Node} {sub sup : Option Node} {ts ts' rest : List Token} {ns : List Node}

theorem secure_script (hbase : base.Secure limit) : (Node.script base none none).Secure limit :=
  secure_of_children rfl (List.forall_mem_singleton.mpr hbase)

theorem holds_script {m : Milestone} {r : Trail} (hdeep : m.deep = true)
    (h : m.Holds limit [base] r) : m.Holds limit [.script base none none] r := by
  have hbounded := boundedBy_singleton.mp h.bounded (.inl hdeep)
  refine Milestone.holds_singleton (fun _ => ?_) fun hscript => h.kept ?_
  · exact bounded_script.mpr ⟨hbounded, fun _ _ => nofun, fun _ _ => nofun⟩
  · exact List.forall_mem_singleton.mpr (hscript.child rfl List.mem_cons_self)

/-- One more script is hung on a base. -/
theorem Guards.hang {sub' sup' : Option Node} {mark : Token} (hmark : mark = .sub ∨ mark = .sup)
    (hchildren : ∀ c, c ∈ (script base sub' sup').children ↔
      c ∈ (script base sub sup).children ∨ c = x)
    (hbounded : ∀ j, (script base sub sup).Bounded limit j →
      ((script base sub sup).Clear → x.Bounded limit j) → (script base sub' sup').Bounded limit j)
    (harg : Guards limit .argument ts [x] ts')
    (h : Guards limit (.scripts base sub' sup') ts' ns rest) :
    Guards limit (.scripts base sub sup) (mark :: ts) ns rest := by
  intro r hr
  obtain ⟨r₁, htok, hr₁⟩ := hr.cons
  obtain ⟨r₂, hr₂, hx⟩ := harg r₁ hr₁
  obtain ⟨r', hr', hwatches⟩ := h r₂ hr₂
  obtain ⟨hxsecure, hxholds⟩ := hx.part trivial
  refine ⟨r', hr', fun hbehind => hwatches.secure ?_, fun m hm hdeep hbehind => ?_⟩
  · have hold := (secure_iff.mp (List.forall_mem_singleton.mp hbehind)).2
    refine List.forall_mem_singleton.mpr (secure_of_children rfl fun c hc => ?_)
    rcases (hchildren c).mp hc with hc | rfl
    · exact hold c hc
    · exact hxsecure _ List.mem_cons_self
  · -- A way leads to the new script only if the base and the other script are clear, and then the
    -- milestone still holds where the new script begins.
    have hspares : ∀ p ∈ mark.pieces, p.Spares m.frame := by
      rcases hmark with rfl | rfl <;> refine List.forall_mem_singleton.mpr ?_ <;> rintro _ ⟨⟩
    have hat (hclear : (script base sub sup).Clear) : r₁.At m := by
      refine (hbehind.kept (List.forall_mem_singleton.mpr ?_)).foldlM hspares htok
      rw [hdeep]
      exact passable_deep.mpr hclear
    refine hwatches.holds m hm hdeep (Milestone.holds_singleton (fun _ => ?_) fun hpass => ?_)
    · refine hbounded _ (boundedBy_singleton.mp hbehind.bounded (.inl hdeep)) fun hclear => ?_
      exact boundedBy_singleton.mp (hxholds m hm (hat hclear)).bounded (.inl hdeep)
    · have hnew := (clear_iff.mp hpass.1).2
      have hold : (script base sub sup).Clear :=
        clear_iff.mpr ⟨⟨rfl, rfl⟩, fun c hc => hnew c ((hchildren c).mpr (.inl hc))⟩
      refine (hxholds m hm (hat hold)).kept (List.forall_mem_singleton.mpr ?_)
      exact ⟨hnew x ((hchildren x).mpr (.inr rfl)), .inl hdeep⟩

theorem Guards.subscript (harg : Guards limit .argument ts [x] ts')
    (h : Guards limit (.scripts base (some x) sup) ts' ns rest) :
    Guards limit (.scripts base none sup) (.sub :: ts) ns rest := by
  refine harg.hang (.inl rfl) (fun c => ?_) (fun j hold hx => ?_) h
  · simp only [children, Option.toList_none, Option.toList_some, List.cons_append, List.nil_append,
      List.mem_cons]
    tauto
  obtain ⟨hbase, -, hsup⟩ := bounded_script.mp hold
  refine bounded_script.mpr ⟨hbase, fun hclear hclear' => ?_, fun hclear _ => hsup hclear (by simp)⟩
  intro n hn
  obtain rfl := Option.mem_some_iff.mp hn
  exact hx (clear_script.mpr ⟨hclear, by simp, hclear'⟩)

theorem Guards.superscript (harg : Guards limit .argument ts [x] ts')
    (h : Guards limit (.scripts base sub (some x)) ts' ns rest) :
    Guards limit (.scripts base sub none) (.sup :: ts) ns rest := by
  refine harg.hang (.inr rfl) (fun c => ?_) (fun j hold hx => ?_) h
  · simp only [children, Option.toList_none, Option.toList_some, List.cons_append, List.append_nil,
      List.mem_append, List.mem_cons, List.not_mem_nil]
    tauto
  obtain ⟨hbase, hsub, -⟩ := bounded_script.mp hold
  refine bounded_script.mpr ⟨hbase, fun hclear _ => hsub hclear (by simp), fun hclear hclear' => ?_⟩
  intro n hn
  obtain rfl := Option.mem_some_iff.mp hn
  exact hx (clear_script.mpr ⟨hclear, hclear', by simp⟩)

end

/-! ## Sequences of nodes -/

section

variable {stop : Stop} {acc acc' out : List Node} {tok : Token} {ts ts' rest : List Token}

/-- One more token that spares the milestones. -/
theorem Guards.token (h : Guards limit (.nodes stop acc') ts out rest)
    (hspares : ∀ o, stop.opener? = some o → ∀ p ∈ tok.pieces, ∀ frame : List Char,
      frame.head? = some o → p.Spares frame)
    (hsecure : (∀ n ∈ acc, n.Secure limit) → ∀ n ∈ acc', n.Secure limit)
    (hholds : ∀ (m : Milestone) (r : Trail), m.Valid limit → m.deep = true →
      m.Holds limit acc.reverse r → m.Holds limit acc'.reverse r) :
    Guards limit (.nodes stop acc) (tok :: ts) out rest := by
  intro r hr
  obtain ⟨r₁, htok, hr₁⟩ := hr.cons
  obtain ⟨r', hr', hwatches⟩ := h r₁ hr₁
  refine ⟨r', hr', fun hacc => hwatches.secure ?_, fun m hm hkeeps hbehind => ?_⟩
  · simp only [Task.behind, List.mem_reverse] at hacc ⊢
    exact hsecure hacc
  · obtain ⟨hdeep, o, ho, hframe⟩ := hkeeps
    refine hwatches.holds m hm ⟨hdeep, o, ho, hframe⟩ (hholds m r₁ hm hdeep ?_)
    exact hbehind.move fun hat => hat.foldlM (fun p hp => hspares o ho p hp _ hframe) htok

/-- One more part. -/
theorem Guards.add {task : Task} {ns : List Node} (h : Guards limit task ts ns ts')
    (htask : task.IsPart) (hacc' : acc'.reverse = acc.reverse ++ ns)
    (h' : Guards limit (.nodes stop acc') ts' out rest) :
    Guards limit (.nodes stop acc) (task.front ++ ts) out rest := by
  intro r hr
  obtain ⟨r₁, hr₁, hpart⟩ := h r hr
  obtain ⟨r', hr', hwatches⟩ := h' r₁ hr₁
  obtain ⟨hsecure, hholds⟩ := hpart.part htask
  refine ⟨r', hr', fun hacc => hwatches.secure ?_, fun m hm hkeeps hacc => ?_⟩
  · rw [Task.behind, hacc']
    exact List.forall_mem_append.mpr ⟨hacc, hsecure⟩
  · refine hwatches.holds m hm hkeeps ?_
    rw [Task.behind, hacc']
    exact hacc.append (hholds m hm)

theorem holds_pushText {m : Milestone} {r : Trail} (run : Text) (hm : m.Valid limit)
    (hdeep : m.deep = true) (h : m.Holds limit acc.reverse r) :
    m.Holds limit (pushText run acc).reverse r := by
  unfold pushText
  split
  · rw [List.reverse_cons] at h ⊢
    exact h.exchange fun hlast => holds_leaf _ hm (at_of_holds_leaf hdeep hlast)
  · rw [List.reverse_cons]
    exact h.append (holds_leaf _ hm)

theorem secure_pushText (run : Text) (h : ∀ n ∈ acc, n.Secure limit) :
    ∀ n ∈ pushText run acc, n.Secure limit := by
  unfold pushText
  split
  · exact List.forall_mem_cons.mpr ⟨secure_leaf _, (List.forall_mem_cons.mp h).2⟩
  · exact List.forall_mem_cons.mpr ⟨secure_leaf _, h⟩

/-- Literal text closes no delimiter that nodes are read behind. -/
theorem spares_of_literal {run : Text} (hrun : literal? stop tok = some run) (hcut : tok.Cut)
    {o : Char} (ho : stop.opener? = some o) {p : Piece} (hp : p ∈ tok.pieces) {frame : List Char}
    (hframe : frame.head? = some o) : p.Spares frame := by
  have hopener := Stop.opener?_eq_some_iff.mp ho
  have hparen : frame.head? ≠ some '(' := by
    rw [hframe]
    rcases hopener with ⟨-, rfl⟩ | ⟨-, rfl⟩ <;> decide
  rcases literal_cases hrun with rfl | ⟨rfl, -⟩ | ⟨⟨rfl, hstop⟩, -⟩ | ⟨⟨rfl | rfl, -⟩, -⟩
  · obtain ⟨c, hc, rfl⟩ := List.mem_map.mp hp
    exact Piece.spares_ofPlain (hcut.2 c hc) fun _ => hparen
  · obtain rfl := List.mem_singleton.mp hp
    rintro _ ⟨⟩
  · obtain rfl := List.mem_singleton.mp hp
    rintro _ ⟨⟩
    rw [hframe]
    rcases hopener with ⟨-, rfl⟩ | ⟨hbracket, -⟩
    · decide
    · exact absurd hbracket hstop
  · obtain rfl := List.mem_singleton.mp hp
    rintro _ ⟨⟩
  · obtain rfl := List.mem_singleton.mp hp
    trivial

theorem Guards.literal {run : Text} (hrun : literal? stop tok = some run) (hcut : tok.Cut)
    (h : Guards limit (.nodes stop (pushText run acc)) ts out rest) :
    Guards limit (.nodes stop acc) (tok :: ts) out rest :=
  h.token (fun _ ho _ hp _ hframe => spares_of_literal hrun hcut ho hp hframe)
    (secure_pushText run) fun _ _ => holds_pushText run

theorem Guards.strayBrace (hbrace : stop ≠ .atBrace)
    (h : Guards limit (.nodes stop acc) ts out rest) :
    Guards limit (.nodes stop acc) (.closeBrace :: ts) out rest := by
  refine h.token (fun o ho p hp frame hframe => ?_) id fun _ _ _ _ => id
  obtain rfl := List.mem_singleton.mp hp
  rintro _ ⟨⟩
  rw [hframe]
  rcases Stop.opener?_eq_some_iff.mp ho with ⟨hopen, -⟩ | ⟨-, rfl⟩
  · exact absurd hopen hbrace
  · decide

theorem Guards.sign {c : Char}
    (h : Guards limit (.nodes stop (.bare (String.singleton c) :: acc)) ts out rest) :
    Guards limit (.nodes stop acc) (.escaped c :: ts) out rest := by
  refine h.token (fun o _ p hp frame _ => ?_) (fun hacc => ?_) fun m r hm _ hacc => ?_
  · obtain rfl := List.mem_singleton.mp hp
    trivial
  · exact List.forall_mem_cons.mpr ⟨secure_bare (not_risky_sign c), hacc⟩
  · rw [List.reverse_cons]
    exact hacc.append fun hr => holds_bare (not_risky_sign c) hm hr

/-- The base of a script and what is left of the nodes before it. -/
theorem Takes.secure {base : Node} {left : List Node} (h : Takes acc base left)
    (hacc : ∀ n ∈ acc, n.Secure limit) : base.Secure limit ∧ ∀ n ∈ left, n.Secure limit := by
  induction h with
  | nothing => exact ⟨secure_emptyGroup, hacc⟩
  | blank _ _ ih => exact ih (List.forall_mem_cons.mp hacc).2
  | text =>
    refine ⟨secure_leaf _, ?_⟩
    split
    · exact (List.forall_mem_cons.mp hacc).2
    · exact List.forall_mem_cons.mpr ⟨secure_leaf _, (List.forall_mem_cons.mp hacc).2⟩
  | node => exact List.forall_mem_cons.mp hacc

/-- A way that leads past what is left leads to the base. -/
theorem Takes.holds {base : Node} {left : List Node} (h : Takes acc base left) {m : Milestone}
    {r : Trail} (hm : m.Valid limit) (hdeep : m.deep = true) (hacc : m.Holds limit acc.reverse r) :
    m.Holds limit (left.reverse ++ [base]) r := by
  induction h with
  | nothing => exact hacc.append (holds_emptyGroup hm)
  | blank _ _ ih =>
    rw [List.reverse_cons] at hacc
    have hnil := hacc.exchange fun hlast => Milestone.holds_nil.mpr (at_of_holds_leaf hdeep hlast)
    rw [List.append_nil] at hnil
    exact ih hnil
  | @text front =>
    rw [List.reverse_cons] at hacc
    split
    · exact hacc.exchange fun hlast => holds_leaf _ hm (at_of_holds_leaf hdeep hlast)
    · rw [List.reverse_cons, List.append_assoc]
      exact hacc.exchange fun hlast =>
        (holds_leaf front hm (at_of_holds_leaf hdeep hlast)).append (holds_leaf _ hm)
  | node => rwa [List.reverse_cons] at hacc

theorem Guards.marks {n : Node}
    (hscripts : Guards limit (.scripts (popBase acc).1 none none) ts [n] ts')
    (h : Guards limit (.nodes stop (n :: (popBase acc).2)) ts' out rest) :
    Guards limit (.nodes stop acc) ts out rest := by
  intro r hr
  obtain ⟨r₁, hr₁, hscript⟩ := hscripts r hr
  obtain ⟨r', hr', hwatches⟩ := h r₁ hr₁
  have htakes := takes_popBase acc
  refine ⟨r', hr', fun hacc => hwatches.secure ?_, fun m hm hkeeps hacc => ?_⟩
  · simp only [Task.behind, List.mem_reverse] at hacc ⊢
    obtain ⟨hbase, hleft⟩ := htakes.secure hacc
    have hn := hscript.secure (List.forall_mem_singleton.mpr (secure_script hbase))
    exact List.forall_mem_cons.mpr ⟨List.forall_mem_singleton.mp hn, hleft⟩
  · -- The base comes last among the nodes, and turns into the script.
    refine hwatches.holds m hm hkeeps ?_
    rw [Task.behind, List.reverse_cons]
    exact (htakes.holds hm hkeeps.1 hacc).exchange fun hbase =>
      hscript.holds m hm hkeeps.1 (holds_script hkeeps.1 hbase)

end

/-! ## Groups -/

section

variable {stop : Stop} {out : List Node} {ts ts' rest : List Token} {r r' : Trail}

/-- What is read up to a closer is a group, and the milestones before it hold behind it. -/
theorem Watches.enclosed {c : Char} (hc : stop.opener? = some c)
    (h : Watches limit (.nodes stop []) out { r with stack := c :: r.stack } r') {m : Milestone}
    (hm : m.Valid limit) (hr : r.At m) : m.Holds limit [.group out] r' := by
  have hdepth : m.depth < (c :: r.stack).length :=
    Nat.lt_succ_of_le (hm.depth.trans hr.kept.length_le)
  have hparen : (c :: r.stack).head? ≠ some '(' := by
    rcases Stop.opener?_eq_some_iff.mp hc with ⟨-, rfl⟩ | ⟨-, rfl⟩ <;> simp
  have hvalid : (m.enter c r.stack).Valid limit :=
    ⟨hm.streak, hdepth.le, fun _ => ⟨hdepth, hparen⟩⟩
  have hinside : (m.enter c r.stack).leave.Holds limit out r' :=
    h.holds _ hvalid ⟨rfl, c, hc, rfl⟩
      (Milestone.holds_nil.mpr ⟨List.suffix_refl _, hr.last, hr.streak⟩)
  refine Milestone.holds_singleton (fun _ => ?_) fun hpass => ?_
  · exact bounded_group.mpr ⟨hm.streak, hinside.bounded⟩
  · have hclear := passable_group.mp hpass
    obtain ⟨hkept, hlast, hstreak⟩ :=
      hinside.kept fun n hn => passable_deep.mpr (hclear n hn)
    exact ⟨hr.kept.trans hkept, hlast, hstreak⟩

end

/-! ## Arguments -/

section

variable {ts ts' rest : List Token} {ns : List Node} {x : Node}

theorem Guards.arguments {k : Nat} {xs : List Node} (h : Guards limit .argument ts [x] ts')
    (h' : Guards limit (.arguments k) ts' xs rest) :
    Guards limit (.arguments (k + 1)) ts (x :: xs) rest := by
  intro r hr
  obtain ⟨r₁, hr₁, hx⟩ := h r hr
  obtain ⟨r', hr', hxs⟩ := h' r₁ hr₁
  obtain ⟨hxsecure, hxholds⟩ := hx.part trivial
  obtain ⟨hxssecure, hxsholds⟩ := hxs.part trivial
  refine ⟨r', hr', watches_part (by trivial) ?_ fun m hm hat => ?_⟩
  · exact List.forall_mem_cons.mpr ⟨List.forall_mem_singleton.mp hxsecure, hxssecure⟩
  · exact (hxholds m hm hat).append (hxsholds m hm)

end

/-! ## Commands -/

section

variable {name : String} {ts ts' rest : List Token} {r r₁ r' : Trail}

end

section

variable {name : String} {above : List (List Node)} {row out ns : List Node}
  {ts ts' rest : List Token}

theorem secure_cell (h : ∀ n ∈ out, n.Secure limit) : (cell out).Secure limit := by
  refine secure_of_children rfl fun c hc => ?_
  simp only [cell, children] at hc
  split at hc
  · cases hc
  · exact h c hc

/-- One cell more. -/
theorem Guards.nextCell {above' : List (List Node)} {row' : List Node} {tok : Token}
    (h : Guards limit (.nodes .atCell []) ts out (tok :: ts'))
    (hcells : above'.flatten ++ row' ⊆ cell out :: (above.flatten ++ row))
    (h' : Guards limit (.rows name above' row') ts' ns rest) :
    Guards limit (.rows name above row) ts ns rest := by
  intro r hr
  obtain ⟨r₁, hr₁, hcell⟩ := h r hr
  obtain ⟨r₂, -, hr₂⟩ := hr₁.cons
  obtain ⟨r', hr', hwatches⟩ := h' r₂ hr₂
  refine ⟨r', hr', fun hbehind => hwatches.secure fun n hn => ?_, fun _ _ hkeeps => hkeeps.elim⟩
  rcases List.mem_cons.mp (hcells hn) with rfl | hn
  · exact secure_cell (hcell.secure (List.forall_mem_nil _))
  · exact hbehind n hn

theorem Guards.lastCell (h : Guards limit (.nodes .atCell []) ts out ts') (hrest : rest <:+ ts') :
    Guards limit (.rows name above row) ts [table name ((cell out :: row).reverse :: above)]
      rest := by
  intro r hr
  obtain ⟨r₁, hr₁, hcell⟩ := h r hr
  obtain ⟨r', hr'⟩ := hr₁.suffix hrest
  refine ⟨r', hr', fun hbehind => ?_, fun _ _ hkeeps => hkeeps.elim⟩
  refine List.forall_mem_singleton.mpr (secure_of_children rfl fun c hc => ?_)
  obtain ⟨r, hr, hc⟩ := List.mem_flatten.mp hc
  rcases List.mem_cons.mp (mem_of_mem_dropEmptyRows (List.mem_reverse.mp hr)) with rfl | hr
  · rcases List.mem_cons.mp (List.mem_reverse.mp hc) with rfl | hc
    · exact secure_cell (hcell.secure (List.forall_mem_nil _))
    · exact hbehind c (List.mem_append_right _ hc)
  · exact hbehind c (List.mem_append_left _ (List.mem_flatten.mpr ⟨r, hr, hc⟩))

end

/-! ## The whole course -/

variable {levels : Nat} {task : Task} {ts rest : List Token} {ns : List Node} {said : List Notice}

end Reading

open Reading

namespace Screening

/-- The root that is the numerator of a fraction. -/
def root : Node := .command "sqrt" [.group [.leaf ['x']]] none

def fraction : Node := .command "frac" [.group [root], .leaf ['2']] none

/-- How deep risky commands are nested in the tree of a text, if the text is accepted. -/
def acceptedRiskyDepth? (raw : Text) (limits : Limits) : Option Nat :=
  (check raw limits).toOption.bind fun safe =>
    (parse ⟨safe.maxDepth, .never 0⟩ safe.text).toOption.map (·.tree.riskyDepth)

/-- Where risky commands are nested beyond the limit, a way down passes through too many. -/
theorem nested_risky_of_acceptedRiskyDepth {raw : Text} {limits : Limits} {d : Nat}
    (h : acceptedRiskyDepth? raw limits = some d) (hd : limits.maxNestedRisky < d) :
    ∃ safe p path, check raw limits = .ok safe ∧
      parse ⟨safe.maxDepth, .never 0⟩ safe.text = .ok p ∧
      (p.tree :: path).IsChain (fun n c => c ∈ n.children) ∧
      limits.maxNestedRisky < (p.tree :: path).countP Node.isRisky := by
  cases hcheck : check raw limits with
  | error e => simp [acceptedRiskyDepth?, hcheck, Except.toOption] at h
  | ok safe =>
    rw [acceptedRiskyDepth?, hcheck] at h
    obtain ⟨p, hp, hdepth⟩ := exists_parse_of_map h
    have hbeyond : ¬ 0 + p.tree.riskyDepth ≤ limits.maxNestedRisky := by omega
    rw [riskyDepth_le_iff] at hbeyond
    simp only [not_forall, Nat.not_le, Nat.zero_add] at hbeyond
    obtain ⟨path, hpath, hcount⟩ := hbeyond
    exact ⟨safe, p, path, rfl, hp, hpath, hcount⟩

/-- More accepted texts whose trees nest one deeper than the limit on streaks: a streak begins anew
behind a neighbour, a word in the name of an environment is in no node, a parenthesis is closed in
the place of an argument, delimiters do not match, and a comment takes a brace with it. -/
def waysRound : List (Text × Nat) :=
  [("\\sqrt\x7b\\sqrt x\\sqrt\x7b\\sqrt x\x7d\x7d".toList, 2),
    ("\\sqrt\x7b\\begin\x7b\\frac\x7d\\sqrt\x7b\\sqrt x\x7d\x7d".toList, 2),
    ("(\\frac)\x7b\\sqrt x\x7d".toList, 1),
    ("\\sqrt\x7b)\\sqrt\x7bx\x7d\x7d".toList, 1),
    ("\\sqrt\x7b%\x7d\n\\sqrt x\x7d".toList, 1)]

theorem nested_risky_waysRound : ∀ w ∈ waysRound, ∃ safe p path,
    check w.1 { maxNestedRisky := w.2 } = .ok safe ∧
      parse ⟨safe.maxDepth, .never 0⟩ safe.text = .ok p ∧
      (p.tree :: path).IsChain (fun n c => c ∈ n.children) ∧
      w.2 < (p.tree :: path).countP Node.isRisky := by
  have hdepth : ∀ w ∈ waysRound,
      acceptedRiskyDepth? w.1 { maxNestedRisky := w.2 } = some (w.2 + 1) := by decide +kernel
  exact fun w hw => nested_risky_of_acceptedRiskyDepth (hdepth w hw) (Nat.lt_succ_self w.2)

end Screening

end SpokenMath
