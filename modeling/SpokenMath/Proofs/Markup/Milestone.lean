import SpokenMath.Proofs.Markup.Risk
import SpokenMath.Proofs.Screening.Descent

/-!
# What stays open behind a risky command

The tokens of a text are followed while they are read. What is known behind a risky command is its
**milestone**: how deep it stands, how long its streak is, and which delimiters stay open. The
milestone **holds** behind the nodes read from there on: those that a way leads to are bounded by
what the streak leaves, and as long as a way could lead on past all of them, no delimiter of the
milestone has been closed and no risky command has come (`Milestone.Holds`).

Delimiters stay open because those of a text match, so that a delimiter cannot be closed before the
ones inside it (`suffix_of_enclose`).
-/

namespace SpokenMath

/-! ## Following tokens -/

namespace Trail

variable {limit : Nat} {r r' : Trail}

/-- The pieces can be followed to their end. -/
def Follows (limit : Nat) (r : Trail) (ps : List Piece) : Prop :=
  (ps.foldlM (follow limit) r).isSome = true

/-- The tokens can be followed to their end. -/
def Admits (limit : Nat) (r : Trail) (ts : List Token) : Prop :=
  r.Follows limit (ts.flatMap Token.pieces)

theorem Follows.append {ps qs : List Piece} (h : r.Follows limit (ps ++ qs)) :
    ∃ r', ps.foldlM (follow limit) r = some r' ∧ r'.Follows limit qs := by
  rw [Follows, List.foldlM_append] at h
  cases hps : ps.foldlM (follow limit) r with
  | none =>
    rw [hps] at h
    cases h
  | some r' =>
    rw [hps] at h
    exact ⟨r', rfl, h⟩

theorem Admits.cons {tok : Token} {ts : List Token} (h : r.Admits limit (tok :: ts)) :
    ∃ r', tok.pieces.foldlM (follow limit) r = some r' ∧ r'.Admits limit ts := by
  rw [Admits, List.flatMap_cons] at h
  exact h.append

theorem Admits.suffix {ts ts' : List Token} (h : r.Admits limit ts) (hsuffix : ts' <:+ ts) :
    ∃ r' : Trail, r'.Admits limit ts' := by
  obtain ⟨front, rfl⟩ := hsuffix
  rw [Admits, List.flatMap_append] at h
  obtain ⟨r', -, hr'⟩ := h.append
  exact ⟨r', hr'⟩

end Trail

/-! ## Delimiters that stay open -/

namespace Piece

/-- The piece is no risky command and does not close the innermost of these delimiters. -/
def Spares (frame : List Char) : Piece → Prop
  | .word name => riskyCommands.contains name = false
  | .sign c => ∀ o, opener? c = some o → frame.head? ≠ some o
  | _ => True

variable {c : Char} {frame stack stack' : List Char}

theorem suffix_of_enclose (h : enclose stack (.sign c) = some stack') (hframe : frame <:+ stack)
    (hspares : (Piece.sign c).Spares frame) : frame <:+ stack' := by
  rcases enclose_sign_cases h with ⟨-, rfl⟩ | ⟨o, ho, ⟨rfl, rfl⟩ | rfl⟩ | ⟨-, -, rfl⟩
  · exact hframe.trans (List.suffix_cons _ _)
  · exact hframe
  · rcases List.suffix_cons_iff.mp hframe with rfl | hframe
    · exact absurd rfl (hspares o ho)
    · exact hframe
  · exact hframe

/-- No more than one delimiter is closed at a time. -/
theorem tail_suffix_of_enclose (h : enclose stack (.sign c) = some stack')
    (hframe : frame <:+ stack) : frame.tail <:+ stack' := by
  have htail : frame.tail <:+ frame := List.tail_suffix frame
  rcases enclose_sign_cases h with ⟨-, rfl⟩ | ⟨o, -, ⟨rfl, rfl⟩ | rfl⟩ | ⟨-, -, rfl⟩
  · exact htail.trans (hframe.trans (List.suffix_cons _ _))
  · exact htail.trans hframe
  · rcases List.suffix_cons_iff.mp hframe with rfl | hframe
    · exact List.suffix_refl _
    · exact htail.trans hframe
  · exact htail.trans hframe

/-- Of the characters of a run only a closing parenthesis closes something. -/
theorem spares_ofPlain (hc : Token.isPlain c = true)
    (hparen : c = ')' → frame.head? ≠ some '(') : (ofPlain c).Spares frame := by
  rw [ofPlain]
  split
  · trivial
  · intro o ho
    rcases opener?_eq_some_iff.mp ho with ⟨rfl, rfl⟩ | ⟨rfl, rfl⟩ | ⟨rfl, rfl⟩
    · cases hc
    · cases hc
    · exact hparen rfl

end Piece

/-! ## Anchors -/

/-- What is known behind a risky command. -/
structure Milestone where
  /-- How many delimiters were open at the command. -/
  depth : Nat
  /-- The length of the streak that ends with it. -/
  streak : Nat
  /-- Delimiters that stay open, the innermost first. -/
  frame : List Char
  /-- Some of them were opened behind the command. -/
  deep : Bool

namespace Milestone

/-- There are no more open delimiters at the command than stay open, and those opened behind it are
no parentheses. -/
structure Valid (limit : Nat) (m : Milestone) : Prop where
  streak : m.streak ≤ limit
  depth : m.depth ≤ m.frame.length
  deep : m.deep = true → m.depth < m.frame.length ∧ m.frame.head? ≠ some '('

/-- The milestone where the innermost of its delimiters is closed. -/
def leave (m : Milestone) : Milestone := { m with frame := m.frame.tail }

/-- The milestone behind one more opening delimiter. -/
def enter (m : Milestone) (c : Char) (stack : List Char) : Milestone :=
  { m with frame := c :: stack, deep := true }

end Milestone

/-- There was no other risky command since that of the milestone, and its delimiters are open. -/
structure Trail.At (r : Trail) (m : Milestone) : Prop where
  kept : m.frame <:+ r.stack
  last : r.last = some m.depth
  streak : r.streak = m.streak

namespace Trail.At

variable {limit : Nat} {r r' : Trail} {m : Milestone}

theorem follow {p : Piece} (h : r.At m) (hp : p.Spares m.frame)
    (hr : r.follow limit p = some r') : r'.At m := by
  cases p with
  | word name =>
    have hnot : riskyCommands.contains name = false := hp
    rw [Trail.follow, hnot, if_neg Bool.false_ne_true] at hr
    obtain rfl := Option.some.inj hr
    exact h
  | sign c =>
    obtain ⟨stack, hstack, rfl⟩ := Option.map_eq_some_iff.mp hr
    exact ⟨Piece.suffix_of_enclose hstack h.kept hp, h.last, h.streak⟩
  | blank | escape =>
    obtain rfl := Option.some.inj hr
    exact h

/-- Where a delimiter is closed, the others stay open. -/
theorem leave {c : Char} (h : r.At m) (hr : r.follow limit (.sign c) = some r') :
    r'.At m.leave := by
  obtain ⟨stack, hstack, rfl⟩ := Option.map_eq_some_iff.mp hr
  exact ⟨Piece.tail_suffix_of_enclose hstack h.kept, h.last, h.streak⟩

theorem foldlM {ps : List Piece} (h : r.At m) (hps : ∀ p ∈ ps, p.Spares m.frame)
    (hr : ps.foldlM (Trail.follow limit) r = some r') : r'.At m := by
  induction ps generalizing r with
  | nil =>
    obtain rfl := Option.some.inj hr
    exact h
  | cons p ps ih =>
    obtain ⟨hp, hps⟩ := List.forall_mem_cons.mp hps
    rw [List.foldlM_cons, Option.bind_eq_bind, Option.bind_eq_some_iff] at hr
    obtain ⟨r₁, hr₁, hr⟩ := hr
    exact ih (h.follow hp hr₁) hps hr

end Trail.At

/-! ## What holds behind nodes -/

namespace Milestone

variable {limit : Nat} {m : Milestone} {ns ns' : List Node} {r r' : Trail}

/-- Behind these nodes the milestone holds. -/
structure Holds (m : Milestone) (limit : Nat) (ns : List Node) (r : Trail) : Prop where
  bounded : Node.BoundedBy m.deep limit m.streak ns
  kept : (∀ n ∈ ns, n.Passable m.deep) → r.At m

theorem holds_nil : m.Holds limit [] r ↔ r.At m :=
  ⟨fun h => h.kept nofun, fun h => ⟨trivial, fun _ => h⟩⟩

theorem holds_singleton {n : Node}
    (hbounded : m.deep = true ∨ n.isGroup = true → n.Bounded limit m.streak)
    (hkept : n.Passable m.deep → r.At m) : m.Holds limit [n] r :=
  ⟨Node.boundedBy_singleton.mpr hbounded, fun h => hkept (h n List.mem_cons_self)⟩

theorem Holds.move (h : m.Holds limit ns r) (hr : r.At m → r'.At m) : m.Holds limit ns r' :=
  ⟨h.bounded, fun hns => hr (h.kept hns)⟩

/-- What was read last may turn into something else as more is read. -/
theorem Holds.exchange {ms ms' : List Node} (h : m.Holds limit (ns ++ ms) r)
    (hms : m.Holds limit ms r → m.Holds limit ms' r') : m.Holds limit (ns ++ ms') r' := by
  obtain ⟨hns, hbounded⟩ := Node.boundedBy_append.mp h.bounded
  have hlast (hpass : ∀ n ∈ ns, n.Passable m.deep) : m.Holds limit ms' r' :=
    hms ⟨hbounded hpass, fun hms => h.kept (List.forall_mem_append.mpr ⟨hpass, hms⟩)⟩
  refine ⟨Node.boundedBy_append.mpr ⟨hns, fun hpass => (hlast hpass).bounded⟩, fun hall => ?_⟩
  obtain ⟨hpass, hms'⟩ := List.forall_mem_append.mp hall
  exact (hlast hpass).kept hms'

theorem Holds.append (h : m.Holds limit ns r) (h' : r.At m → m.Holds limit ns' r') :
    m.Holds limit (ns ++ ns') r' := by
  rw [← List.append_nil ns] at h
  exact h.exchange fun hnil => h' (holds_nil.mp hnil)

theorem Holds.leave (h : m.Holds limit ns r) : m.leave.Holds limit ns r := by
  refine ⟨h.bounded, fun hns => ?_⟩
  obtain ⟨hkept, hlast, hstreak⟩ := h.kept hns
  exact ⟨(List.tail_suffix _).trans hkept, hlast, hstreak⟩

end Milestone

end SpokenMath
