import SpokenMath.Proofs.Markup.Endings
import SpokenMath.Proofs.Memory.Visits

/-!
# Proofs that stay open

A proof that is written as an environment is closed in the same expression, unless its name is among
those that the reading noted as unterminated. A name is all that is known there: one proof without
an end keeps every proof of that name open, those that are written in full included
(`leftOpen_le_fails`).

**Theorem (`leftOpen_of_parse`).** So none of the proofs of a name that are visited stays open, or
all of them do. In the second case there are at most as many of them as were noted under this name,
and as many more as the text has an `\end` for it.
-/

namespace SpokenMath

open Node Reading

namespace Node

/-- What is counted below some nodes, one after the other. -/
theorem countP_flatMap_le {q : Node → Bool} {f g : Node → List Node} {cs : List Node}
    (h : ∀ c ∈ cs, (f c).countP q ≤ (g c).countP q) :
    (cs.flatMap f).countP q ≤ (cs.flatMap g).countP q := by
  induction cs with
  | nil => exact Nat.le_refl 0
  | cons c cs ih =>
    obtain ⟨hc, hcs⟩ := List.forall_mem_cons.mp h
    rw [List.flatMap_cons, List.flatMap_cons, List.countP_append, List.countP_append]
    exact Nat.add_le_add hc (ih hcs)

/-- What is visited is some of the nodes. -/
theorem countP_preorder_le (q : Node → Bool) (descend : Node → Bool) (n : Node) :
    (n.preorder descend).countP q ≤ n.nodes.countP q := by
  induction n using induction_on_children with
  | h n ih =>
    have hnodes : n.nodes = n :: n.children.flatMap nodes := preorder_eq _ n
    rw [preorder_eq, hnodes, List.countP_cons, List.countP_cons]
    refine Nat.add_le_add_right ?_ _
    split
    · exact countP_flatMap_le ih
    · exact Nat.zero_le _

end Node

namespace Analysis

variable {name : String} {notices : List Notice}

/-- How many environments of this name are visited that open a proof and do not close it. -/
def leftOpen (name : String) (visits : List (Node × List Effect)) : Nat :=
  visits.countP fun v => v.1.isEnvironment name && v.2 == [.opening .proof]

/-- A visit leaves a proof open exactly if its name was noted. -/
theorem Structures.Tells.proof_eq {top top' : Option StructureKind} {rows : List (List Node)}
    {es : List Effect} (h : Tells notices top (.environment name rows) es top')
    (hname : StructureKind.ofName? name = some .proof) :
    es = if .unterminatedEnvironment name ∈ notices then [.opening .proof]
      else [.opening .proof, .closing .proof] := by
  cases h with
  | nothing hnone => rw [hnone name rows rfl] at hname; cases hname
  | opened hkind hunended =>
    obtain rfl := Option.some.inj (hkind.symm.trans hname)
    rw [if_pos (hunended rfl)]
  | proof _ hended => rw [if_neg hended]

/-- **All proofs of a name are treated alike.** -/
theorem leftOpen_visits (notices : List Notice)
    (hname : StructureKind.ofName? name = some .proof) (s : Structures) (ns : List Node) :
    leftOpen name (s.visits notices ns) =
      if .unterminatedEnvironment name ∈ notices then ns.countP (isEnvironment name) else 0 := by
  induction ns generalizing s with
  | nil => simp [leftOpen, Structures.visits]
  | cons n ns ih =>
    have hvisit : (n.isEnvironment name && s.added notices n == [.opening .proof]) =
        (n.isEnvironment name && decide (.unterminatedEnvironment name ∈ notices)) := by
      cases n with
      | environment word rows =>
        by_cases hword : word = name
        · subst hword
          rw [(s.tells_visit notices _).1.proof_eq hname]
          split <;> simp [*]
        · simp [isEnvironment, beq_eq_false_iff_ne.mpr hword]
      | _ => rfl
    have hcons : leftOpen name (s.visits notices (n :: ns)) =
        leftOpen name ((s.visit notices n).visits notices ns) +
          if n.isEnvironment name && s.added notices n == [.opening .proof] then 1 else 0 :=
      List.countP_cons
    rw [hcons, hvisit, ih, List.countP_cons]
    by_cases hnoted : .unterminatedEnvironment name ∈ notices <;> simp [hnoted]

end Analysis

open Analysis

/-- **None of the proofs of a name stays open, or all that are visited do**, and then their number
is bounded by what was noted under this name and by what the text has an `\end` for. So there are at
most as many as were noted exactly if none was noted or no more are visited than were noted. -/
theorem leftOpen_of_parse {limits : ReadLimits} {t : Text} {p : Parsed} {name : String}
    (hname : StructureKind.ofName? name = some .proof) (h : parse limits t = .ok p) (m : Memory) :
    let left := leftOpen name (visits p.tree p.notices m)
    let noted := p.notices.count (.unterminatedEnvironment name)
    let visited := (p.tree.preorder staysOpen).countP (isEnvironment name)
    (left ≤ noted ↔ noted = 0 ∨ visited ≤ noted) ∧ left = (if noted = 0 then 0 else visited) ∧
      left ≤ noted + endings name (tokenize t) := by
  intro left noted visited
  have hleft : left = if noted = 0 then 0 else visited := by
    have hvisits : left = _ := leftOpen_visits p.notices hname _ _
    rw [hvisits, ← ite_not]
    exact if_congr List.count_eq_zero.symm rfl rfl
  have hvisited : visited ≤ noted + endings name (tokenize t) :=
    (countP_preorder_le _ _ _).trans (environments_of_parse h name)
  refine ⟨?_, hleft, ?_⟩
  · rw [hleft]
    split <;> omega
  · rw [hleft]
    split <;> omega

/-- Two proofs without an end, one in the other. -/
def proofInProof : Text := "\\begin\x7bproof\x7d\\begin\x7bproof\x7da\\end\x7bq\x7d".toList

/-- How many of these two stay open in a new memory. -/
theorem leftOpen_of_parse_nested :
    ∃ p, parse (.untimed 4) proofInProof = .ok p ∧
      StructureKind.ofName? "proof" = some .proof ∧
      (leftOpen "proof" (visits p.tree p.notices {}) ≤
          p.notices.count (.unterminatedEnvironment "proof") ↔
        p.notices.count (.unterminatedEnvironment "proof") = 0 ∨
          (p.tree.preorder staysOpen).countP (isEnvironment "proof") ≤
            p.notices.count (.unterminatedEnvironment "proof")) ∧
      leftOpen "proof" (visits p.tree p.notices {}) =
        (if p.notices.count (.unterminatedEnvironment "proof") = 0 then 0
          else (p.tree.preorder staysOpen).countP (isEnvironment "proof")) ∧
      leftOpen "proof" (visits p.tree p.notices {}) ≤
        p.notices.count (.unterminatedEnvironment "proof") +
          endings "proof" (tokenize proofInProof) := by
  have hread : (parse (.untimed 4) proofInProof).toOption.map (·.notices) =
      some [.unterminatedEnvironment "proof", .unterminatedEnvironment "proof"] := by
    decide +kernel
  obtain ⟨p, hparse, -⟩ := exists_parse_of_map hread
  have hname : StructureKind.ofName? "proof" = some .proof := by decide +kernel
  exact ⟨p, hparse, hname, leftOpen_of_parse hname hparse {}⟩

/-- A proof in full, and one without an end. -/
def proofThenProof : Text :=
  "\\begin\x7bproof\x7da\\end\x7bproof\x7d\\begin\x7bproof\x7db".toList

/-- **A proof that is written in full stays open** beside one that is not: only one is noted. -/
theorem leftOpen_le_fails :
    ∃ p, parse (.untimed 4) proofThenProof = .ok p ∧
      p.notices = [.unterminatedEnvironment "proof"] ∧
      ∀ m, leftOpen "proof" (visits p.tree p.notices m) = 2 := by
  have hread : (parse (.untimed 4) proofThenProof).toOption.map
      (fun p => (p.notices, (p.tree.preorder staysOpen).countP (isEnvironment "proof"))) =
        some ([.unterminatedEnvironment "proof"], 2) := by decide +kernel
  obtain ⟨p, hparse, hp⟩ := exists_parse_of_map hread
  obtain ⟨hnotices, hvisited⟩ := Prod.mk.inj hp
  refine ⟨p, hparse, hnotices, fun m => ?_⟩
  have hname : StructureKind.ofName? "proof" = some .proof := by decide +kernel
  have hleft := leftOpen_visits p.notices hname (Structures.start (plainText p.tree) m)
    (p.tree.preorder staysOpen)
  rw [visits, hleft, hvisited, hnotices, if_pos (List.mem_singleton_self _)]

end SpokenMath
