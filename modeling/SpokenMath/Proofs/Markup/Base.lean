import SpokenMath.Markup.Reader
import SpokenMath.Proofs.Markup.Tokens

/-!
# The base of a script

A script is hung on what was read last: blanks are passed over, a leaf gives its last character or
the number at its end, and any other node is taken whole (`takes_popBase`).
-/

namespace SpokenMath

namespace Node

/-- A leaf with one character, or with a number. -/
def IsBase (t : Text) : Prop :=
  (∃ c, t = [c] ∧ isBlank c = false ∧ c.isDigit = false) ∨ t ≠ [] ∧ ∀ c ∈ t, c.isDigit = true

theorem IsBase.ne_nil {t : Text} (h : IsBase t) : t ≠ [] := by
  rcases h with ⟨c, rfl, -⟩ | ⟨hne, -⟩
  · exact List.cons_ne_nil c []
  · exact hne

theorem IsBase.not_blank {t : Text} (h : IsBase t) : ∀ c ∈ t, isBlank c = false := by
  rcases h with ⟨c, rfl, hblank, -⟩ | ⟨-, hdigits⟩
  · exact List.forall_mem_singleton.mpr hblank
  · exact fun c hc => not_blank_of_isDigit (hdigits c hc)

end Node

open Node

namespace Reading

/-- What is taken off the end of some nodes as the base of a script, and what is left of them. The
last node comes first. -/
inductive Takes : List Node → Node → List Node → Prop
  | nothing : Takes [] (.group []) []
  | blank {t acc base rest} (hblank : ∀ c ∈ t, isBlank c = true) (hrest : Takes acc base rest) :
      Takes (.leaf t :: acc) base rest
  | text {front t gap acc} (hbase : IsBase t) (hgap : ∀ c ∈ gap, isBlank c = true)
      (hdigits : (∃ c ∈ t, c.isDigit = true) → ∀ c ∈ front.getLast?, c.isDigit = false) :
      Takes (.leaf (front ++ (t ++ gap)) :: acc) (.leaf t)
        (if front.isEmpty then acc else .leaf front :: acc)
  | node {n acc} (hleaf : ∀ t, n ≠ .leaf t) : Takes (n :: acc) n acc

/-- The end of a run is split into the base of a script and what stands before it. -/
theorem isBase_of_split {c : Char} {before base rest : Text} (hc : isBlank c = false)
    (h : (if ((c :: before).takeWhile Char.isDigit).isEmpty then ([c], before)
      else (((c :: before).takeWhile Char.isDigit).reverse,
        (c :: before).dropWhile Char.isDigit)) = (base, rest)) :
    IsBase base ∧ (c :: before).reverse = rest.reverse ++ base ∧
      ((∃ d ∈ base, d.isDigit = true) → ∀ d ∈ rest.head?, d.isDigit = false) := by
  cases hdigit : c.isDigit with
  | false =>
    rw [List.takeWhile_cons_of_neg (by simp [hdigit])] at h
    obtain ⟨rfl, rfl⟩ := Prod.mk.inj h
    refine ⟨.inl ⟨c, rfl, hc, hdigit⟩, List.reverse_cons, ?_⟩
    rintro ⟨d, hd, hdd⟩
    rw [List.mem_singleton.mp hd, hdigit] at hdd
    cases hdd
  | true =>
    rw [if_neg (by simp [hdigit])] at h
    obtain ⟨rfl, rfl⟩ := Prod.mk.inj h
    refine ⟨.inr ⟨by simp [hdigit], fun d hd => ?_⟩, ?_, ?_⟩
    · exact List.mem_takeWhile_imp (List.mem_reverse.mp hd)
    · rw [← List.reverse_append, List.takeWhile_append_dropWhile]
    · intro _ d hd
      have hnot := List.head?_dropWhile_not Char.isDigit (c :: before)
      rw [Option.mem_def.mp hd] at hnot
      simpa using hnot

theorem takes_popBase (acc : List Node) : Takes acc (popBase acc).1 (popBase acc).2 := by
  fun_induction popBase acc with
  | case1 => exact .nothing
  | case2 text nodes hblank ih =>
    refine .blank (fun c hc => ?_) ih
    exact List.dropWhile_eq_nil_iff.mp hblank c (List.mem_reverse.mpr hc)
  | case3 text nodes c before hrun digits base before' hsplit =>
    have hc : isBlank c = false := by
      have hnot := List.head?_dropWhile_not isBlank text.reverse
      rw [hrun] at hnot
      simpa using hnot
    obtain ⟨hbase, hsplit, hdigits⟩ := isBase_of_split hc hsplit
    have htext : text = before'.reverse ++ (base ++ (text.reverse.takeWhile isBlank).reverse) := by
      rw [← List.append_assoc, ← hsplit, ← hrun, ← List.reverse_append,
        List.takeWhile_append_dropWhile, List.reverse_reverse]
    have hgap : ∀ d ∈ (text.reverse.takeWhile isBlank).reverse, isBlank d = true :=
      fun d hd => List.mem_takeWhile_imp (List.mem_reverse.mp hd)
    have htakes : Takes (.leaf (before'.reverse ++ (base ++ _)) :: nodes) _ _ :=
      .text hbase hgap (by rwa [List.getLast?_reverse])
    rw [← htext, List.isEmpty_reverse] at htakes
    exact htakes
  | case4 n nodes hleaf => exact .node hleaf

end Reading

end SpokenMath
