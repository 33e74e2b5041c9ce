import SpokenMath.Proofs.Markup.Course

/-!
# What a reading notes

A reading notes unknown commands, delimiters that do not balance, and environments without an end or
without a beginning, and nothing else (`noted_of_parse`). Symbols are none of its business.
-/

namespace SpokenMath

namespace Notice

/-- A finding that a reading can make. -/
def IsOfReading : Notice → Prop
  | unknownCommand _ | unbalancedDelimiter | unterminatedEnvironment _ | strayEnd _ => True
  | _ => False

/-- What has been noted has been reported. -/
theorem mem_of_mem_foldl_noted {n : Notice} {said notices : List Notice}
    (h : n ∈ said.foldl noted notices) : n ∈ notices ∨ n ∈ said := by
  induction said generalizing notices with
  | nil => exact .inl h
  | cons m said ih =>
    rcases ih h with hmem | hmem
    · unfold noted at hmem
      split at hmem
      · exact .inl hmem
      · rcases List.mem_append.mp hmem with hmem | hmem
        · exact .inl hmem
        · exact .inr (List.mem_singleton.mp hmem ▸ List.mem_cons_self)
    · exact .inr (List.mem_cons_of_mem m hmem)

/-- What has been noted stays noted. -/
theorem mem_noted_of_mem {n m : Notice} {notices : List Notice} (h : n ∈ notices) :
    n ∈ noted notices m := by
  unfold noted
  split
  · exact h
  · exact List.mem_append_left [m] h

theorem mem_noted_self (n : Notice) (notices : List Notice) : n ∈ noted notices n := by
  unfold noted
  split
  · next h => exact h.2
  · exact List.mem_append_right notices (List.mem_singleton_self n)

/-- What has been reported is noted. -/
theorem mem_foldl_noted_iff {n : Notice} {said notices : List Notice} :
    n ∈ said.foldl noted notices ↔ n ∈ notices ∨ n ∈ said := by
  refine ⟨mem_of_mem_foldl_noted, fun h => ?_⟩
  induction said generalizing notices with
  | nil => exact h.resolve_right List.not_mem_nil
  | cons m said ih =>
    refine ih ?_
    rcases h with h | h
    · exact .inl (mem_noted_of_mem h)
    · rcases List.mem_cons.mp h with rfl | h
      · exact .inl (mem_noted_self n notices)
      · exact .inr h

/-- A finding that is noted at most once is noted at most once. -/
theorem count_foldl_noted_le_one {n : Notice} (h : n.isNotedOnce = true)
    {said notices : List Notice} (hnotices : notices.count n ≤ 1) :
    (said.foldl noted notices).count n ≤ 1 := by
  induction said generalizing notices with
  | nil => exact hnotices
  | cons m said ih =>
    refine ih ?_
    unfold noted
    split
    · exact hnotices
    · next hnew =>
      rw [List.count_append]
      by_cases hm : m = n
      · subst hm
        have hnone : notices.count m = 0 := List.count_eq_zero.mpr fun hmem => hnew ⟨h, hmem⟩
        simp [hnone]
      · simpa [List.count_singleton, hm] using hnotices

/-- Any other finding is noted as often as it is reported. -/
theorem count_foldl_noted {n : Notice} (h : n.isNotedOnce = false) (said notices : List Notice) :
    (said.foldl noted notices).count n = notices.count n + said.count n := by
  induction said generalizing notices with
  | nil => rfl
  | cons m said ih =>
    rw [List.foldl_cons, ih, List.count_cons]
    unfold noted
    split
    · next hold =>
      have hm : m ≠ n := fun heq => by
        rw [heq, h] at hold
        exact Bool.false_ne_true hold.1
      simp [hm]
    · rw [List.count_append, List.count_singleton]
      omega

end Notice

namespace Reading

theorem Stop.missing_isOfReading (stop : Stop) : ∀ n ∈ stop.missing, n.IsOfReading := by
  cases stop with
  | atBrace | atBracket => exact List.forall_mem_singleton.mpr trivial
  | atEnd | atCell => nofun

/-- All reports are findings of a reading. -/
theorem Course.isOfReading {levels : Nat} {task : Task} {ts rest : List Token} {ns : List Node}
    {said : List Notice} (h : Course levels task ts ns rest said) : ∀ n ∈ said, n.IsOfReading := by
  induction h with
  | atEnd => exact Stop.missing_isOfReading _
  | closed | cellEnd | argChar | argSign | argMissing | noBrackets | sizer | noArguments
  | scripted => nofun
  | strayBrace _ _ _ ih | unknownBraces _ _ _ ih => exact List.forall_mem_cons.mpr ⟨trivial, ih⟩
  | literal _ _ ih | sign _ ih | group _ ih | argBlank _ _ ih | argGroup _ ih | argWord _ _ ih
  | brackets _ _ ih => exact ih
  | braces _ _ ih ih' | word _ _ _ ih ih' | marks _ _ _ ih ih' | known _ _ _ _ ih ih'
  | moreArguments _ _ ih ih' | nextCell _ _ ih ih' | nextRow _ _ ih ih' | subscript _ _ ih ih'
  | superscript _ _ ih ih' => exact List.forall_mem_append.mpr ⟨ih, ih'⟩
  | environment _ _ _ ih ih' ih'' =>
    exact List.forall_mem_append.mpr ⟨ih, List.forall_mem_append.mpr ⟨ih', ih''⟩⟩
  | strayEnd | unknownBare => exact List.forall_mem_singleton.mpr trivial
  | lastCell _ _ _ _ ih =>
    refine List.forall_mem_append.mpr ⟨ih, ?_⟩
    split
    · nofun
    · exact List.forall_mem_singleton.mpr trivial
  | unclosed _ _ ih => exact List.forall_mem_append.mpr ⟨ih, List.forall_mem_singleton.mpr trivial⟩

end Reading

/-- A reading makes no findings but its own. -/
theorem noted_of_parse {limits : ReadLimits} {t : Text} {p : Parsed} (h : parse limits t = .ok p) :
    ∀ n ∈ p.notices, n.IsOfReading := by
  obtain ⟨ns, rest, said, -, hnotices, hcourse⟩ := course_of_parse h
  intro n hn
  rw [hnotices] at hn
  exact hcourse.isOfReading n ((Notice.mem_of_mem_foldl_noted hn).resolve_left List.not_mem_nil)

end SpokenMath
