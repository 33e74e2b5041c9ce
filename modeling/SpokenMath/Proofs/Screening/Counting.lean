import SpokenMath.Proofs.Screening.Tokens
import SpokenMath.Screening.Profile
import Mathlib.Data.List.Infix
import Mathlib.Tactic.SplitIfs

/-!
# What the walk comes to

The walk over the pieces of a text keeps many things at once, and most of them do not depend on each
other. For each of them one lemma says what a piece changes, and one what a whole walk comes to.

* A counter that some pieces raise by one ends up as the number of these pieces (`foldl_count`).
* The forbidden construct that is noted is the first that begins anywhere (`dangerous_foldl`).
* The risky command that is noted is used as often as any (`Tallied.foldl`).
-/

namespace SpokenMath

namespace Survey

/-! ## Counters -/

/-- What a walk counts is the number of the pieces that count. -/
theorem foldl_count {count : Profile → Nat} {counts : Piece → Bool}
    (hstep : ∀ s p, count (step s p).profile = count s.profile + if counts p then 1 else 0)
    (ps : List Piece) (s : Survey) :
    count (ps.foldl step s).profile = count s.profile + ps.countP counts := by
  induction ps generalizing s with
  | nil => rfl
  | cons p ps ih =>
    rw [List.foldl_cons, ih, hstep, List.countP_cons]
    omega

end Survey

/-- The piece is a script mark. -/
def Piece.isScript : Piece → Bool
  | .sign c => c = '_' ∨ c = '^'
  | _ => false

namespace Survey

/-- The three counters of signs. -/
def signCounts (s : Survey) : Nat × Nat × Nat :=
  (s.profile.openBraces, s.profile.closeBraces, s.profile.scripts)

/-- The counters where one more sign is seen. -/
def raised (s : Survey) (p : Piece) : Nat × Nat × Nat :=
  (s.profile.openBraces + if p == .sign '{' then 1 else 0,
    s.profile.closeBraces + if p == .sign '}' then 1 else 0,
    s.profile.scripts + if p.isScript then 1 else 0)

/-- A control word is no sign. -/
theorem signCounts_seeWord (name : String) (s : Survey) :
    (s.seeWord name).signCounts = s.signCounts := by
  simp only [seeWord]
  split_ifs <;> rfl

/-- What a sign means is counted once, and a second caret in a row is no other sign. -/
theorem signCounts_step_sign (s : Survey) (c : Char) :
    (s.step (.sign c)).signCounts = ((s.seeChar c).seeSign c).signCounts := by
  simp only [step]
  split_ifs <;> rfl

theorem signCounts_seeSign (s : Survey) (c : Char) :
    ((s.seeChar c).seeSign c).signCounts = s.raised (.sign c) := by
  by_cases hopen : c = '{'
  · subst hopen
    rfl
  by_cases hclose : c = '}'
  · subst hclose
    rfl
  by_cases hscript : c = '_' ∨ c = '^'
  · rcases hscript with rfl | rfl <;> rfl
  have hraised : s.raised (.sign c) = s.signCounts := by
    simp [raised, signCounts, Piece.isScript, hopen, hclose, hscript]
  rw [hraised]
  simp only [seeSign, if_neg hopen, if_neg hclose, if_neg hscript]
  split_ifs <;> rfl

/-- **Each piece raises the counter that it counts for.** -/
theorem signCounts_step (s : Survey) (p : Piece) : (s.step p).signCounts = s.raised p := by
  cases p with
  | blank | escape => rfl
  | word name => exact signCounts_seeWord name (s.seeChar '\\')
  | sign c => exact (signCounts_step_sign s c).trans (signCounts_seeSign s c)

theorem openBraces_step (s : Survey) (p : Piece) :
    (s.step p).profile.openBraces = s.profile.openBraces + if p == .sign '{' then 1 else 0 :=
  congrArg (·.1) (signCounts_step s p)

theorem closeBraces_step (s : Survey) (p : Piece) :
    (s.step p).profile.closeBraces = s.profile.closeBraces + if p == .sign '}' then 1 else 0 :=
  congrArg (·.2.1) (signCounts_step s p)

theorem scripts_step (s : Survey) (p : Piece) :
    (s.step p).profile.scripts = s.profile.scripts + if p.isScript then 1 else 0 :=
  congrArg (·.2.2) (signCounts_step s p)

end Survey

/-! ## Forbidden constructs -/

section FirstDanger

variable {α : Type} [DecidableEq α] {name? : α → Option String} {caret : α}

/-- The forbidden construct that some pieces or tokens begin with: the name of a forbidden command,
or two carets. -/
def dangerAt? (name? : α → Option String) (caret : α) : List α → Option String
  | [] => none
  | a :: l =>
    ((name? a).filter forbiddenCommands.contains).or
      (if a = caret ∧ l.head? = some caret then some caretEscape else none)

/-- The first forbidden construct that begins anywhere. -/
def firstDanger? (name? : α → Option String) (caret : α) (l : List α) : Option String :=
  l.tails.findSome? (dangerAt? name? caret)

theorem firstDanger?_nil : firstDanger? name? caret [] = none := rfl

theorem firstDanger?_cons (a : α) (l : List α) :
    firstDanger? name? caret (a :: l) =
      (dangerAt? name? caret (a :: l)).or (firstDanger? name? caret l) := by
  rw [firstDanger?, List.tails_cons, List.findSome?_cons]
  cases dangerAt? name? caret (a :: l) <;> rfl

/-- Nothing forbidden begins with what is neither a command nor a caret. -/
theorem firstDanger?_cons_of_ne {a : α} (hname : name? a = none) (hne : a ≠ caret) (l : List α) :
    firstDanger? name? caret (a :: l) = firstDanger? name? caret l := by
  rw [firstDanger?_cons, dangerAt?, hname, if_neg fun h => hne h.1]
  rfl

/-- There is no forbidden construct where there is no forbidden command and no two carets. -/
theorem firstDanger?_eq_none_iff {l : List α} :
    firstDanger? name? caret l = none ↔
      (∀ name ∈ l.filterMap name?, name ∉ forbiddenCommands) ∧ ¬ Doubled caret l := by
  induction l with
  | nil => simp [firstDanger?_nil]
  | cons a l ih =>
    have hcaret : (if a = caret ∧ l.head? = some caret then some caretEscape else none) = none ↔
        ¬ (a = caret ∧ l.head? = some caret) := by simp
    rw [firstDanger?_cons, Option.or_eq_none_iff, dangerAt?, Option.or_eq_none_iff, ih,
      doubled_cons_iff, not_or, hcaret, List.filterMap_cons]
    cases name? a with
    | none =>
      simp only [Option.filter_none, true_and]
      exact and_left_comm
    | some name =>
      have hname : (some name).filter forbiddenCommands.contains = none ↔
          name ∉ forbiddenCommands := by simp
      rw [hname, List.forall_mem_cons]
      exact and_and_and_comm

end FirstDanger

namespace Survey

/-- What is noted is kept, and a construct that is found is noted if it is the first. -/
theorem dangerous_seeWord (name : String) (s : Survey) :
    (s.seeWord name).profile.dangerous =
      s.profile.dangerous.or (if forbiddenCommands.contains name then some name else none) := by
  simp only [seeWord]
  split_ifs <;> simp [seeDanger, seeRisky]

theorem dangerous_seeSign (c : Char) (s : Survey) :
    (s.seeSign c).profile.dangerous = s.profile.dangerous := by
  simp only [seeSign]
  split_ifs <;> rfl

/-- Whether a caret makes a construct depends on what stands in front of it. -/
theorem dangerous_step_sign (s : Survey) (c : Char) :
    (s.step (.sign c)).profile.dangerous =
      s.profile.dangerous.or (if c = '^' && s.afterCaret then some caretEscape else none) := by
  simp only [step]
  split_ifs <;> simp [seeDanger, dangerous_seeSign, seeChar]

/-- **The walk notes the first forbidden construct.** A caret behind the last piece before the walk
would make one. -/
theorem dangerous_foldl (ps : List Piece) (s : Survey) :
    (ps.foldl step s).profile.dangerous = (s.profile.dangerous.or
      (if s.afterCaret ∧ ps.head? = some (.sign '^') then some caretEscape else none)).or
        (firstDanger? Piece.name? (.sign '^') ps) := by
  induction ps generalizing s with
  | nil => simp [firstDanger?_nil]
  | cons p ps ih =>
    rw [List.foldl_cons, ih, firstDanger?_cons, ← Option.or_assoc, List.head?_cons]
    congr 1
    cases p with
    | blank => simp [step, dangerAt?, Piece.name?]
    | word name =>
      have hword : (s.step (.word name)).profile.dangerous = _ :=
        dangerous_seeWord name (s.seeChar '\\')
      rw [hword, dangerAt?, Piece.name?, Option.filter_some]
      simp [step, seeChar]
    | escape c => simp [step, dangerAt?, Piece.name?, seeChar]
    | sign c =>
      rw [dangerous_step_sign]
      by_cases hc : c = '^'
      · subst hc
        simp [step, dangerAt?, Piece.name?]
      · simp [step, dangerAt?, Piece.name?, hc]

/-! ## The risky command that is used most -/

/-- The risky commands that were seen are counted, and the one that is noted is used as often as
any. -/
structure Tallied (names : List String) (s : Survey) : Prop where
  counts : ∀ name, (s.riskyCounts.lookup name).getD 0 = names.count name
  none_iff : s.profile.topRisky = none ↔ names = []
  top : ∀ best n, s.profile.topRisky = some (best, n) →
    best ∈ names ∧ names.count best = n ∧ ∀ name, names.count name ≤ n

/-- What only a risky command changes. -/
def tally (s : Survey) : List (String × Nat) × Option (String × Nat) :=
  (s.riskyCounts, s.profile.topRisky)

theorem Tallied.congr {names : List String} {s s' : Survey} (h : s.Tallied names)
    (htally : s'.tally = s.tally) : s'.Tallied names := by
  obtain ⟨hcounts, htop⟩ := Prod.mk.inj htally
  exact ⟨hcounts ▸ h.counts, htop ▸ h.none_iff, htop ▸ h.top⟩

/-- A count wins over a smaller one and over none. -/
theorem longer_cases {α : Type} (best : Option (α × Nat)) (x : α) (n : Nat) :
    ((∀ y m, best = some (y, m) → m < n) ∧ longer best x n = some (x, n)) ∨
      ∃ y m, best = some (y, m) ∧ n ≤ m ∧ longer best x n = some (y, m) := by
  cases best with
  | none => exact .inl ⟨nofun, rfl⟩
  | some counted =>
    obtain ⟨y, m⟩ := counted
    by_cases hlt : n > m
    · refine .inl ⟨fun y' m' h => ?_, if_pos hlt⟩
      obtain ⟨-, rfl⟩ := Prod.mk.inj (Option.some.inj h)
      exact hlt
    · exact .inr ⟨y, m, rfl, Nat.le_of_not_lt hlt, if_neg hlt⟩

/-- One more use of a risky command. It takes the place of the one that is noted if it is now used
more often. -/
theorem Tallied.seeRisky {names : List String} {s : Survey} (h : s.Tallied names)
    (name : String) : (s.seeRisky name).Tallied (names ++ [name]) := by
  have hself : (names ++ [name]).count name = names.count name + 1 := by simp
  have hother : ∀ other ≠ name, (names ++ [name]).count other = names.count other := by
    intro other hne
    rw [List.count_append, List.count_cons_of_ne hne.symm, List.count_nil, Nat.add_zero]
  have htop : (s.seeRisky name).profile.topRisky =
      longer s.profile.topRisky name (names.count name + 1) := by
    rw [← h.counts name]
    rfl
  have hcounts : ∀ other, ((s.seeRisky name).riskyCounts.lookup other).getD 0 =
      (names ++ [name]).count other := by
    intro other
    by_cases hne : other = name
    · rw [hne, hself, ← h.counts name]
      simp [Survey.seeRisky]
    · have hlookup : (other == name) = false := beq_false_of_ne hne
      rw [hother other hne, ← h.counts other]
      simp [Survey.seeRisky, List.lookup_cons, hlookup]
  have hne : names ++ [name] ≠ [] := List.append_ne_nil_of_right_ne_nil _ (by simp)
  rcases longer_cases s.profile.topRisky name (names.count name + 1) with
    ⟨hmore, hlonger⟩ | ⟨old, m, hold, hle, hlonger⟩
  · refine ⟨hcounts, iff_of_false (by rw [htop, hlonger]; nofun) hne, fun best n hbest => ?_⟩
    obtain ⟨rfl, rfl⟩ := Prod.mk.inj (Option.some.inj (hbest.symm.trans (htop.trans hlonger)))
    refine ⟨by simp, hself, fun other => ?_⟩
    by_cases heq : other = best
    · rw [heq, hself]
    · rw [hother other heq]
      cases hbefore : s.profile.topRisky with
      | none =>
        rw [h.none_iff.mp hbefore]
        exact Nat.zero_le _
      | some counted =>
        have hmost := (h.top counted.1 counted.2 hbefore).2.2 other
        have hlt := hmore counted.1 counted.2 hbefore
        omega
  · refine ⟨hcounts, iff_of_false (by rw [htop, hlonger]; nofun) hne, fun best n hbest => ?_⟩
    obtain ⟨rfl, rfl⟩ := Prod.mk.inj (Option.some.inj (hbest.symm.trans (htop.trans hlonger)))
    obtain ⟨hmem, hcount, hmost⟩ := h.top best n hold
    have hbest : best ≠ name := by
      rintro rfl
      omega
    refine ⟨List.mem_append_left _ hmem, (hother best hbest).trans hcount, fun other => ?_⟩
    by_cases heq : other = name
    · rw [heq, hself]
      exact hle
    · rw [hother other heq]
      exact hmost other

theorem Tallied.seeWord {names : List String} {s : Survey} (h : s.Tallied names) (name : String) :
    (s.seeWord name).Tallied (names ++ [name].filter riskyCommands.contains) := by
  by_cases hrisky : riskyCommands.contains name = true
  · rw [List.filter_cons_of_pos hrisky, List.filter_nil]
    refine (h.seeRisky name).congr ?_
    simp only [Survey.seeWord, if_pos hrisky]
    split_ifs <;> rfl
  · rw [List.filter_cons_of_neg hrisky, List.filter_nil, List.append_nil]
    refine h.congr ?_
    simp only [Survey.seeWord, if_neg hrisky]
    split_ifs <;> rfl

theorem tally_step_sign (s : Survey) (c : Char) : (s.step (.sign c)).tally = s.tally := by
  have hsign : ((s.seeChar c).seeSign c).tally = s.tally := by
    simp only [seeSign]
    split_ifs <;> rfl
  rw [← hsign]
  simp only [step]
  split_ifs <;> rfl

/-- The risky commands among the control words of some pieces. -/
def riskyNames (ps : List Piece) : List String :=
  (ps.filterMap Piece.name?).filter riskyCommands.contains

/-- **The walk notes a risky command that is used as often as any.** -/
theorem Tallied.foldl {names : List String} {s : Survey} (h : s.Tallied names) (ps : List Piece) :
    (ps.foldl step s).Tallied (names ++ riskyNames ps) := by
  induction ps generalizing s names with
  | nil => simpa [riskyNames] using h
  | cons p ps ih =>
    rw [List.foldl_cons]
    cases p with
    | blank => exact ih (h.congr rfl)
    | escape c => exact ih (h.congr rfl)
    | sign c => exact ih (h.congr (tally_step_sign s c))
    | word name =>
      have hchar : (s.seeChar '\\').Tallied names := h.congr rfl
      have hword : (s.step (.word name)).Tallied (names ++ [name].filter riskyCommands.contains) :=
        (hchar.seeWord name).congr rfl
      have hnames : riskyNames (.word name :: ps) =
          [name].filter riskyCommands.contains ++ riskyNames ps :=
        List.filter_append (p := riskyCommands.contains) [name] (ps.filterMap Piece.name?)
      rw [hnames, ← List.append_assoc]
      exact ih hword

end Survey

end SpokenMath
