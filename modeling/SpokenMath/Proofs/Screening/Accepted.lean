import SpokenMath.Proofs.Text.Collapse
import SpokenMath.Screening.Check
import Mathlib.Tactic.SplitIfs

/-!
# What an accepted input has passed

The screening accepts an input when it is not blank, not too long, without a violation, and leaves
something when it is cleaned (`check_eq_ok_iff`). What is counted in it has kept within the limits
(`within_of_check`).
-/

namespace SpokenMath

namespace Profile

/-- The counts that have a limit of their own keep within it. -/
structure Within (p : Profile) (limits : Limits) : Prop where
  depth : p.maxDepth ≤ limits.maxDepth
  braces : p.braceImbalance ≤ limits.braceTolerance
  risky : ∀ name n, p.topRisky = some (name, n) → n ≤ limits.maxRiskyCommands
  nestedRisky : p.nestedRiskyStreak ≤ limits.maxNestedRisky
  scripts : p.scripts ≤ limits.maxScripts
  charRun : ∀ c n, p.longestCharRun = some (c, n) → n ≤ limits.maxCharRun
  commandRun : ∀ name n, p.longestCommandRun = some (name, n) → n ≤ limits.maxCommandRun

end Profile

namespace Screening

/-- The conditions under which a raw input is accepted, and what it becomes. -/
theorem check_eq_ok_iff {raw : Text} {limits : Limits} {i : SafeInput} :
    check raw limits = .ok i ↔
      raw.allBlank = false ∧ raw.size ≤ limits.maxLength ∧
        violation? (Profile.scan raw) limits = none ∧
        (clean (!limits.rejectDangerous) raw).1 ≠ [] ∧
        i = ⟨(clean (!limits.rejectDangerous) raw).1, (clean (!limits.rejectDangerous) raw).2,
          raw.size, limits.maxDepth⟩ := by
  unfold check
  cases hblank : raw.allBlank with
  | true => simp
  | false =>
    by_cases hsize : raw.size > limits.maxLength
    · simp [hsize, Nat.not_le_of_lt hsize]
    · cases hv : violation? (Profile.scan raw) limits with
      | some v => simp [hsize]
      | none =>
        cases hclean : clean (!limits.rejectDangerous) raw with
        | mk text elided => cases text <;> simp [Nat.le_of_not_lt hsize, hsize, eq_comm]

/-- What the screening lets through is the cleaned text, held to the limits of the engine. -/
theorem text_of_check {raw : Text} {limits : Limits} {i : SafeInput}
    (h : check raw limits = .ok i) :
    i.text = (clean (!limits.rejectDangerous) raw).1 ∧ i.maxDepth = limits.maxDepth := by
  obtain ⟨-, -, -, -, rfl⟩ := check_eq_ok_iff.mp h
  exact ⟨rfl, rfl⟩

/-- It has been collapsed. -/
theorem collapse_text_of_check {raw : Text} {limits : Limits} {i : SafeInput}
    (h : check raw limits = .ok i) : i.text.collapse = i.text := by
  rw [(text_of_check h).1, clean]
  exact Text.collapse_collapse _

/-! ## Limits kept -/

/-- A count that does not go beyond its limit keeps within it. -/
theorem le_of_not_beyond {α : Type} {counted : Option (α × Nat)} {limit : Nat}
    (h : ∀ x n, beyond counted limit ≠ some (x, n)) (x : α) (n : Nat)
    (hn : counted = some (x, n)) : n ≤ limit :=
  Nat.le_of_not_lt fun hlt => h x n (by simp [beyond, hn, hlt])

/-- A profile without violation keeps within the limits. -/
theorem within_of_violation?_eq_none {p : Profile} {limits : Limits}
    (h : violation? p limits = none) : p.Within limits := by
  unfold violation? at h
  split at h
  · cases h
  split at h
  · cases h
  next hdepth =>
  split at h
  · cases h
  next hexcess =>
  split at h
  · cases h
  next hbraces =>
  replace hexcess := Option.eq_none_iff_forall_ne_some.mpr hexcess
  unfold excess? at hexcess
  split at hexcess
  · cases hexcess
  next hrisky =>
  split_ifs at hexcess with hnested hscripts hdensity
  split at hexcess
  · cases hexcess
  next hchar =>
  split at hexcess
  · cases hexcess
  next hcommand =>
  exact {
    depth := Nat.le_of_not_lt hdepth
    braces := Nat.le_of_not_lt hbraces
    risky := le_of_not_beyond hrisky
    nestedRisky := Nat.le_of_not_lt hnested
    scripts := Nat.le_of_not_lt hscripts
    charRun := le_of_not_beyond hchar
    commandRun := le_of_not_beyond hcommand }

/-- **An accepted input keeps within the limits.** -/
theorem within_of_check {raw : Text} {limits : Limits} {i : SafeInput}
    (h : check raw limits = .ok i) : (Profile.scan raw).Within limits := by
  obtain ⟨-, -, hviolation, -, -⟩ := check_eq_ok_iff.mp h
  exact within_of_violation?_eq_none hviolation

/-- Where forbidden commands are refused, nothing dangerous is found in an accepted input. -/
theorem dangerous_of_check {raw : Text} {limits : Limits} {i : SafeInput}
    (h : check raw limits = .ok i) (hreject : limits.rejectDangerous = true) :
    (Profile.scan raw).dangerous = none := by
  obtain ⟨-, -, hviolation, -, -⟩ := check_eq_ok_iff.mp h
  unfold violation? at hviolation
  split at hviolation
  · cases hviolation
  next hfound =>
  cases hdangerous : (Profile.scan raw).dangerous with
  | none => rfl
  | some command => exact absurd (by simp [hdangerous, hreject]) (hfound command)

end Screening

end SpokenMath
