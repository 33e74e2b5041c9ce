import SpokenMath.Screening.Cleaning
import SpokenMath.Screening.Profile
import SpokenMath.Screening.Violation

/-!
# Screening

An input is refused for the first of these causes that applies: it is blank, it is too long, it
uses a forbidden construct, it nests too deep, it repeats or nests something too often, its braces
do not balance, or nothing is left of it after cleaning. What passes is a `SafeInput`.
-/

namespace SpokenMath

/-- An input that was accepted, cleaned. -/
structure SafeInput where
  /-- The cleaned text. -/
  text : Text
  /-- The forbidden commands that were left out. -/
  elided : List String
  /-- The length of the raw input in bytes. -/
  originalLength : Nat
  /-- The limit on nesting that the input was held to. -/
  maxDepth : Nat
  deriving DecidableEq, Repr

namespace Screening

/-- A count that goes beyond its limit. -/
def beyond {α : Type} (counted : Option (α × Nat)) (limit : Nat) : Option (α × Nat) :=
  counted.filter fun (_, n) => n > limit

/-- The first excess of a profile. -/
def excess? (p : Profile) (limits : Limits) : Option Excess :=
  if let some (command, count) := beyond p.topRisky limits.maxRiskyCommands then
    some (.riskyCommands command count)
  else if p.nestedRiskyStreak > limits.maxNestedRisky then
    some (.nestedRisky p.nestedRiskyStreak)
  else if p.scripts > limits.maxScripts then some (.scripts p.scripts)
  else if limits.minScriptsForDensity ≤ p.scripts ∧ p.scriptDensity > limits.maxScriptDensity then
    some (.scriptDensity p.scripts p.nonSpaceChars)
  else if let some (c, run) := beyond p.longestCharRun limits.maxCharRun then
    some (.repeatedChar c run)
  else if let some (command, run) := beyond p.longestCommandRun limits.maxCommandRun then
    some (.repeatedCommand command run)
  else none

/-- The first violation of a profile. -/
def violation? (p : Profile) (limits : Limits) : Option Violation :=
  if let some command := p.dangerous.filter fun c => limits.rejectDangerous || c == caretEscape then
    some (.forbidden command)
  else if p.maxDepth > limits.maxDepth then some (.tooDeep p.maxDepth limits.maxDepth)
  else if let some cause := excess? p limits then some (.excessive cause)
  else if p.braceImbalance > limits.braceTolerance then
    some (.unbalanced p.openBraces p.closeBraces)
  else none

/-- Accepts and cleans a raw input, or says why it is refused. -/
def check (raw : Text) (limits : Limits) : Except Violation SafeInput :=
  if raw.allBlank then .error .empty
  else if raw.size > limits.maxLength then .error (.tooLong raw.size limits.maxLength)
  else
    match violation? (Profile.scan raw) limits with
    | some violation => .error violation
    | none =>
      let (text, elided) := clean (!limits.rejectDangerous) raw
      if text.isEmpty then .error .empty
      else .ok ⟨text, elided, raw.size, limits.maxDepth⟩

end Screening

end SpokenMath
