import SpokenMath.Markup.Reader
import SpokenMath.Rule.Book
import SpokenMath.Screening.Violation

/-!
# Errors of an engine

Why a call produced no speech. An expression that nests too deep for the reader is refused in the
same words as one that nests too deep for the screening.
-/

namespace SpokenMath

/-- Why a call produced no speech. -/
inductive EngineError
  | refused (v : Violation)
  | unread (e : ReadError)
  | rules (e : RuleError)
  /-- The budget is spent; both times are in milliseconds. -/
  | outOfTime (elapsed budget : Nat)
  deriving DecidableEq, Repr

namespace EngineError

/-- An error of the reader, under a budget. -/
def ofReadError (budget : Nat) : ReadError → EngineError
  | .tooDeep depth limit => refused (.tooDeep depth limit)
  | .outOfTime elapsed => outOfTime elapsed budget
  | e => unread e

/-- The name of an error. -/
def kind : EngineError → String
  | refused v => v.kind
  | unread _ => "parse_error"
  | rules _ => "rule_error"
  | outOfTime .. => "processing_timeout"

/-- The wording of an error. -/
def message : EngineError → String
  | refused v => "input rejected: " ++ v.message
  | unread e => "parse failed: " ++ e.message
  | rules e => "rule tables unavailable: " ++ e.message
  | outOfTime elapsed budget =>
    "processing exceeded its budget (" ++ toString elapsed ++ " ms of " ++ toString budget ++ " ms)"

/-- What to change. -/
def hint : EngineError → String
  | refused v => v.hint
  | unread _ => "Check the expression for unbalanced braces or stray commands."
  | rules _ =>
    "Fix the rule table; this is a configuration problem, not an input problem."
  | outOfTime .. => "Split the expression into smaller parts or raise the time budget."

end EngineError

end SpokenMath
