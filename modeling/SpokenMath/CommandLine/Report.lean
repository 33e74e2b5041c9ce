import SpokenMath.CommandLine.Arguments
import SpokenMath.CommandLine.Json
import SpokenMath.Engine.Process

/-!
# Reports

How outcomes, errors and rules are printed. A report goes to the standard output and to the standard
error output.
-/

namespace SpokenMath

/-- What is printed. -/
structure Report where
  out : String := ""
  err : String := ""
  deriving DecidableEq, Repr

namespace Report

/-- The version of the JSON documents. -/
def schemaVersion : Int := 1

/-- A list of strings. -/
def strings (xs : List String) : Document := .list (xs.map .text)

/-- A notice. -/
def noticeDocument (n : Notice) : Document :=
  .record [("severity", .text n.severity.name), ("message", .text n.message)]

/-- An outcome, with the microseconds that the call took. -/
def outcomeDocument (input : String) (o : Outcome) (elapsed : Nat) : Document :=
  .record [("schema_version", .number schemaVersion), ("ok", .boolean true), ("input", .text input),
    ("speech", .text (String.ofList o.speech)), ("domain", .text o.subcontext.domain.name),
    ("subcontext", .text o.subcontext.topic), ("voice_role", .text o.voice.name),
    ("unknown_commands", strings o.unknownCommands),
    ("warnings", .list (o.warnings.map noticeDocument)), ("applied_rules", strings o.applied),
    ("cache_hit", .boolean o.cacheHit), ("time_us", .number elapsed)]

/-- An error. -/
def errorDocument (input : String) (e : EngineError) : Document :=
  .record [("schema_version", .number schemaVersion), ("ok", .boolean false),
    ("kind", .text e.kind), ("error", .text e.message), ("remediation", .text e.hint),
    ("input", .text input)]

/-- A rule. -/
def ruleDocument (r : Rule) : Document :=
  .record [("id", .text r.id), ("domain", .text r.domain.name),
    ("priority", .number r.priority.toInt), ("tier", .text r.priority.tier.name),
    ("description", .text r.description)]

/-- The warnings among some notices, each on a line behind some words. -/
def warningLines (words : String) (notices : List Notice) : String :=
  String.join ((notices.filter Notice.isWarning).map fun n => words ++ n.message ++ "\n")

/-- An outcome as it is printed; an error, if there is no transcript of it. -/
def ofOutcome (p : PrintingOptions) (input : String) (o : Outcome) (elapsed : Nat) :
    Except String Report :=
  match p.format with
  | .json => .ok { out := (outcomeDocument input o elapsed).compact ++ "\n" }
  | .text =>
    if p.transcript then
      (transcript o.speech o.voice).map fun line => { out := String.ofList line }
    else .ok { out := String.ofList o.speech ++ "\n", err := warningLines "warning: " o.warnings }

/-- An error as it is printed. -/
def ofError (format : OutputFormat) (input : String) (e : EngineError) : Report :=
  match format with
  | .json => { out := (errorDocument input e).compact ++ "\n" }
  | .text => { err := "error: " ++ e.message ++ "\nhint: " ++ e.hint ++ "\n" }

/-- The exit code for an error. -/
def exitCode : EngineError → Nat
  | .refused _ => 2
  | .unread _ => 3
  | .outOfTime .. => 4
  | .rules _ => 1

/-- A string at the right end of a column. -/
def padLeft (width : Nat) (s : String) : String :=
  String.ofList (List.replicate (width - s.length) ' ') ++ s

/-- A string at the left end of a column. -/
def padRight (width : Nat) (s : String) : String :=
  s ++ String.ofList (List.replicate (width - s.length) ' ')

/-- The rules for a domain as they are printed. -/
def ofRules (domain : Domain) (format : OutputFormat) (rules : List Rule) : Report :=
  match format with
  | .json => { out := (Document.list (rules.map ruleDocument)).pretty 0 ++ "\n" }
  | .text =>
    let heading := toString rules.length ++ " rules for " ++ domain.name ++ "\n"
    let lines := rules.map fun r =>
      padLeft 5 (toString r.priority.toInt) ++ "  " ++ padRight 40 r.id ++ " " ++ r.description ++
        "\n"
    { out := heading ++ String.join lines }

end Report

end SpokenMath
