import SpokenMath.Domain

/-!
# Arguments

A command line names a command. In front of the name and behind it there may be options that hold
for all commands, and behind it the options and the operands of the command itself. An option has a
value, which follows it or is joined to it by `=`; a flag has none. What follows `--` is operands.
-/

namespace SpokenMath

/-- How results are printed. -/
inductive OutputFormat
  | text
  | json
  deriving DecidableEq, Repr

/-- How an expression is to be read. -/
structure ReadingOptions where
  audience : Audience := .undergraduate
  domain : Option Domain := none
  deriving DecidableEq, Repr

/-- How an outcome is to be printed. -/
structure PrintingOptions where
  format : OutputFormat := .text
  /-- Print the voice in front of the speech. -/
  transcript : Bool := false
  deriving DecidableEq, Repr

/-- A command with its options. -/
inductive Command
  /-- Speak one expression. -/
  | speak (expression : String) (reading : ReadingOptions) (printing : PrintingOptions)
  /-- Speak the lines of a file. -/
  | batch (file : String) (reading : ReadingOptions) (printing : PrintingOptions)
  /-- Speak line after line of the standard input. -/
  | repl (reading : ReadingOptions)
  /-- List the rules of a domain. -/
  | rules (domain : Domain) (format : OutputFormat)
  deriving DecidableEq, Repr

/-- A command with the options that hold for all. -/
structure Invocation where
  command : Command
  /-- The configuration file. -/
  config : Option String := none
  /-- The file that the cache is kept in. -/
  cacheFile : Option String := none
  noCache : Bool := false
  deriving DecidableEq, Repr

/-- What a command line asks for. -/
inductive Request
  | run (i : Invocation)
  | version
  | help
  deriving DecidableEq, Repr

namespace Arguments

/-! ## Scanning -/

/-- What is understood at some place of a command line. -/
structure Grammar where
  /-- Options that have a value. -/
  options : List String
  /-- Options that have none and come once. -/
  flags : List String
  /-- The number of operands. -/
  operands : Nat
  /-- The version can be asked for. -/
  version : Bool := false

/-- Why scanning stopped early. -/
inductive Stop
  /-- An argument is not understood. -/
  | misuse
  | version
  | help
  deriving DecidableEq, Repr

/-- What has been scanned. -/
structure Scanned where
  options : List (String × String) := []
  flags : List String := []
  operands : List String := []
  deriving DecidableEq, Repr

/-- A text that can stand as a value or as an operand: it does not begin with a hyphen, or is a
single one. -/
def isPlain (arg : String) : Bool :=
  match arg.toList with
  | '-' :: _ :: _ => false
  | _ => true

/-- Options that take a value, among those for all commands. -/
def commonOptions : List String := ["config", "cache-file"]

/-- Flags for all commands. -/
def commonFlags : List String := ["no-cache"]

/-- Goes through a cluster of one-letter flags. -/
def scanLetters (version : Bool) : List Char → Except Stop Unit
  | [] => .ok ()
  | 'v' :: cs => scanLetters version cs
  | 'h' :: _ => .error .help
  | 'V' :: _ => if version then .error .version else .error .misuse
  | _ => .error .misuse

/-- Takes an option with its value. -/
def Scanned.addOption (s : Scanned) (g : Grammar) (name value : String) : Except Stop Scanned :=
  if !(commonOptions ++ g.options).contains name || (s.options.lookup name).isSome then
    .error .misuse
  else .ok { s with options := (name, value) :: s.options }

/-- Takes a flag. -/
def Scanned.addFlag (s : Scanned) (g : Grammar) (name : String) : Except Stop Scanned :=
  if name = "help" then .error .help
  else if name = "version" ∧ g.version then .error .version
  else if name = "verbose" then .ok s
  else if !(commonFlags ++ g.flags).contains name || s.flags.contains name then .error .misuse
  else .ok { s with flags := name :: s.flags }

/-- Takes operands. -/
def Scanned.addOperands (s : Scanned) (g : Grammar) (operands : List String) :
    Except Stop Scanned :=
  if s.operands.length + operands.length ≤ g.operands then
    .ok { s with operands := s.operands ++ operands }
  else .error .misuse

/-- The name of a long option without its hyphens, and the value that is joined to it. -/
def splitLong (arg : List Char) : String × Option String :=
  let name := String.ofList (arg.takeWhile (· != '='))
  match arg.dropWhile (· != '=') with
  | [] => (name, none)
  | _ :: value => (name, some (String.ofList value))

/-- Scans arguments. Where a command is expected, scanning stops in front of its name; what is left
is the name and what follows it. -/
def scan (g : Grammar) (expectCommand : Bool) :
    List String → Scanned → Except Stop (Scanned × List String)
  | [], s => .ok (s, [])
  | arg :: rest, s =>
    match arg.toList with
    | '-' :: '-' :: [] =>
      if expectCommand then .error .misuse else (s.addOperands g rest).map (·, [])
    | '-' :: '-' :: long =>
      match splitLong long with
      | (name, some value) =>
        match s.addOption g name value with
        | .ok s => scan g expectCommand rest s
        | .error e => .error e
      | (name, none) =>
        if (commonOptions ++ g.options).contains name then
          match rest with
          | value :: rest =>
            if isPlain value then
              match s.addOption g name value with
              | .ok s => scan g expectCommand rest s
              | .error e => .error e
            else .error .misuse
          | [] => .error .misuse
        else match s.addFlag g name with
          | .ok s => scan g expectCommand rest s
          | .error e => .error e
    | '-' :: c :: letters =>
      match scanLetters g.version (c :: letters) with
      | .ok _ => scan g expectCommand rest s
      | .error e => .error e
    | _ =>
      if expectCommand then .ok (s, arg :: rest)
      else match s.addOperands g [arg] with
        | .ok s => scan g expectCommand rest s
        | .error e => .error e

/-! ## Values -/

/-- The value of an option, or its default. -/
def Scanned.value {α : Type} (s : Scanned) (name : String) (default : α)
    (read? : String → Option α) : Except Stop α :=
  match s.options.lookup name with
  | none => .ok default
  | some v => (read? v).elim (.error .misuse) .ok

/-- A format. -/
def format? : String → Option OutputFormat
  | "text" => some .text
  | "json" => some .json
  | _ => none

/-- A file, which has a name. -/
def file? (s : String) : Option (Option String) := if s.isEmpty then none else some (some s)

/-- The options on reading. -/
def Scanned.reading (s : Scanned) : Except Stop ReadingOptions := do
  let audience ← s.value "audience" .undergraduate fun v => (Audience.ofName v).toOption
  let domain ← s.value "domain" none fun v => (Domain.ofName v).toOption.map some
  return { audience, domain }

/-- The options on printing. -/
def Scanned.printing (s : Scanned) : Except Stop PrintingOptions := do
  let format ← s.value "format" .text format?
  return { format, transcript := s.flags.contains "transcript" }

/-- What is understood behind the name of a command. -/
def grammar? : String → Option Grammar
  | "speak" | "batch" => some ⟨["audience", "domain", "format"], ["transcript"], 1, false⟩
  | "repl" => some ⟨["audience", "domain"], [], 0, false⟩
  | "rules" => some ⟨["domain", "format"], [], 0, false⟩
  | _ => none

/-- The command of this name with what was scanned behind it. -/
def command (name : String) (s : Scanned) : Except Stop Command := do
  match name, s.operands with
  | "speak", [expression] => return .speak expression (← s.reading) (← s.printing)
  | "batch", [file] =>
    if file.isEmpty then throw .misuse
    else return .batch file (← s.reading) (← s.printing)
  | "repl", [] => return .repl (← s.reading)
  | "rules", [] =>
    let domain ← s.value "domain" .general fun v => (Domain.ofName v).toOption
    let format ← s.value "format" .text format?
    return .rules domain format
  | _, _ => throw .misuse

/-- Reads the arguments in front of a command and behind it. Of an option that stands in both
places the latter counts. -/
def invocation (args : List String) : Except Stop Invocation := do
  let (outer, rest) ← scan ⟨[], [], 0, true⟩ true args {}
  match rest with
  | [] => throw .misuse
  | name :: rest =>
    if name = "help" then throw .help
    match grammar? name with
    | none => throw .misuse
    | some g =>
      let (inner, _) ← scan g false rest {}
      let outerConfig ← outer.value "config" none file?
      let outerCacheFile ← outer.value "cache-file" none file?
      return {
        command := ← command name inner
        config := ← inner.value "config" outerConfig file?
        cacheFile := ← inner.value "cache-file" outerCacheFile file?
        noCache := outer.flags.contains "no-cache" || inner.flags.contains "no-cache" }

end Arguments

/-- Reads a command line; nothing, if it is not understood. -/
def Request.ofArguments? (args : List String) : Option Request :=
  match Arguments.invocation args with
  | .ok i => some (.run i)
  | .error .version => some .version
  | .error .help => some .help
  | .error .misuse => none

end SpokenMath
