import SpokenMath.CommandLine.Repl
import SpokenMath.CommandLine.Toml
import SpokenMath.Rulebook.Standard

/-!
# Running a command line

A run reads the configuration, fills the cache from its file, carries the command out, and writes
the cache back. What it needs of the outside is a **host**, so that a run can be looked at without
one.
-/

namespace SpokenMath

/-- What a run needs of the outside. -/
structure Host (m : Type → Type) where
  /-- The bytes of a file, or why it cannot be read. -/
  read : String → m (Except String (List UInt8))
  /-- Writes a file, if that is possible. -/
  write : String → List UInt8 → m Unit
  /-- Prints to the standard output. -/
  out : String → m Unit
  /-- Prints to the standard error output. -/
  err : String → m Unit
  /-- The next line of the standard input, if there is one. -/
  line : m (Option Text)
  /-- Repeats a step until it gives a result. -/
  iterate : {σ α : Type} → (σ → m (σ ⊕ α)) → σ → m α
  /-- The time in microseconds. -/
  clock : m Nat

namespace CommandLine

/-- The version of the program. -/
def version : String := "0.1.0"

/-- The configuration file that is looked for where none is named. -/
def defaultConfigFile : String := "mspeak.toml"

/-- What is said about a command line that is not understood. -/
def usageText : String :=
  "error: invalid arguments\n\nUsage: mspeak [OPTIONS] <COMMAND>\n\n" ++
    "For more information, try '--help'.\n"

/-- What the program does. -/
def helpText : String :=
  "Turn LaTeX mathematics into natural spoken English\n\nUsage: mspeak [OPTIONS] <COMMAND>\n\n" ++
    "Commands:\n  speak  Speak a single expression\n" ++
    "  batch  Speak every line of a file through one session\n  repl   Interactive session\n" ++
    "  rules  List the rules applied for a domain, in application order\n\n" ++
    "Options:\n      --config <FILE>      Configuration file\n" ++
    "      --cache-file <FILE>  Keep the result cache in this file\n" ++
    "      --no-cache           Disable the result cache\n" ++
    "  -h, --help               Print help\n  -V, --version            Print version\n"

/-- The text of a file, if it is one. -/
def textOf? (bytes : List UInt8) : Option Text :=
  (String.fromUTF8? ⟨bytes.toArray⟩).map String.toList

/-- The configuration in a file. Where it cannot be read the defaults hold. -/
def configOf (bytes : List UInt8) : EngineConfig :=
  (((textOf? bytes).bind Toml.read?).bind EngineConfig.ofSetting?).getD {}

/-- The lines of a file that are spoken: without the blanks around them, and neither empty nor
comments. -/
def expressions (content : Text) : List Text :=
  ((Text.split (· == '\n') content).map Text.trim).filter fun line =>
    !line.isEmpty && line.head? != some '%'

/-- How a command ends: with an exit code, or with an error that stops the run. -/
abbrev Ended := Except String Nat

section

variable {m : Type → Type} [Monad m]

/-- The time in milliseconds. -/
def now (host : Host m) : m UInt64 := do
  return .ofNat ((← host.clock) / 1000)

/-- Prints a report. -/
def print (host : Host m) (r : Report) : m Unit := do
  unless r.out.isEmpty do host.out r.out
  unless r.err.isEmpty do host.err r.err

/-- Speaks one expression and prints what comes out. Answers the exit code. -/
def speakOne (host : Host m) (e : Engine) (o : ReadingOptions) (p : PrintingOptions) (s : Session)
    (input : Text) : m (Ended × Session) := do
  let start ← host.clock
  let time ← now host
  let (r, s) := s.speak e o input time
  let stop ← host.clock
  let shown := String.ofList input
  match r with
  | .ok outcome =>
    match Report.ofOutcome p shown outcome (stop - start) with
    | .ok report =>
      print host report
      return (.ok 0, s)
    | .error message => return (.error message, s)
  | .error error =>
    print host (Report.ofError p.format shown error)
    return (.ok (Report.exitCode error), s)

/-- Speaks expressions one after the other. The exit code is that of the first failure. -/
def speakAll (host : Host m) (e : Engine) (o : ReadingOptions) (p : PrintingOptions) :
    List Text → Nat → Session → m (Ended × Session)
  | [], code, s => return (.ok code, s)
  | input :: inputs, code, s => do
    match ← speakOne host e o p s input with
    | (.ok c, s) => speakAll host e o p inputs (if code = 0 then c else code) s
    | (.error message, s) => return (.error message, s)

/-- Holds an interactive session. -/
def converse (host : Host m) (e : Engine) (o : ReadingOptions) (s : Session) :
    m (Ended × Session) := do
  host.out (Repl.greeting version)
  host.iterate (fun s => do
    host.out Repl.prompt
    match ← host.line with
    | none => return .inr (.ok 0, s)
    | some line =>
      let time ← now host
      match Repl.step e o time s line with
      | .next printed s =>
        unless printed.isEmpty do host.out printed
        return .inl s
      | .leave s => return .inr (.ok 0, s)
      | .fail message => return .inr (.error message, s)) s

/-- Carries a command out. -/
def perform (host : Host m) (e : Engine) (s : Session) : Command → m (Ended × Session)
  | .speak x o p => speakOne host e o p s x.toList
  | .batch file o p => do
    match ← host.read file with
    | .error cause => return (.error ("reading " ++ file ++ ": " ++ cause), s)
    | .ok bytes =>
      match textOf? bytes with
      | none =>
        return (.error ("reading " ++ file ++ ": stream did not contain valid UTF-8"), s)
      | some content => speakAll host e o p (expressions content) 0 s
  | .repl o => converse host e o s
  | .rules domain format => do
    print host (Report.ofRules domain format (e.book.rulesFor domain))
    return (.ok 0, s)

/-- The engine for a run. -/
def engine (host : Host m) (i : Invocation) : m Engine := do
  let config := match ← host.read (i.config.getD defaultConfigFile) with
    | .ok bytes => configOf bytes
    | .error _ => {}
  let cache := { config.cache with enabled := config.cache.enabled && !i.noCache }
  return ⟨{ config with cache }, .standard⟩

/-- The cache of an engine with what its file holds. A file that does not read is passed over. -/
def fill (host : Host m) (path : Option String) (cache : Option SpeechCache) :
    m (Option SpeechCache) := do
  match path, cache with
  | some path, some c =>
    match ← host.read path with
    | .error _ => return some c
    | .ok bytes =>
      match c.load Speech.codec bytes (← now host) with
      | .ok (_, c) => return some c
      | .error _ => return some c
  | _, cache => return cache

/-- Writes the cache to its file. -/
def store (host : Host m) (path : Option String) (cache : Option SpeechCache) : m Unit := do
  match path, cache with
  | some path, some c => host.write path (c.save Speech.codec (← now host)).2
  | _, _ => return ()

/-- Carries an invocation out and answers the exit code. -/
def invoke (host : Host m) (i : Invocation) : m Nat := do
  let e ← engine host i
  let path := i.cacheFile.or e.config.cache.snapshotPath
  let cache ← fill host path e.freshCache
  match ← perform host e { cache } i.command with
  | (.ok code, s) =>
    store host path s.cache
    return code
  | (.error message, _) =>
    host.err ("error: " ++ message ++ "\n")
    return 1

/-- Runs a command line and answers the exit code. -/
def run (host : Host m) (args : List String) : m Nat := do
  match Request.ofArguments? args with
  | none =>
    host.err usageText
    return 2
  | some .version =>
    host.out ("mspeak " ++ version ++ "\n")
    return 0
  | some .help =>
    host.out helpText
    return 0
  | some (.run i) => invoke host i

end

end CommandLine

end SpokenMath
