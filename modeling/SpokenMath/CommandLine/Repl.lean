import SpokenMath.CommandLine.Report

/-!
# Interactive sessions

Every line of a session is spoken in the same memory. A line that begins with a colon asks
something about the session instead.
-/

namespace SpokenMath

/-- A session: the memory, and the cache if there is one. -/
structure Session where
  memory : Memory := {}
  cache : Option SpeechCache

/-- Speaks an expression in a session at a time in milliseconds. -/
def Session.speak (s : Session) (e : Engine) (o : ReadingOptions) (text : Text) (now : UInt64) :
    Except EngineError Outcome × Session :=
  let x : Expression := ⟨text, o.audience, o.domain⟩
  let (r, memory, cache) := e.process x (.ofBudget e.config.timeout) now s.memory s.cache
  (r, ⟨memory, cache⟩)

namespace Repl

/-- What a line asks for. -/
inductive Input
  | nothing
  | quit
  | reset
  | memory
  | stats
  | help
  | unknown (line : String)
  | speak (line : Text)
  deriving DecidableEq, Repr

/-- Reads a line. -/
def Input.ofLine (line : Text) : Input :=
  let line := line.trim
  match String.ofList line with
  | "" => nothing
  | ":quit" | ":q" | "quit" | "exit" => quit
  | ":reset" => reset
  | ":memory" => memory
  | ":stats" => stats
  | ":help" => help
  | s => if line.head? = some ':' then unknown s else speak line

/-- The first line of a session. -/
def greeting (version : String) : String := "mspeak " ++ version ++ " (:help for commands)\n"

/-- What stands in front of every line. -/
def prompt : String := "mspeak> "

/-- The commands of a session. -/
def helpText : String :=
  ":memory  show defined symbols and open structures\n" ++
    ":stats   show cache statistics\n" ++
    ":reset   forget definitions and structures\n" ++
    ":quit    leave\n"

/-- A state of a frame with a capital. -/
def stateWord : FrameState → String
  | .opened => "Open"
  | .closed => "Closed"

/-- Everything in memory. -/
def memoryText (m : Memory) : String :=
  let topic := match m.topic with
    | some d => "topic: " ++ d.name ++ "\n"
    | none => ""
  let symbols := m.symbols.map fun (name, e) =>
    "  " ++ name ++ " = " ++ e.meaning ++ " (used " ++ toString e.refCount ++ " times)\n"
  let frames := m.frames.reverse.map fun f =>
    "  [" ++ f.kind.name ++ "] " ++ stateWord f.state ++ "\n"
  topic ++ String.join symbols ++ String.join frames

/-- A share in whole percent. A half is rounded to the even number. -/
def percent (x : Float) : Nat :=
  let y := x * 100
  let below := y.floor
  let n := below.toUInt64.toNat
  if y - below > 0.5 ∨ (y - below == 0.5 ∧ n % 2 = 1) then n + 1 else n

/-- The counts of a cache. -/
def statsText : Option SpeechCache → String
  | none => "cache disabled\n"
  | some c =>
    toString c.size ++ " entries, " ++ toString c.counters.hits ++ " hits, " ++
      toString c.counters.misses ++ " misses (" ++ toString (percent c.counters.hitRate) ++
      "% hit rate)\n"

/-- What is printed for an expression; an error, if there is no transcript of it. -/
def spokenText (r : Except EngineError Outcome) : Except String String :=
  match r with
  | .ok o =>
    (transcript o.speech o.voice).map fun line =>
      String.ofList line ++ Report.warningLines "  warning: " o.warnings
  | .error e => .ok ("error: " ++ e.message ++ "\n  " ++ e.hint ++ "\n")

/-- What a line leads to. -/
inductive Step
  /-- Print something and go on. -/
  | next (printed : String) (s : Session)
  | leave (s : Session)
  /-- Give up with an error. -/
  | fail (message : String)

/-- Takes one line. -/
def step (e : Engine) (o : ReadingOptions) (now : UInt64) (s : Session) (line : Text) : Step :=
  match Input.ofLine line with
  | .nothing => .next "" s
  | .quit => .leave s
  | .reset => .next "session cleared\n" { s with memory := {} }
  | .memory => .next (memoryText s.memory) s
  | .stats => .next (statsText s.cache) s
  | .help => .next helpText s
  | .unknown line => .next ("unknown command " ++ line ++ " (:help)\n") s
  | .speak text =>
    let (r, s) := s.speak e o text now
    match spokenText r with
    | .ok printed => .next printed s
    | .error message => .fail message

end Repl

end SpokenMath
