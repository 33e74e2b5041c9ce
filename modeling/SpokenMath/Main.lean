import SpokenMath.CommandLine.Run
import Std.Time.DateTime.Timestamp

/-!
# The program

Runs a command line with files, standard streams and a clock.
-/

namespace SpokenMath

namespace Console

/-- The wording of a failure to open a file. -/
def wording : IO.Error → String
  | .noFileOrDirectory .. => "No such file or directory (os error 2)"
  | .permissionDenied .. => "Permission denied (os error 13)"
  | .inappropriateType .. => "Is a directory (os error 21)"
  | e => toString e

/-- The bytes of a file, or why it cannot be read. -/
def read (path : String) : IO (Except String (List UInt8)) := do
  try
    let bytes ← IO.FS.readBinFile path
    return .ok bytes.data.toList
  catch e => return .error (wording e)

/-- Writes a file. A failure is passed over. -/
def write (path : String) (bytes : List UInt8) : IO Unit := do
  try IO.FS.writeBinFile path ⟨bytes.toArray⟩
  catch _ => return ()

/-- Prints at once. -/
def print (stream : IO.FS.Stream) (s : String) : IO Unit := do
  stream.putStr s
  stream.flush

/-- The next line of the standard input. -/
def line : IO (Option Text) := do
  let line ← (← IO.getStdin).getLine
  return if line.isEmpty then none else some line.toList

/-- Repeats a step until it gives a result. -/
partial def iterate {σ α : Type} (step : σ → IO (σ ⊕ α)) (s : σ) : IO α := do
  match ← step s with
  | .inl s => iterate step s
  | .inr a => return a

/-- The microseconds since the start of the year 1970. -/
def clock : IO Nat := do
  let time ← Std.Time.Timestamp.now
  return (time.toNanosecondsSinceUnixEpoch.val / 1000).toNat

/-- Files, standard streams and the clock. -/
def host : Host IO where
  read := read
  write := write
  out s := do print (← IO.getStdout) s
  err s := do print (← IO.getStderr) s
  line := line
  iterate := iterate
  clock := clock

end Console

end SpokenMath

/-- Runs the command line. -/
def main (args : List String) : IO UInt32 := do
  return UInt32.ofNat (← SpokenMath.CommandLine.run SpokenMath.Console.host args)
