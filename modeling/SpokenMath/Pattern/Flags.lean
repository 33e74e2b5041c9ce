import SpokenMath.Pattern.Syntax
import SpokenMath.Unicode.CaseFolding

/-!
# Flags

Flags change how an expression is read. They hold up to the end of the group that they stand in.
-/

namespace SpokenMath.Regex

/-- The flags in force. -/
structure Flags where
  /-- Letters match regardless of case. -/
  ignoreCase : Bool := false
  /-- `^` and `$` hold at every line. -/
  multiLine : Bool := false
  /-- The point matches a line end too. -/
  dotAll : Bool := false
  /-- A carriage return ends a line too. -/
  crlf : Bool := false
  /-- Repetitions are lazy, and greedy with `?` behind them. -/
  swapGreed : Bool := false
  /-- Classes and case are those of all scripts, not of ASCII alone. -/
  unicode : Bool := true
  /-- Blanks and comments between signs do not count. -/
  verbose : Bool := false

namespace Flags

/-- Sets one flag. -/
def set (f : Flags) (value : Bool) : Char → Option Flags
  | 'i' => some { f with ignoreCase := value }
  | 'm' => some { f with multiLine := value }
  | 's' => some { f with dotAll := value }
  | 'R' => some { f with crlf := value }
  | 'U' => some { f with swapGreed := value }
  | 'u' => some { f with unicode := value }
  | 'x' => some { f with verbose := value }
  | _ => none

/-- Reads flags up to a closing parenthesis or a colon. Each stands there once, and behind a hyphen
they are taken away. -/
def read (f : Flags) (value : Bool) (used : List Char) : Text → Option (Flags × Text)
  | [] => none
  | '-' :: rest => if value then read f false ('-' :: used) rest else none
  | c :: rest =>
    if c == ')' || c == ':' then
      if used.head? = some '-' then none else some (f, c :: rest)
    else if used.contains c then none
    else do
      let f ← f.set value c
      read f value (c :: used) rest

/-- A set as the flags have it: regardless of case, if they say so. -/
def fold (f : Flags) (s : CharSet) : CharSet :=
  if !f.ignoreCase then s else if f.unicode then s.ignoringCase else s.ignoringAsciiCase

/-- A set as the flags have it, or its complement. In ASCII mode, characters beyond ASCII cannot be
asked for. -/
def asSet? (f : Flags) (negated : Bool) (s : CharSet) : Option CharSet :=
  let s := f.fold s
  if f.unicode then some (if negated then s.compl else s)
  else
    let s := if negated then s.byteCompl else s
    if s.isAscii then some s else none

end Flags

end SpokenMath.Regex
