import SpokenMath.Pattern.Program
import SpokenMath.Unicode.WordChars

/-!
# Matching

A **cursor** stands between two characters of a text and knows the one before it, which anchors
look at. A **thread** is a run of a program that waits at a cursor for the next character. All
threads move through the text side by side, the preferred ones first. Of two threads that reach
the same instruction at the same cursor only the preferred one is kept, so there are never more of
them than instructions.

A search starts a new thread at every cursor until one accepts. From then on only threads that are
preferred to the accepted one can still change the match.

The matches in a text do not overlap, and an empty match does not stand right behind another match.
-/

namespace SpokenMath

/-- A place in a text. -/
structure Cursor where
  /-- The character before the cursor. -/
  before : Option Char
  /-- What follows the cursor. -/
  rest : Text
  /-- The number of characters that follow. -/
  left : Nat
  left_eq : left = rest.length

namespace Cursor

/-- The start of a text. -/
def start (t : Text) : Cursor := ⟨none, t, t.length, rfl⟩

/-- The character behind the cursor, and the cursor behind that. -/
@[inline] def next? (c : Cursor) : Option (Char × Cursor) :=
  match h : c.rest with
  | [] => none
  | x :: xs => some (x, ⟨some x, xs, c.left - 1, by simp [c.left_eq, h]⟩)

theorem left_next? {c d : Cursor} {x : Char} (h : c.next? = some (x, d)) : d.left < c.left := by
  have hc := c.left_eq
  unfold next? at h
  split at h
  · simp at h
  · next y ys hr =>
    simp only [Option.some.injEq, Prod.mk.injEq] at h
    obtain ⟨-, rfl⟩ := h
    simp [hc, hr]

/-- Whether a place next to a word is at a cursor. -/
def holdsEdge (c : Cursor) (isWord : Char → Bool) (e : WordEdge) : Bool :=
  let before := c.before.any isWord
  let behind := c.rest.head?.any isWord
  match e with
  | .boundary => before != behind
  | .noBoundary => before == behind
  | .start => !before && behind
  | .stop => before && !behind
  | .startHalf => !before
  | .stopHalf => !behind

/-- Whether an anchor holds at a cursor. -/
def holds (c : Cursor) (a : Anchor) : Bool :=
  match a with
  | .start => c.before.isNone
  | .stop => c.rest.isEmpty
  | .lineStart => c.before.all (· == '\n')
  | .lineStop => c.rest.head?.all (· == '\n')
  | .crlfStart =>
    c.before.all fun x => x == '\n' || (x == '\r' && c.rest.head?.all (· != '\n'))
  | .crlfStop =>
    c.rest.head?.all fun x => x == '\r' || (x == '\n' && c.before.all (· != '\r'))
  | .word e ascii => c.holdsEdge (if ascii then isAsciiWordChar else isWordChar) e

/-- What lies between a cursor and one behind it. -/
def textUpTo (c d : Cursor) : Text := c.rest.take (c.left - d.left)

end Cursor

/-- The cursors that are remembered, the last one first. -/
abbrev Saved := List (Nat × Cursor)

/-- A run of a program that stands at an instruction. -/
structure Thread where
  pc : Nat
  /-- Where the run began. -/
  start : Cursor
  saved : Saved

/-- A match. -/
structure Match where
  start : Cursor
  stop : Cursor
  saved : Saved

namespace Match

/-- The stretch that is remembered under a number. -/
def group? (m : Match) (n : Nat) : Option Text := do
  let start ← m.saved.lookup (2 * n)
  let stop ← m.saved.lookup (2 * n + 1)
  some (start.textUpTo stop)

/-- Whether nothing is matched. -/
def isEmpty (m : Match) : Bool := m.start.left == m.stop.left

end Match

namespace Program

/-- The threads that wait at a cursor, the last one first, and all instructions reached there. -/
structure Waiting where
  threads : List Thread := []
  /-- Bit by bit, whether an instruction has been reached. -/
  reached : Nat := 0

/-- Lets threads run at a cursor up to the next character that they need. Each step takes a thread
off the list, and puts others in its place where an instruction is reached for the first time. -/
def run (code : Array Instr) (c : Cursor) : Nat → List Thread → Waiting → Waiting
  | 0, _, w => w
  | _ + 1, [], w => w
  | supply + 1, t :: ts, w =>
    if w.reached.testBit t.pc then run code c supply ts w
    else
      let w := { w with reached := w.reached ||| (1 <<< t.pc) }
      match code[t.pc]? with
      | some (.fork preferred other) =>
        run code c supply ({ t with pc := preferred } :: { t with pc := other } :: ts) w
      | some (.jump target) => run code c supply ({ t with pc := target } :: ts) w
      | some (.save slot) =>
        run code c supply ({ t with pc := t.pc + 1, saved := (slot, c) :: t.saved } :: ts) w
      | some (.anchor a) =>
        if c.holds a then run code c supply ({ t with pc := t.pc + 1 } :: ts) w
        else run code c supply ts w
      | some _ => run code c supply ts { w with threads := t :: w.threads }
      | none => run code c supply ts w

/-- The threads that wait at a cursor, the preferred ones first. Every instruction adds two steps
to those for the threads themselves at most. -/
def waiting (p : Program) (c : Cursor) (ts : List Thread) : List Thread :=
  (run p.code c (ts.length + 2 * p.code.size) ts {}).threads.reverse

/-- The threads up to the first one that accepts, and that one. -/
def upToAccepted (code : Array Instr) (ts : List Thread) : List Thread × Option Thread :=
  let accepts := fun (t : Thread) => code[t.pc]? matches some .accept
  (ts.takeWhile (!accepts ·), ts.find? accepts)

/-- A thread behind a character that it reads. -/
def read? (code : Array Instr) (x : Char) (t : Thread) : Option Thread :=
  let reads :=
    match code[t.pc]? with
    | some (.char c) => c == x
    | some (.set s) => s.contains x
    | _ => false
  if reads then some { t with pc := t.pc + 1 } else none

/-- Whether a match can start at a cursor. -/
def mayStart (p : Program) (c : Cursor) : Bool :=
  p.starts.all fun s => c.rest.head?.any s.contains

/-- The first match at a cursor or behind it, given the threads that have come there and a match
found before, to which they are preferred. -/
def sweep (p : Program) (ts : List Thread) (found : Option Match) (c : Cursor) : Option Match :=
  let fresh := found.isNone && p.mayStart c
  if ts.isEmpty && !fresh then
    match found, _h : c.next? with
    | none, some (_, d) => sweep p [] none d
    | found, _ => found
  else
    let ts := if fresh then ts ++ [⟨0, c, []⟩] else ts
    let (ts, accepted) := upToAccepted p.code (p.waiting c ts)
    let found := (accepted.map fun t => ⟨t.start, c, t.saved⟩).or found
    match _h : c.next? with
    | some (x, d) => sweep p (ts.filterMap (read? p.code x)) found d
    | none => found
termination_by c.left
decreasing_by
  · exact Cursor.left_next? (by assumption)
  · exact Cursor.left_next? _h

/-- The first match at a cursor or behind it. -/
def search? (p : Program) (c : Cursor) : Option Match := p.sweep [] none c

/-- The first match in a text. -/
def find? (p : Program) (t : Text) : Option Match := p.search? (.start t)

/-- The matches at a cursor or behind it in front of those found before, the last one first. Right
behind a match, where `behindMatch` holds, an empty match does not count. -/
def matchesFrom (p : Program) (found : List Match) (behindMatch : Bool) (c : Cursor) : List Match :=
  match p.search? c with
  | none => found
  | some m =>
    if m.isEmpty then
      let found := if behindMatch && m.stop.left == c.left then found else m :: found
      match m.stop.next? with
      | some (_, d) => if d.left < c.left then matchesFrom p found false d else found
      | none => found
    else if m.stop.left < c.left then matchesFrom p (m :: found) true m.stop
    else m :: found
termination_by c.left

/-- The matches in a text, from left to right. -/
def matches' (p : Program) (t : Text) : List Match := (p.matchesFrom [] false (.start t)).reverse

/-- The text with every match replaced. -/
def replaceAll (p : Program) (render : Match → Text) (t : Text) : Text :=
  let (out, c) := (p.matches' t).foldl (fun (out, c) m =>
    ((render m).reverse ++ ((c.textUpTo m.start).reverse ++ out), m.stop)) ([], Cursor.start t)
  out.reverseAux c.rest

end Program

end SpokenMath
