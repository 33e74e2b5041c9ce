import SpokenMath.Pattern.Class
import SpokenMath.Pattern.Weight

/-!
# Reading regular expressions

The usual notation: `|` between alternatives, `*`, `+`, `?` and counts in braces behind what they
repeat, with `?` behind them for the lazy way, `(…)` for what is remembered and `(?:…)` for what is
not, classes in brackets, and `\d`, `\s`, `\w`, `\b` with their Unicode meaning. Flags in `(?…)`
hold up to the end of the group that they stand in. Anything that does not read this way is refused,
and so is an expression that is nested too deeply or weighs too much.

The groups that are open are kept in a list, and each step reads one sign with what belongs to it.
-/

namespace SpokenMath.Regex

/-- One item of a sequence, with its nesting. -/
structure Item where
  /-- The expression; flags have none, and cannot be repeated. -/
  expr : Option Regex
  nesting : Nat := 0

/-- What has been read of a group, the last items and alternatives first. -/
structure Level where
  items : List Item := []
  alternatives : List Item := []

namespace Level

/-- Adds an item. -/
def add (l : Level) (i : Item) : Level := { l with items := i :: l.items }

/-- The items as one. -/
def sequence (l : Level) : Item :=
  match l.items with
  | [] => ⟨some empty, 0⟩
  | [i] => ⟨some (i.expr.getD empty), i.nesting⟩
  | items =>
    ⟨some (concat (items.reverse.filterMap (·.expr))),
      items.foldl (fun n i => max n i.nesting) 0 + 1⟩

/-- Ends an alternative. -/
def next (l : Level) : Level := { items := [], alternatives := l.sequence :: l.alternatives }

/-- Everything read as one item. -/
def value (l : Level) : Item :=
  match l.alternatives with
  | [] => l.sequence
  | alternatives =>
    let all := l.sequence :: alternatives
    ⟨some (either (all.reverse.filterMap (·.expr))),
      all.foldl (fun n i => max n i.nesting) 0 + 1⟩

end Level

/-- An open group: what stands in front of it, the flags there, and its number. -/
structure OpenGroup where
  outer : Level
  flags : Flags
  number : Option Nat

/-- A reading under way. -/
structure State where
  level : Level := {}
  /-- The groups that are open, the innermost one first. -/
  opened : List OpenGroup := []
  flags : Flags := {}
  /-- How many groups are remembered so far. -/
  groups : Nat := 0
  /-- The names of groups so far. -/
  names : List Text := []

namespace State

/-- Adds an expression. -/
def add (s : State) (a : Regex) (nesting : Nat) : State :=
  { s with level := s.level.add ⟨some a, nesting⟩ }

/-- Opens a group, in which other flags may hold. -/
def openGroup (s : State) (flags : Flags) (number : Option Nat) : State :=
  { s with level := {}, opened := ⟨s.level, s.flags, number⟩ :: s.opened, flags }

/-- Opens a group that is remembered under the next number. -/
def openNumbered (s : State) : State :=
  { s.openGroup s.flags (some (s.groups + 1)) with groups := s.groups + 1 }

/-- Closes the innermost group. -/
def closeGroup? (s : State) : Option State := do
  match s.opened with
  | [] => none
  | g :: opened =>
    let inside := s.level.value
    let a ← inside.expr
    let a := match g.number with
      | some n => group n a
      | none => a
    if inside.nesting + 1 > maxNesting then none
    else
      let level := g.outer.add ⟨some a, inside.nesting + 1⟩
      some { s with level, opened, flags := g.flags }

/-- Repeats the last item. -/
def repeatLast? (s : State) (low : Nat) (high : Option Nat) (lazy : Bool) : Option State :=
  match s.level.items with
  | ⟨some a, nesting⟩ :: items =>
    if nesting + 1 > maxNesting then none
    else
      let a := repeated a low high (lazy == s.flags.swapGreed)
      some { s with level := { s.level with items := ⟨some a, nesting + 1⟩ :: items } }
  | _ => none

end State

/-! ## Names of groups -/

/-- A name of a group. -/
def isGroupName : Text → Bool
  | [] => false
  | c :: cs =>
    (c == '_' || isLetter c) &&
      cs.all fun c => c == '_' || c == '.' || c == '[' || c == ']' || isLetterOrNumber c

/-- Reads a name and the angle bracket behind it. -/
def groupName? (names : List Text) (t : Text) : Option (Text × Text) :=
  let name := t.takeWhile (· != '>')
  match t.dropWhile (· != '>') with
  | '>' :: rest => if isGroupName name && !names.contains name then some (name, rest) else none
  | _ => none

/-! ## Counts -/

/-- A decimal number with blanks around it. -/
def number? (verbose : Bool) (t : Text) : Option (Nat × Text) :=
  let (digits, rest) := gather verbose (!·.isDigit) false t.trimStart
  let n := digits.foldl (fun n c => 10 * n + (c.toNat - '0'.toNat)) 0
  if digits.isEmpty || n ≥ UInt32.size then none else some (n, Text.trimStart rest)

/-- Reads a count behind its opening brace. -/
def count? (verbose : Bool) (t : Text) : Option ((Nat × Option Nat) × Text) := do
  let (low, rest) ← number? verbose (skip verbose t)
  match skip verbose rest with
  | '}' :: rest => some ((low, some low), rest)
  | ',' :: rest =>
    match skip verbose rest with
    | '}' :: rest => some ((low, none), rest)
    | rest => do
      let (high, rest) ← number? verbose rest
      match skip verbose rest with
      | '}' :: rest => if low ≤ high then some ((low, some high), rest) else none
      | _ => none
  | _ => none

/-- Reads the sign of a lazy repetition, if it is there. -/
def lazy? : Text → Bool × Text
  | '?' :: rest => (true, rest)
  | rest => (false, rest)

/-! ## Single signs -/

/-- A character as the flags have it. -/
def literal? (f : Flags) (c : Char) (byte : Bool) : Option Regex :=
  if byte && !f.unicode && 0x80 ≤ c.toNat then none
  else if f.ignoreCase then some (ofSet (f.fold (.single c)))
  else some (literal [c])

/-- The point as the flags have it. -/
def dot? (f : Flags) : Option Regex :=
  if !f.unicode then none
  else if f.dotAll then some (ofSet .any)
  else if f.crlf then some (ofSet (CharSet.ofList ['\n', '\r']).compl)
  else some (ofSet (CharSet.single '\n').compl)

/-- The start or the end of a line, or of the text, as the flags have it. -/
def lineAnchor (f : Flags) (text line crlf : Anchor) : Regex :=
  anchor (if !f.multiLine then text else if f.crlf then crlf else line)

/-- What an escape matches. -/
def Escape.expr? (f : Flags) : Escape → Option Regex
  | .literal c byte => literal? f c byte
  | .set s => some (ofSet s)
  | .place a => some (anchor a)

/-! ## The reading itself -/

namespace State

/-- Reads what follows an opening parenthesis. -/
def group? (s : State) (t : Text) : Option (State × Text) :=
  let named := fun (rest : Text) => do
    let (name, rest) ← groupName? s.names rest
    some ({ s.openNumbered with names := name :: s.names }, rest)
  match t with
  | '?' :: 'P' :: '<' :: rest => named rest
  | '?' :: '<' :: rest => named rest
  | '?' :: ')' :: _ => none
  | '?' :: rest => do
    let (flags, rest) ← s.flags.read true [] rest
    match rest with
    | ')' :: rest => some ({ s with level := s.level.add ⟨none, 0⟩, flags }, rest)
    | ':' :: rest => some (s.openGroup flags none, rest)
    | _ => none
  | rest => some (s.openNumbered, rest)

/-- Reads one sign with what belongs to it. -/
def step? (s : State) (c : Char) (rest : Text) : Option (State × Text) :=
  let add := fun (a : Option Regex) (rest : Text) => a.map fun a => (s.add a 0, rest)
  let repeated := fun (low : Nat) (high : Option Nat) (rest : Text) =>
    let (lazy, rest) := lazy? rest
    (s.repeatLast? low high lazy).map (·, rest)
  let verbose := s.flags.verbose
  match c with
  | '(' => s.group? (skip verbose rest)
  | ')' => s.closeGroup?.map (·, rest)
  | '|' => some ({ s with level := s.level.next }, rest)
  | '*' => repeated 0 none rest
  | '+' => repeated 1 none rest
  | '?' => repeated 0 (some 1) rest
  | '{' => do
    let ((low, high), rest) ← count? verbose rest
    repeated low high (skip verbose rest)
  | '[' => (class? s.flags rest).map fun (p, rest) => (s.add (ofSet p.set) p.nesting, rest)
  | '.' => add (dot? s.flags) rest
  | '^' => add (lineAnchor s.flags .start .lineStart .crlfStart) rest
  | '$' => add (lineAnchor s.flags .stop .lineStop .crlfStop) rest
  | '\\' => do
    let (e, rest) ← escape? s.flags rest
    add (e.expr? s.flags) rest
  | c => add (literal? s.flags c false) rest

/-- The expression that has been read. -/
def finish? (s : State) : Option Regex := do
  let value := s.level.value
  let a ← value.expr
  if s.opened.isEmpty && value.nesting ≤ maxNesting && a.weight ≤ maxWeight then some a else none

/-- Reads a text to its end. The recursion is on a supply of steps, one for each character. -/
def readFrom (s : State) : Nat → Text → Option Regex
  | 0, _ => none
  | supply + 1, t =>
    match skip s.flags.verbose t with
    | [] => s.finish?
    | c :: rest => do
      let (s, rest) ← s.step? c rest
      readFrom s supply rest

end State

/-- The expression that is written in a text. -/
def read? (t : Text) : Option Regex := State.readFrom {} (t.length + 1) t

end SpokenMath.Regex
