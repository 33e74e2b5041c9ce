import SpokenMath.Deadline
import SpokenMath.Markup.Command
import SpokenMath.Markup.Token
import SpokenMath.Markup.Tree
import SpokenMath.Notice

/-!
# Reading tokens as a tree

Malformed markup is never refused. A missing closer is supplied at the end of the input, a
superfluous one is skipped, and both are noted. What can stop a reading is nesting beyond a limit,
or a spent budget of time.

**Nesting** counts the braces, brackets, arguments and environments around a token. Each of them
goes through `deeper`, so the recursion is as deep as the limit and not as the input.

**Recursion** is on a supply of steps. `readingSupply` computes it from the tokens; every call
takes tokens away or leads to one that does within four steps, so the supply never runs out.
-/

namespace SpokenMath

/-- Why a text has no tree. -/
inductive ReadError
  /-- The reading stopped in front of this text. -/
  | unreadable (rest : String)
  /-- Nesting goes beyond the limit. -/
  | tooDeep (depth limit : Nat)
  /-- The budget of time is spent. -/
  | outOfTime (elapsed : Nat)
  deriving DecidableEq, Repr

/-- The wording of an error. -/
def ReadError.message : ReadError → String
  | unreadable rest => "could not tokenize input at: '" ++ rest ++ "'"
  | tooDeep depth limit =>
    "expression nests " ++ toString depth ++ " levels deep (limit " ++ toString limit ++ ")"
  | outOfTime elapsed => "parsing ran out of time after " ++ toString elapsed ++ " ms"

/-- What a reading is held to. -/
structure ReadLimits where
  /-- The deepest nesting. -/
  maxDepth : Nat
  /-- The budget of time. -/
  deadline : Deadline

/-- A reading under way. -/
structure Reading where
  /-- The tokens ahead. -/
  tokens : List Token
  /-- The steps taken. -/
  steps : Nat
  /-- What has been noted, in order. -/
  notices : List Notice

/-- A tree, and what was noted while it was read. -/
structure Parsed where
  tree : Node
  notices : List Notice

/-- The commands without a shape, in the order of their first use. -/
def Parsed.unknownCommands (p : Parsed) : List String :=
  p.notices.filterMap fun
    | .unknownCommand name => some name
    | _ => none

namespace Reading

/-- Goes on with these tokens. -/
def at' (s : Reading) (tokens : List Token) : Reading := { s with tokens }

/-- Notes something. -/
def note (s : Reading) (n : Notice) : Reading := { s with notices := s.notices ++ [n] }

/-- Notes something that is noted at most once. -/
def noteOnce (s : Reading) (n : Notice) : Reading := if n ∈ s.notices then s else s.note n

/-- How many steps are taken between two looks at the clock. -/
def stride : Nat := 256

/-- Takes one step. -/
def tick (limits : ReadLimits) (s : Reading) : Except ReadError Reading :=
  let s := { s with steps := s.steps + 1 }
  if s.steps % stride = 0 then
    match limits.deadline.spentAt (.reading s.steps) with
    | some elapsed => .error (.outOfTime elapsed)
    | none => .ok s
  else .ok s

/-- The nesting inside one more pair of delimiters. -/
def deeper (limits : ReadLimits) (depth : Nat) : Except ReadError Nat :=
  if depth + 1 > limits.maxDepth then .error (.tooDeep (depth + 1) limits.maxDepth)
  else .ok (depth + 1)

/-! ## Sequences of nodes, the last one first -/

/-- Adds literal text at the end; neighbouring leaves are one leaf. -/
def pushText (text : Text) : List Node → List Node
  | .leaf before :: nodes => .leaf (before ++ text) :: nodes
  | nodes => .leaf text :: nodes

/-- Takes the base of a script off the end: the trailing run of digits or else the last character
of a leaf, blanks aside, or a whole node. -/
def popBase : List Node → Node × List Node
  | [] => (.group [], [])
  | .leaf text :: nodes =>
    match text.reverse.dropWhile isBlank with
    | [] => popBase nodes
    | c :: before =>
      let digits := (c :: before).takeWhile Char.isDigit
      let (base, before) :=
        if digits.isEmpty then ([c], before)
        else (digits.reverse, (c :: before).dropWhile Char.isDigit)
      (.leaf base, if before.isEmpty then nodes else .leaf before.reverse :: nodes)
  | n :: nodes => (n, nodes)

/-- A cell with nothing but blanks. -/
def isBlankCell (nodes : List Node) : Bool :=
  nodes.all fun
    | .leaf text => text.allBlank
    | _ => false

/-- Takes rows of empty cells off the end, the last row first, except for the only row. -/
def dropEmptyRows : List (List Node) → List (List Node)
  | row :: before :: rows =>
    if row.all Node.isEmptyGroup then dropEmptyRows (before :: rows) else row :: before :: rows
  | rows => rows

/-! ## Parts that need no recursion -/

/-- The tokens behind a run of blanks. -/
def skipBlank : List Token → List Token
  | .text run :: rest => if run.allBlank then rest else .text run :: rest
  | tokens => tokens

/-- What stands before the next closing brace, marks left out, and the tokens behind it. -/
def nameAndRest : List Token → Text × List Token
  | [] => ([], [])
  | .closeBrace :: rest => ([], rest)
  | .text run :: rest => let (name, rest) := nameAndRest rest; (run ++ name, rest)
  | .command word :: rest => let (name, rest) := nameAndRest rest; (word.toList ++ name, rest)
  | .escaped c :: rest => let (name, rest) := nameAndRest rest; (c :: name, rest)
  | _ :: rest => nameAndRest rest

/-- The braced name of an environment; a missing one is empty. -/
def bracedName (tokens : List Token) : String × List Token :=
  match skipBlank tokens with
  | .openBrace :: rest =>
    let (name, rest) := nameAndRest rest
    (String.ofList (Text.trim name), rest)
  | tokens => ("", tokens)

/-- The tokens behind a point that stands for no delimiter. -/
def skipPoint : List Token → List Token
  | .text ('.' :: run) :: rest => if run.isEmpty then rest else .text run :: rest
  | tokens => tokens

/-- Environments with a title in brackets. -/
def isStatementEnvironment (name : String) : Bool :=
  ["theorem", "lemma", "proposition", "corollary", "definition", "example", "remark",
    "proof"].contains (String.ofList (Text.trimEndOf '*' name.toList))

/-- Reads the same kind of thing `n` times. -/
def times (read : Reading → Except ReadError (Node × Reading)) :
    Nat → Reading → Except ReadError (List Node × Reading)
  | 0, s => .ok ([], s)
  | n + 1, s => do
    let (x, s) ← read s
    let (xs, s) ← times read n s
    .ok (x :: xs, s)

/-- What ends a sequence of nodes. -/
inductive Stop
  /-- The end of the input. -/
  | atEnd
  /-- A closing brace, which is taken. -/
  | atBrace
  /-- A closing bracket, which is taken. -/
  | atBracket
  /-- The end of a cell, which is left in place. -/
  | atCell
  deriving DecidableEq, Repr

/-! ## The reading itself -/

/-- The supply is used up; this does not happen. -/
def exhausted (s : Reading) : ReadError :=
  .unreadable (String.ofList ((s.tokens.flatMap Token.source).take 20))

mutual

/-- Reads nodes up to `stop`, behind those read already. -/
def readNodes (limits : ReadLimits) :
    Nat → Nat → Stop → List Node → Reading → Except ReadError (List Node × Reading)
  | 0, _, _, _, s => .error s.exhausted
  | supply + 1, depth, stop, nodes, s => do
    let s ← s.tick limits
    match s.tokens with
    | [] =>
      let open' := stop == .atBrace || stop == .atBracket
      .ok (nodes.reverse, if open' then s.noteOnce .unbalancedDelimiter else s)
    | .closeBrace :: rest =>
      if stop = .atBrace then .ok (nodes.reverse, s.at' rest)
      else if stop = .atCell then .ok (nodes.reverse, s)
      else
        let s := (s.at' rest).noteOnce .unbalancedDelimiter
        readNodes limits supply depth stop nodes s
    | .closeBracket :: rest =>
      if stop = .atBracket then .ok (nodes.reverse, s.at' rest)
      else readNodes limits supply depth stop (pushText [']'] nodes) (s.at' rest)
    | .openBracket :: rest =>
      readNodes limits supply depth stop (pushText ['['] nodes) (s.at' rest)
    | .openBrace :: rest =>
      let (group, s) ← readGroup limits supply depth (s.at' rest)
      readNodes limits supply depth stop (group :: nodes) s
    | .text run :: rest => readNodes limits supply depth stop (pushText run nodes) (s.at' rest)
    | .escaped c :: rest =>
      readNodes limits supply depth stop (.bare (String.singleton c) :: nodes) (s.at' rest)
    | .command name :: rest =>
      if stop = .atCell ∧ name = "end" then .ok (nodes.reverse, s)
      else do
        let (node, s) ← readCommand limits supply depth name (s.at' rest)
        readNodes limits supply depth stop (node.toList ++ nodes) s
    | .sub :: _ | .sup :: _ =>
      let (base, nodes) := popBase nodes
      let (node, s) ← readScripts limits supply depth base none none s
      readNodes limits supply depth stop (node :: nodes) s
    | .align :: rest | .rowSep :: rest =>
      if stop = .atCell then .ok (nodes.reverse, s)
      else readNodes limits supply depth stop (pushText [' '] nodes) (s.at' rest)

/-- Reads a group behind its opening brace. -/
def readGroup (limits : ReadLimits) : Nat → Nat → Reading → Except ReadError (Node × Reading)
  | 0, _, s => .error s.exhausted
  | supply + 1, depth, s => do
    let inner ← deeper limits depth
    let (nodes, s) ← readNodes limits supply inner .atBrace [] s
    .ok (.group nodes, s)

/-- Reads one argument: a group, a command, or one character. A missing one is an empty group. -/
def readArgument (limits : ReadLimits) : Nat → Nat → Reading → Except ReadError (Node × Reading)
  | 0, _, s => .error s.exhausted
  | supply + 1, depth, s => do
    let s ← s.tick limits
    match s.tokens with
    | .text run :: rest =>
      match run.trimStart with
      | [] => readArgument limits supply depth (s.at' rest)
      | c :: run => .ok (.leaf [c], s.at' (if run.isEmpty then rest else .text run :: rest))
    | .openBrace :: rest => readGroup limits supply depth (s.at' rest)
    | .command name :: rest =>
      if name = "end" then .ok (.group [], s)
      else do
        let inner ← deeper limits depth
        let (node, s) ← readCommand limits supply inner name (s.at' rest)
        .ok (node.getD (.group []), s)
    | .escaped c :: rest => .ok (.bare (String.singleton c), s.at' rest)
    | _ => .ok (.group [], s)

/-- Reads a bracketed argument, if there is one. -/
def readOptional (limits : ReadLimits) :
    Nat → Nat → Reading → Except ReadError (Option Node × Reading)
  | 0, _, s => .error s.exhausted
  | supply + 1, depth, s =>
    match skipBlank s.tokens with
    | .openBracket :: rest => do
      let inner ← deeper limits depth
      let (nodes, s) ← readNodes limits supply inner .atBracket [] (s.at' rest)
      .ok (some (.group nodes), s)
    | _ => .ok (none, s)

/-- Reads what belongs to a control word. Words that size a delimiter leave no node. -/
def readCommand (limits : ReadLimits) :
    Nat → Nat → String → Reading → Except ReadError (Option Node × Reading)
  | 0, _, _, s => .error s.exhausted
  | supply + 1, depth, name, s =>
    if name = "begin" then do
      let (node, s) ← readEnvironment limits supply depth s
      .ok (some node, s)
    else if name = "end" then
      let (env, rest) := bracedName s.tokens
      .ok (some (.command "end" [.leaf env.toList] none), (s.at' rest).note (.strayEnd env))
    else if name = "left" ∨ name = "right" ∨ name = "middle" then
      .ok (none, s.at' (skipPoint s.tokens))
    else
      match Shape.ofCommand? name with
      | some shape => do
        let (optional, s) ←
          if shape.optional then readOptional limits supply depth s else .ok (none, s)
        let (args, s) ← times (readArgument limits supply depth) shape.args s
        .ok (some (.command name args optional), s)
      | none =>
        let s := s.noteOnce (.unknownCommand name)
        match s.tokens with
        | .openBrace :: rest => do
          let (arg, s) ← readGroup limits supply depth (s.at' rest)
          .ok (some (.command name [arg] none), s)
        | _ => .ok (some (.bare name), s)

/-- Reads an environment behind the word that opens it. -/
def readEnvironment (limits : ReadLimits) : Nat → Nat → Reading → Except ReadError (Node × Reading)
  | 0, _, s => .error s.exhausted
  | supply + 1, depth, s => do
    let (name, rest) := bracedName s.tokens
    let inner ← deeper limits depth
    let s := s.at' rest
    let (_, s) ←
      if isStatementEnvironment name then readOptional limits supply inner s else .ok (none, s)
    let (_, s) ← times (readArgument limits supply inner) (environmentArgs name) s
    let (rows, s) ← readRows limits supply inner name [] [] s
    .ok (.environment name (dropEmptyRows rows).reverse, s)

/-- Reads the rows of an environment up to its end; rows and cells read already are given, and all
rows returned, the last one first. -/
def readRows (limits : ReadLimits) :
    Nat → Nat → String → List (List Node) → List Node → Reading →
      Except ReadError (List (List Node) × Reading)
  | 0, _, _, _, _, s => .error s.exhausted
  | supply + 1, depth, name, rows, row, s => do
    let (nodes, s) ← readNodes limits supply depth .atCell [] s
    let row := .group (if isBlankCell nodes then [] else nodes) :: row
    match s.tokens with
    | .align :: rest => readRows limits supply depth name rows row (s.at' rest)
    | .rowSep :: rest => readRows limits supply depth name (row.reverse :: rows) [] (s.at' rest)
    | .command "end" :: rest =>
      let (closing, rest) := bracedName rest
      let s := s.at' rest
      .ok (row.reverse :: rows,
        if closing = name then s else s.note (.unterminatedEnvironment name))
    | _ => .ok (row.reverse :: rows, s.note (.unterminatedEnvironment name))

/-- Hangs scripts on a base until neither kind can follow. -/
def readScripts (limits : ReadLimits) :
    Nat → Nat → Node → Option Node → Option Node → Reading → Except ReadError (Node × Reading)
  | 0, _, _, _, _, s => .error s.exhausted
  | supply + 1, depth, base, sub, sup, s =>
    match s.tokens, sub, sup with
    | .sub :: rest, none, sup => do
      let (node, s) ← readArgument limits supply depth (s.at' rest)
      readScripts limits supply depth base (some node) sup s
    | .sup :: rest, sub, none => do
      let (node, s) ← readArgument limits supply depth (s.at' rest)
      readScripts limits supply depth base sub (some node) s
    | _, sub, sup => .ok (.script base sub sup, s)

end

/-- A token counts one, and a run one more for each of its characters. -/
def weight : Token → Nat
  | .text run => run.length + 1
  | _ => 1

/-- As many steps as a reading of these tokens can take. -/
def readingSupply (tokens : List Token) : Nat :=
  8 * tokens.foldl (fun n t => n + weight t) 0 + 16

end Reading

/-- Reads a text as a tree. -/
def parse (limits : ReadLimits) (text : Text) : Except ReadError Parsed :=
  match limits.deadline.spentAt .beforeReading with
  | some elapsed => .error (.outOfTime elapsed)
  | none =>
    let tokens := tokenize text
    match Reading.readNodes limits (Reading.readingSupply tokens) 0 .atEnd [] ⟨tokens, 0, []⟩ with
    | .error e => .error e
    | .ok (nodes, s) => .ok ⟨.group nodes, s.notices⟩

end SpokenMath
