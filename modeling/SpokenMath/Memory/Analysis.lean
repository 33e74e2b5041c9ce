import SpokenMath.Markup.Canonical
import SpokenMath.Markup.Command
import SpokenMath.Memory.Basic
import SpokenMath.Pattern.Basic

/-!
# What an expression tells the session

An expression defines symbols, refers to symbols that have a meaning, and opens and closes document
structures. All this is collected as effects, and nothing is changed here.

A symbol is *referred to* when it stands alone as a letter of literal text, and neither is defined
in the same expression nor bound by a quantifier, a differential, a set or a big operator.
-/

namespace SpokenMath

/-- What an expression tells the session. -/
structure Analysis where
  effects : List Effect
  /-- The symbols that are used without a meaning. -/
  notices : List Notice
  /-- The environments of an earlier expression that are closed here. -/
  resolvedEnds : List String
  deriving DecidableEq, Repr

/-- The first structure that the expression opens. -/
def Analysis.opened? (a : Analysis) : Option StructureKind :=
  a.effects.findSome? fun
    | .opening kind => some kind
    | _ => none

namespace Analysis

/-! ## Patterns -/

/-- A command whose argument is prose. -/
def textWrapper : Pattern :=
  .ofTable r"\\(?:text|textrm|textbf|textit|mathrm|mbox|emph)\‹([^‹›]*)\›"

/-- "Let x be 5" and its like. -/
def letDefinition : Pattern := .ofTable
  (r"(?i)\b(?:let|define|set|suppose|assume)\s+([A-Za-z](?:_\‹[^‹›]*\›)?|\\[A-Za-z]+)" ++
    r"\s*(?:=|:=|\\coloneqq|\\in|\bbe\b)\s*([^,;.]+)")

/-- A definition by assignment. -/
def assignment : Pattern :=
  .ofTable r"(?:^|[\s,(])([A-Za-z])\s*(?::=|\\coloneqq)\s*([^,;.]+)"

/-- "x such that" something holds. -/
def suchThat : Pattern := .ofTable r"(?i)\b([A-Za-z])\s+such\s+that\s+([^,;.]+)"

/-- The variable of a quantifier, of a differential or of a set. -/
def binder : Pattern := .ofTable
  r"\\(?:forall|exists)\s*!?\s*([A-Za-z])\b|(?:^|[^A-Za-z\\])d([A-Za-z])\b|\\\‹\s*([A-Za-z])\b"

/-- A heading. -/
def heading : Pattern := .ofTable
  r"(?i)^\s*(theorem|lemma|proposition|corollary|definition|example|remark|proof)\b"

/-- The end of a proof. -/
def proofEnd : Pattern := .ofTable r"\\(?:qed|blacksquare|qedhere)\b|\bQ\.?E\.?D\.?"

/-! ## Symbols -/

/-- The canonical text with prose as prose: "\text{Let } x = 5" reads "Let  x = 5". -/
def plainText (tree : Node) : Text :=
  textWrapper.replaceAll (fun m => (m.group? 1).getD []) tree.linearize

/-- The symbols that a text defines, with their meanings. Of several meanings the first counts. -/
def definitions (text : Text) : List (String × String) :=
  let found := [letDefinition, assignment, suchThat].flatMap fun p =>
    (p.matches' text).map fun m =>
      (String.ofList ((m.group? 1).getD []), String.ofList (Text.trim ((m.group? 2).getD [])))
  found.foldl (fun out (symbol, meaning) =>
    if meaning.isEmpty || (out.lookup symbol).isSome then out
    else out ++ [(symbol, meaning)]) []

/-- Commands whose argument is not read for symbols. -/
def isOpaque (name : String) : Bool :=
  isTextCommand name ||
    ["mathrm", "operatorname", "mathbb", "mathcal", "mathfrak", "mathscr", "label", "ref", "eqref",
      "cite", "color"].contains name

/-- The letters that stand alone in a text. The constants `e` and `i` do not count. -/
def lettersOf (t : Text) : List String :=
  (Text.split (!·.isAlpha) t).filterMap fun
    | [c] => if c = 'e' ∨ c = 'i' then none else some (String.singleton c)
    | _ => none

/-- The letters that stand alone in the literal text of a tree, in order. -/
def letters (tree : Node) : List String :=
  let clear := tree.preorder fun
    | .command name _ _ => !isOpaque name
    | _ => true
  clear.flatMap fun
    | .leaf t => lettersOf t
    | _ => []

/-- Big operators, whose subscripts bind variables. -/
def bindingCommands : List String :=
  ["sum", "prod", "lim", "int", "iint", "iiint", "oint", "bigcup", "bigcap", "max", "min", "sup",
    "inf", "limsup", "liminf"]

/-- The letters that are bound somewhere in an expression. -/
def boundLetters (tree : Node) (text : Text) : List String :=
  let named := (binder.matches' text).filterMap fun m =>
    ((m.group? 1).or ((m.group? 2).or (m.group? 3))).map String.ofList
  let indices := tree.nodes.flatMap fun
    | .script (.command name _ _) (some sub) _ =>
      if bindingCommands.contains name then letters sub else []
    | _ => []
  named ++ indices

/-! ## Structures -/

/-- The effects on structures so far. -/
structure Structures where
  effects : List Effect := []
  resolvedEnds : List String := []
  /-- The innermost structure, as far as it is known here. -/
  top : Option StructureKind
  proofClosed : Bool := false

/-- What a node opens or closes. An environment that names a structure opens it, and a proof that
ends in the same expression is closed as well. A lone end closes a proof of an earlier expression;
statements stay open until the next statement or proof. -/
def Structures.visit (notices : List Notice) (s : Structures) : Node → Structures
  | .environment name _ =>
    match StructureKind.ofName? name with
    | none => s
    | some kind =>
      let ended := kind == .proof && !notices.contains (.unterminatedEnvironment name)
      { s with
        effects := s.effects ++ .opening kind :: if ended then [.closing kind] else []
        top := some kind
        proofClosed := s.proofClosed || ended }
  | .command "end" [.leaf env] _ =>
    match StructureKind.ofName? (String.ofList env) with
    | none => s
    | some kind =>
      if !kind.isStatement && s.top == some kind then
        { s with
          effects := s.effects ++ [.closing kind]
          resolvedEnds := s.resolvedEnds ++ [String.ofList env]
          proofClosed := true }
      else s
  | _ => s

/-- The search for structures goes on below every node but a structure. -/
def staysOpen : Node → Bool
  | .environment name _ => (StructureKind.ofName? name).isNone
  | .command name _ _ => name != "end"
  | _ => true

/-- The effects of an expression on structures. -/
def structures (tree : Node) (text : Text) (notices : List Notice) (m : Memory) : Structures :=
  let start : Structures := { top := m.current?.map (·.kind) }
  let headed := (heading.find? text).bind fun h =>
    StructureKind.ofName? (String.ofList ((h.group? 1).getD []))
  let start := match headed with
    | some kind => { start with effects := [.opening kind], top := some kind }
    | none => start
  let s := (tree.preorder staysOpen).foldl (Structures.visit notices) start
  if !s.proofClosed && proofEnd.isMatch text then
    { s with effects := s.effects ++ [.closing .proof] }
  else s

end Analysis

/-- Collects what an expression tells the session. The notices of the reading say which
environments it left open. -/
def analyze (tree : Node) (notices : List Notice) (m : Memory) (reportUndefined : Bool) :
    Analysis :=
  let text := Analysis.plainText tree
  let definitions := Analysis.definitions text
  let bound := Analysis.boundLetters tree text
  let free := (Analysis.letters tree).eraseDups.filter fun x =>
    (definitions.lookup x).isNone && !bound.contains x
  let (known, unknown) := free.partition m.isDefined
  let structures := Analysis.structures tree text notices m
  { effects :=
      known.map .reference ++ definitions.map (fun (symbol, meaning) => .define symbol meaning) ++
        structures.effects
    notices := if reportUndefined then unknown.map .undefinedSymbol else []
    resolvedEnds := structures.resolvedEnds }

end SpokenMath
