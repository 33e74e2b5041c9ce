import SpokenMath.Domain
import SpokenMath.Memory.Structure

/-!
# Session memory

What a session knows: the meanings of symbols, the document structures that are open, and the
topic. Symbols are kept in the order of their names, without repetition; frames with the innermost
one first.

A call changes memory only by a list of **effects**, committed in one step when the call has
succeeded. Committing also advances the number of expressions, under which new symbols and frames
are recorded.
-/

namespace SpokenMath

/-- What is known of a symbol. -/
structure SymbolEntry where
  meaning : String
  /-- The number of the expression that defined it last. -/
  definedAt : Nat
  /-- How often it was used. -/
  refCount : Nat
  deriving DecidableEq, Repr

/-- The memory of one session. -/
structure Memory where
  /-- The symbols, in the order of their names. -/
  symbols : List (String × SymbolEntry) := []
  /-- The open structures, the innermost one first. -/
  frames : List Frame := []
  /-- The last domain that is not the general one. -/
  topic : Option Domain := none
  /-- The number of expressions committed. -/
  expressions : Nat := 0
  deriving DecidableEq, Repr

/-- A change that a call makes to memory. -/
inductive Effect
  | define (symbol meaning : String)
  | reference (symbol : String)
  | opening (kind : StructureKind)
  | closing (kind : StructureKind)
  | topic (domain : Domain)
  deriving DecidableEq, Repr

namespace Memory

/-! ## Symbols -/

/-- Records what is known of a symbol in a list ordered by names. -/
def record (symbol : String) (entry : SymbolEntry) :
    List (String × SymbolEntry) → List (String × SymbolEntry)
  | [] => [(symbol, entry)]
  | (s, e) :: rest =>
    if symbol = s then (symbol, entry) :: rest
    else if symbol < s then (symbol, entry) :: (s, e) :: rest
    else (s, e) :: record symbol entry rest

/-- What is known of a symbol. -/
def lookup? (m : Memory) (symbol : String) : Option SymbolEntry := m.symbols.lookup symbol

/-- Whether a symbol has a meaning. -/
def isDefined (m : Memory) (symbol : String) : Bool := (m.lookup? symbol).isSome

/-- Gives a symbol a meaning. A new meaning for a known symbol is noted and wins; the count of its
uses goes on. -/
def define (m : Memory) (symbol meaning : String) (index : Nat) : Option Notice × Memory :=
  let entry := match m.lookup? symbol with
    | some e => { e with meaning, definedAt := index }
    | none => ⟨meaning, index, 0⟩
  let notice := match m.lookup? symbol with
    | some e =>
      if e.meaning = meaning then none else some (.symbolRedefined symbol e.meaning meaning)
    | none => none
  (notice, { m with symbols := record symbol entry m.symbols })

/-- Counts a use of a symbol, if it has a meaning. -/
def reference (m : Memory) (symbol : String) : Memory :=
  match m.lookup? symbol with
  | some e => { m with symbols := record symbol { e with refCount := e.refCount + 1 } m.symbols }
  | none => m

/-! ## Structures -/

/-- The most structures that can be open. -/
def maxFrames : Nat := 64

/-- The stack as a new structure finds it: a statement takes the place of a statement on top, and a
proof closes the statement that it follows. -/
def makeRoom (kind : StructureKind) : List Frame → List Frame
  | top :: below =>
    if kind.isStatement then if top.kind.isStatement then below else top :: below
    else if top.kind.isStatement then { top with state := .closed } :: below
    else top :: below
  | [] => []

/-- Opens a structure. If too many are open, the outermost one is dropped, which is noted. -/
def openStructure (m : Memory) (kind : StructureKind) (index : Nat) : Option Notice × Memory :=
  let frames := ⟨kind, index, .opened⟩ :: makeRoom kind m.frames
  if frames.length > maxFrames then
    (some .structureOverflow, { m with frames := frames.dropLast })
  else (none, { m with frames })

/-- Closes the innermost structure if it is of this kind, and the finished statements right below
it. -/
def closeStructure (m : Memory) (kind : StructureKind) : Except MismatchedClose Memory :=
  match m.frames with
  | top :: below =>
    if top.kind = kind then
      .ok { m with frames := below.dropWhile fun f => f.state = .closed }
    else .error ⟨some top.kind, kind⟩
  | [] => .error ⟨none, kind⟩

/-- The innermost structure. -/
def current? (m : Memory) : Option Frame := m.frames.head?

/-! ## Topic and effects -/

/-- Sets the topic; the general domain is no topic. -/
def setTopic (m : Memory) (domain : Domain) : Memory :=
  { m with topic := if domain.isGeneral then none else some domain }

/-- The change that one effect makes, recorded under an index. -/
def apply (m : Memory) (index : Nat) : Effect → Option Notice × Memory
  | .define symbol meaning => m.define symbol meaning index
  | .reference symbol => (none, m.reference symbol)
  | .opening kind => m.openStructure kind index
  | .closing kind =>
    match m.closeStructure kind with
    | .ok m => (none, m)
    | .error e => (some e.notice, m)
  | .topic domain => (none, m.setTopic domain)

/-- The changes that effects make one after the other. -/
def applyAll (index : Nat) : List Effect → Memory → List Notice × Memory
  | [], m => ([], m)
  | e :: es, m =>
    let (notice, m) := m.apply index e
    let (notices, m) := applyAll index es m
    (notice.toList ++ notices, m)

/-- Commits the effects of one call. -/
def commit (m : Memory) (effects : List Effect) : List Notice × Memory :=
  let (notices, m) := applyAll m.expressions effects m
  (notices, { m with expressions := m.expressions + 1 })

end Memory

end SpokenMath
