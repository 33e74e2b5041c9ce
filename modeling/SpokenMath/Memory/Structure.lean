import SpokenMath.Notice
import SpokenMath.Text.Basic

/-!
# Document structures

Theorems, proofs and the like, as they are open at some place of a document. A **frame** is one of
them on the stack of those that are open. A statement whose proof is being read is **closed**: it
is finished, but stays under its proof.
-/

namespace SpokenMath

/-- A kind of document structure. -/
inductive StructureKind
  | thm
  | lem
  | prop
  | cor
  | defn
  | ex
  | rem
  | proof
  deriving DecidableEq, Repr

namespace StructureKind

/-- Every kind. -/
def all : List StructureKind :=
  [.thm, .lem, .prop, .cor, .defn, .ex, .rem, .proof]

/-- The canonical name. -/
def name : StructureKind → String
  | .thm => "theorem"
  | .lem => "lemma"
  | .prop => "proposition"
  | .cor => "corollary"
  | .defn => "definition"
  | .ex => "example"
  | .rem => "remark"
  | .proof => "proof"

/-- Everything but a proof states something. -/
def isStatement (k : StructureKind) : Bool := k != .proof

/-- The statements that a proof may follow. -/
def isResult : StructureKind → Bool
  | .thm | .lem | .prop | .cor => true
  | _ => false

/-- Every accepted spelling. -/
def spellings : List (String × StructureKind) :=
  [("theorem", .thm), ("thm", .thm), ("lemma", .lem), ("lem", .lem),
    ("proposition", .prop), ("prop", .prop), ("corollary", .cor),
    ("cor", .cor), ("definition", .defn), ("defn", .defn),
    ("def", .defn), ("example", .ex), ("ex", .ex), ("remark", .rem),
    ("rem", .rem), ("note", .rem), ("proof", .proof), ("pf", .proof)]

/-- The kind that an environment or a heading names. Blanks around the name, stars behind it and
the case of ASCII letters do not matter. -/
def ofName? (s : String) : Option StructureKind :=
  spellings.lookup (String.ofList (Text.lower (Text.trimEndOf '*' (Text.trim s.toList))))

end StructureKind

/-- Whether a structure is still being read, or only waits for its proof to end. -/
inductive FrameState
  | opened
  | closed
  deriving DecidableEq, Repr

/-- The name of a state. -/
def FrameState.name : FrameState → String
  | opened => "open"
  | closed => "closed"

/-- A structure on the stack. -/
structure Frame where
  kind : StructureKind
  /-- The number of the expression that opened it. -/
  openedAt : Nat
  state : FrameState
  deriving DecidableEq, Repr

/-- A closing that does not fit the innermost frame. -/
structure MismatchedClose where
  /-- The innermost structure, if any is open. -/
  expected : Option StructureKind
  /-- The structure to be closed. -/
  found : StructureKind
  deriving DecidableEq, Repr

namespace MismatchedClose

/-- The wording of the error. -/
def message (e : MismatchedClose) : String :=
  "cannot close " ++ e.found.name ++ ": " ++
    match e.expected with
    | some k => "the innermost open structure is a " ++ k.name
    | none => "no structure is open"

/-- The error as a notice. -/
def notice (e : MismatchedClose) : Notice :=
  .mismatchedClose ((e.expected.map StructureKind.name).getD "nothing") e.found.name

end MismatchedClose

end SpokenMath
