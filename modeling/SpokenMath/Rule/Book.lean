import SpokenMath.Rule.Basic

/-!
# Rule books

A **rule book** holds the rules of all domains, in the order in which they were registered. The
**selection** for a domain is what a call applies, in this order: every critical rule, then the
rules of the domain itself, then the general ones. Within each of these groups a higher priority
goes first, and rules of equal priority keep their order in the book.

The **revision** of a book is a short digest of everything in it that can be seen from outside, so
that speech is never served from a cache that another book filled.
-/

namespace SpokenMath

/-- Why a rule cannot be registered. -/
inductive RuleError
  /-- The source of a regular expression does not read as one. -/
  | invalidPattern (id : String)
  /-- There is a rule of this name already. -/
  | duplicateId (id : String)
  deriving DecidableEq, Repr

/-- The wording of the error. -/
def RuleError.message : RuleError → String
  | invalidPattern id => "rule '" ++ id ++ "' has an invalid pattern"
  | duplicateId id => "rule id '" ++ id ++ "' is registered twice"

/-- A rule for a regular expression whose source may be wrong. -/
def Rule.ofSource (domain : Domain) (id : String) (priority : Priority) (source : String)
    (replacement : Replacement) (description : String) : Except RuleError Rule :=
  match Pattern.ofSource? source with
  | some p => .ok ⟨id, domain, priority, .pattern p, replacement, description⟩
  | none => .error (.invalidPattern id)

/-- The rules in the order of their priorities. -/
def byPriority (rules : List Rule) : List Rule :=
  rules.mergeSort fun a b => b.priority ≤ a.priority

/-- The rules that a call in a domain applies, in the order in which it applies them. -/
def selection (rules : List Rule) (d : Domain) : List Rule :=
  let (critical, others) := rules.partition (·.priority.isCritical)
  byPriority critical ++
    (if d.isGeneral then [] else byPriority (others.filter (·.domain == d))) ++
    byPriority (others.filter (·.domain.isGeneral))

/-- What of a rule goes into the digest of its book. -/
def Rule.revisionBytes (r : Rule) : List UInt8 :=
  let template := match r.replacement with
    | .template t => nameBytes t
    | .phrase _ => []
  nameBytes r.id ++ [0] ++ nameBytes r.domain.name ++ littleEndian32 r.priority.toUInt32 ++
    nameBytes r.matcher.source ++ [0] ++ template ++ [0xff]

/-- The message whose digest is the revision of some rules. -/
def revisionBytes (rules : List Rule) : List UInt8 := rules.flatMap Rule.revisionBytes

/-- The revision of some rules. -/
def revision (rules : List Rule) : UInt64 :=
  ofLittleEndian64 (Digest.ofMessage (revisionBytes rules)).head

/-- Rules with their revision. -/
structure RuleBook where
  /-- In the order in which they were registered. -/
  rules : List Rule
  revision : UInt64
  revision_eq : revision = SpokenMath.revision rules

namespace RuleBook

/-- The book of some rules. -/
def ofRules (rules : List Rule) : RuleBook := ⟨rules, SpokenMath.revision rules, rfl⟩

/-- The book of some rules, of which no two have the same name. -/
def build (rules : List Rule) : Except RuleError RuleBook := do
  let _ ← rules.foldlM (fun ids r =>
    if ids.contains r.id then .error (.duplicateId r.id) else .ok (r.id :: ids)) ([] : List String)
  return ofRules rules

/-- The rules for a domain, in the order in which they are applied. -/
def rulesFor (b : RuleBook) (d : Domain) : List Rule := selection b.rules d

/-- The rule with this name. -/
def find? (b : RuleBook) (id : String) : Option Rule := b.rules.find? (·.id == id)

end RuleBook

end SpokenMath
