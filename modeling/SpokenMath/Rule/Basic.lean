import SpokenMath.Digest
import SpokenMath.Domain
import SpokenMath.Markup.Occurrence
import SpokenMath.Pattern.Basic

/-!
# Rules

A **rule** finds notation in a text and says what is spoken instead. It finds it by a regular
expression, as a command with its arguments, or as an environment; what it found is handed to the
**replacement** as captures.

A rule rewrites every occurrence from left to right. The arguments of a command are rewritten by
the same rule before they are handed over, so nested uses are read from the inside out; the body of
an environment is left to the next pass.
-/

namespace SpokenMath

/-- What a rule found at one place. -/
structure Captures where
  /-- The groups of a regular expression, the braced arguments of a command, or the body of an
  environment. -/
  groups : List Text
  /-- The bracketed argument of a command. -/
  optional : Option Text := none
  /-- The name of an environment. -/
  name : Option Text := none
  deriving DecidableEq, Repr

/-- A group by its number, from one on. A missing group is empty. -/
def Captures.group (c : Captures) : Nat → Text
  | 0 => []
  | n + 1 => c.groups.getD n []

/-- What is spoken instead of what was found. -/
inductive Replacement
  /-- A text in which a dollar sign and a digit stand for a group, and two dollar signs for one. -/
  | template (t : String)
  /-- A phrase made from what was found. -/
  | phrase (f : Captures → Text)

namespace Replacement

/-- A template is written as a string. -/
instance : Coe String Replacement := ⟨template⟩

/-- A template with its groups filled in. -/
def expand (c : Captures) : Text → Text
  | [] => []
  | '$' :: '$' :: t => '$' :: expand c t
  | '$' :: d :: t =>
    if '1' ≤ d ∧ d ≤ '9' then c.group (d.toNat - '0'.toNat) ++ expand c t
    else '$' :: expand c (d :: t)
  | x :: t => x :: expand c t

/-- What is spoken for what was found. -/
def render (c : Captures) : Replacement → Text
  | template t => expand c t
  | phrase f => f c

end Replacement

/-- How a rule finds notation. -/
inductive Matcher
  /-- Everything that a regular expression matches. -/
  | pattern (p : Pattern)
  /-- A command with so many braced arguments. -/
  | command (name : String) (arity : Nat)
  /-- Environments with one of these names. -/
  | environment (names : List String)
  deriving DecidableEq, Repr

namespace Matcher

/-- The kind of a matcher. -/
def kind : Matcher → String
  | pattern _ => "regex"
  | command .. => "command"
  | environment _ => "environment"

/-- A matcher in one line. -/
def source (m : Matcher) : String :=
  m.kind ++ " " ++
    match m with
    | pattern p => p.source
    | command name arity => "\\" ++ name ++ "/" ++ toString arity
    | environment names => "|".intercalate names

end Matcher

/-- How urgent a rule is. -/
inductive Tier
  | low
  | medium
  | high
  | critical
  deriving DecidableEq, Repr

/-- The name of a tier. -/
def Tier.name : Tier → String
  | low => "low"
  | medium => "medium"
  | high => "high"
  | critical => "critical"

/-- The place of a rule among its like: the higher, the earlier. -/
abbrev Priority := Int32

namespace Priority

/-- The tier of a priority. -/
def tier (p : Priority) : Tier :=
  if p ≥ 1000 then .critical
  else if p ≥ 300 then .high
  else if p ≥ 200 then .medium
  else .low

/-- Critical rules hold in every domain. -/
def isCritical (p : Priority) : Bool := tier p == .critical

/-- The number with its tier. -/
def render (p : Priority) : String := toString p.toInt ++ " (" ++ (tier p).name ++ ")"

end Priority

/-- A rule. -/
structure Rule where
  id : String
  domain : Domain
  priority : Priority
  matcher : Matcher
  replacement : Replacement
  description : String

namespace Rule

/-- A general rule for a regular expression as the tables of this library write it. -/
def pattern (id : String) (priority : Priority) (source : String) (replacement : Replacement)
    (description : String) : Rule :=
  ⟨id, .general, priority, .pattern (.ofTable source), replacement, description⟩

/-- A general rule for a command. -/
def command (id : String) (priority : Priority) (name : String) (arity : Nat)
    (replacement : Replacement) (description : String) : Rule :=
  ⟨id, .general, priority, .command name arity, replacement, description⟩

/-- A general rule for environments. -/
def environment (id : String) (priority : Priority) (names : List String)
    (replacement : Replacement) (description : String) : Rule :=
  ⟨id, .general, priority, .environment names, replacement, description⟩

/-- Rules as rules of a domain. -/
def inDomain (d : Domain) (rules : List Rule) : List Rule :=
  rules.map fun r => { r with domain := d }

/-! ## Rewriting -/

/-- What stands in front of a stretch of a text. -/
def inFront (t : Text) (s : Stretch) : Text := t.take (t.length - s.rest.length - s.text.length)

/-- Every use of a command replaced, inner uses first. -/
def rewriteCommands (name : Text) (arity : Nat) (render : Captures → Text) (t : Text) : Text :=
  match _h : CommandUse.find? name arity t with
  | none => t
  | some use =>
    let groups := use.args.attach.map fun ⟨arg, _⟩ => rewriteCommands name arity render arg.text
    inFront t use.whole ++ render { groups, optional := use.optional.map (·.text) } ++
      rewriteCommands name arity render use.whole.rest
termination_by t.length
decreasing_by
  · exact (CommandUse.length_find? _h).2 _ (by assumption)
  · exact (CommandUse.length_find? _h).1

/-- Every environment with one of these names replaced; what is nested stays as it is. -/
def rewriteEnvironments (names : List Text) (render : Captures → Text) (t : Text) : Text :=
  match _h : EnvironmentUse.find? names t with
  | none => t
  | some use =>
    inFront t use.whole ++ render { groups := [use.body.text], name := some use.name.text } ++
      rewriteEnvironments names render use.whole.rest
termination_by t.length
decreasing_by exact EnvironmentUse.length_find? _h

/-- Every occurrence replaced. -/
def rewriteAll (r : Rule) (t : Text) : Text :=
  let render := fun c => r.replacement.render c
  match r.matcher with
  | .pattern p => p.replaceAll (fun m => render { groups := p.groupsOf m }) t
  | .command name arity => rewriteCommands name arity render t
  | .environment names => rewriteEnvironments (names.map String.toList) render t

/-- The text with every occurrence replaced, if that is another text. -/
def rewrite? (r : Rule) (t : Text) : Option Text :=
  let out := r.rewriteAll t
  if out = t then none else some out

end Rule

end SpokenMath
