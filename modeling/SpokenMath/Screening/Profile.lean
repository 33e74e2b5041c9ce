import SpokenMath.Markup.Token
import SpokenMath.Screening.Limits

/-!
# Profiles of raw input

Everything that is decided about an input before it is read is decided on its **profile**, which is
collected in one walk over its **pieces**: control words, escapes, blanks and single signs. Nesting
is counted and never followed.
-/

namespace SpokenMath

/-- A piece of raw input. -/
inductive Piece
  | blank
  /-- A backslash and a run of ASCII letters. -/
  | word (name : String)
  /-- A backslash and one other character. -/
  | escape (c : Char)
  /-- Any other character. -/
  | sign (c : Char)
  deriving DecidableEq, Repr

/-- The pieces of a text, in order. -/
def pieces : Text → List Piece
  | [] => []
  | '\\' :: [] => [.sign '\\']
  | '\\' :: c :: rest =>
    if c.isAlpha then
      .word (String.ofList (c :: rest.takeWhile Char.isAlpha)) ::
        pieces (rest.dropWhile Char.isAlpha)
    else .escape c :: pieces rest
  | c :: rest => (if isBlank c then .blank else .sign c) :: pieces rest
termination_by t => t.length
decreasing_by
  all_goals simp only [List.length_cons]
  all_goals have h := length_dropWhile_le Char.isAlpha rest
  all_goals omega

/-- What is known of an input before it is read. -/
structure Profile where
  /-- The deepest nesting of braces, brackets and parentheses. -/
  maxDepth : Nat := 0
  openBraces : Nat := 0
  closeBraces : Nat := 0
  /-- The first forbidden construct. -/
  dangerous : Option String := none
  /-- The risky command that was first used most often, with its count. -/
  topRisky : Option (String × Nat) := none
  /-- The longest streak of risky commands, each nested deeper than the one before. -/
  nestedRiskyStreak : Nat := 0
  /-- The number of script marks. -/
  scripts : Nat := 0
  nonSpaceChars : Nat := 0
  /-- The first longest run of one character. -/
  longestCharRun : Option (Char × Nat) := none
  /-- The first longest run of one command. -/
  longestCommandRun : Option (String × Nat) := none
  deriving Repr

/-- A walk under way: the profile so far and what the next piece is compared with. -/
structure Survey where
  profile : Profile := {}
  /-- The nesting here. -/
  depth : Nat := 0
  /-- The run of one character that ends here. -/
  charRun : Option (Char × Nat) := none
  /-- The last control word. -/
  lastWord : Option String := none
  /-- Since the last control word there were only braces and blanks. -/
  onlyGlue : Bool := false
  /-- The length of the run of the last control word. -/
  wordRun : Nat := 0
  /-- The nesting at the last risky command. -/
  riskyDepth : Option Nat := none
  /-- The length of the streak of risky commands that ends with the last one. -/
  streak : Nat := 0
  /-- How often each risky command was used. -/
  riskyCounts : List (String × Nat) := []
  /-- The piece before this one is a caret. -/
  afterCaret : Bool := false

/-- The longer of two counted things; the earlier one wins a tie. -/
def longer {α : Type} (best : Option (α × Nat)) (x : α) (n : Nat) : Option (α × Nat) :=
  match best with
  | some (_, m) => if n > m then some (x, n) else best
  | none => some (x, n)

namespace Survey

/-- Counts a character that is not blank, and the run that it continues. -/
def seeChar (c : Char) (s : Survey) : Survey :=
  let n := match s.charRun with
    | some (d, n) => if d = c then n + 1 else 1
    | none => 1
  { s with
    charRun := some (c, n)
    profile := { s.profile with
      nonSpaceChars := s.profile.nonSpaceChars + 1
      longestCharRun := longer s.profile.longestCharRun c n } }

/-- Notes a forbidden construct, if it is the first. -/
def seeDanger (name : String) (s : Survey) : Survey :=
  { s with profile := { s.profile with dangerous := s.profile.dangerous.or (some name) } }

/-- Counts a risky command and the streak that it continues. -/
def seeRisky (name : String) (s : Survey) : Survey :=
  let n := (s.riskyCounts.lookup name).getD 0 + 1
  let streak := match s.riskyDepth with
    | some d => if s.depth > d then s.streak + 1 else 1
    | none => 1
  { s with
    riskyCounts := (name, n) :: s.riskyCounts
    riskyDepth := some s.depth
    streak
    profile := { s.profile with
      topRisky := longer s.profile.topRisky name n
      nestedRiskyStreak := max s.profile.nestedRiskyStreak streak } }

/-- Counts a control word and the run that it continues. -/
def seeWord (name : String) (s : Survey) : Survey :=
  let s := { s with
    charRun := none
    profile := { s.profile with nonSpaceChars := s.profile.nonSpaceChars + name.length } }
  let s := if forbiddenCommands.contains name then s.seeDanger name else s
  let s := if riskyCommands.contains name then s.seeRisky name else s
  let n := if s.onlyGlue && s.lastWord == some name then s.wordRun + 1 else 1
  { s with
    wordRun := n
    lastWord := some name
    onlyGlue := true
    profile := { s.profile with longestCommandRun := longer s.profile.longestCommandRun name n } }

/-- One level deeper. -/
def descend (s : Survey) : Survey :=
  { s with
    depth := s.depth + 1
    profile := { s.profile with maxDepth := max s.profile.maxDepth (s.depth + 1) } }

/-- One level up, but not above the outermost. -/
def ascend (s : Survey) : Survey := { s with depth := s.depth - 1 }

/-- Takes a sign for what it means. -/
def seeSign (c : Char) (s : Survey) : Survey :=
  let broken := { s with onlyGlue := false }
  if c = '\\' then s
  else if c = '{' then
    { s with profile := { s.profile with openBraces := s.profile.openBraces + 1 } }.descend
  else if c = '}' then
    { s with profile := { s.profile with closeBraces := s.profile.closeBraces + 1 } }.ascend
  else if c = '[' ∨ c = '(' then broken.descend
  else if c = ']' ∨ c = ')' then broken.ascend
  else if c = '_' ∨ c = '^' then
    { broken with profile := { s.profile with scripts := s.profile.scripts + 1 } }
  else broken

/-- One piece of the walk. -/
def step (s : Survey) (p : Piece) : Survey :=
  match p with
  | .blank => { s with charRun := none, afterCaret := false }
  | .word name => { (s.seeChar '\\').seeWord name with afterCaret := false }
  | .escape _ =>
    let s := s.seeChar '\\'
    { s with
      charRun := none
      onlyGlue := false
      afterCaret := false
      profile := { s.profile with nonSpaceChars := s.profile.nonSpaceChars + 1 } }
  | .sign c =>
    let t := (s.seeChar c).seeSign c
    let t := if c = '^' && s.afterCaret then t.seeDanger caretEscape else t
    { t with afterCaret := c = '^' }

end Survey

namespace Profile

/-- The profile of a text. -/
def scan (t : Text) : Profile := ((pieces t).foldl Survey.step {}).profile

/-- The difference between the numbers of opening and closing braces. -/
def braceImbalance (p : Profile) : Nat :=
  (p.openBraces - p.closeBraces) + (p.closeBraces - p.openBraces)

/-- The share of script marks among the characters that are not blank. -/
def scriptDensity (p : Profile) : Float :=
  if p.nonSpaceChars = 0 then 0 else p.scripts.toFloat / p.nonSpaceChars.toFloat

end Profile

end SpokenMath
