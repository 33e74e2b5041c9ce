import SpokenMath.Markup.Token
import SpokenMath.Screening.Limits

/-!
# Cleaning

Takes out of an accepted input what is not read aloud: comments, layout commands with their
arguments, spacing, and characters that cannot be seen. What is left is collapsed to single spaces.
Forbidden commands go too, with what they are applied to, where they are not refused.
-/

namespace SpokenMath

namespace Cleaning

/-- Layout commands with one braced argument. -/
def layoutWithArg : List String :=
  ["label", "tag", "vspace", "hspace", "phantom", "hphantom", "vphantom"]

/-- Layout commands without argument. -/
def layoutBare : List String :=
  ["displaystyle", "textstyle", "scriptstyle", "scriptscriptstyle", "limits", "nolimits",
    "nonumber", "notag", "quad", "qquad", "big", "Big", "bigg", "Bigg", "bigl", "bigr", "Bigl",
    "Bigr"]

/-- The characters that make a space when they stand behind a backslash. -/
def isSpacing (c : Char) : Bool := c == ',' || c == ';' || c == ':' || c == '!' || c == ' '

/-- Control characters and formatting characters without a shape. -/
def isHidden (c : Char) : Bool :=
  let n := c.toNat
  isControl c || (0x200B ≤ n && n ≤ 0x200F) || (0x202A ≤ n && n ≤ 0x202E) ||
    (0x2060 ≤ n && n ≤ 0x2064) || (0x2066 ≤ n && n ≤ 0x2069) || n == 0xFEFF

/-- What follows the line. -/
def skipLine (t : Text) : Text := (t.dropWhile (· != '\n')).drop 1

/-- What follows the brace that closes `depth` open ones; nothing, if it is missing. -/
def skipToClose (depth : Nat) : Text → Text
  | [] => []
  | '\\' :: [] => []
  | '\\' :: _ :: t => skipToClose depth t
  | c :: t =>
    if c = '{' then skipToClose (depth + 1) t
    else if c = '}' then if depth ≤ 1 then t else skipToClose (depth - 1) t
    else skipToClose depth t

/-- What follows the blanks and, if there is one, the braced group behind them; and whether there
is one. -/
def skipGroup (t : Text) : Bool × Text :=
  match t.trimStart with
  | '{' :: t => (true, skipToClose 1 t)
  | t => (false, t)

/-- What follows at most `n` braced groups. -/
def skipGroups : Nat → Text → Text
  | 0, t => t
  | n + 1, t =>
    match skipGroup t with
    | (true, t) => skipGroups n t
    | (false, t) => t

/-- What follows the blanks and, if there is one, the control word behind them. -/
def skipControlWord (t : Text) : Text :=
  match t.trimStart with
  | '\\' :: t => t.dropWhile Char.isAlpha
  | t => t

/-- The most arguments that go with a forbidden command. -/
def maxArgs : Nat := 3

/-- What becomes of a control word: what is written for it, what follows, and the name if it is
left out as forbidden. -/
def word (elide : Bool) (name : String) (rest : Text) : Text × Text × Option String :=
  if layoutWithArg.contains name then ([' '], (skipGroup rest).2, none)
  else if layoutBare.contains name then ([' '], rest, none)
  else if elide && forbiddenCommands.contains name then
    ([' '], skipGroups maxArgs (skipControlWord rest), some name)
  else
    let gap := match rest with
      | c :: _ => if isBlank c then [' '] else []
      | [] => []
    ('\\' :: name.toList ++ gap, rest, none)

/-! ## Nothing grows -/

theorem length_skipLine_le (t : Text) : (skipLine t).length ≤ t.length := by
  have := length_dropWhile_le (· != '\n') t
  simp only [skipLine, List.length_drop]
  omega

theorem length_skipToClose_le (depth : Nat) (t : Text) :
    (skipToClose depth t).length ≤ t.length := by
  fun_induction skipToClose depth t <;> simp_all <;> omega

theorem length_trimStart_le (t : Text) : t.trimStart.length ≤ t.length :=
  length_dropWhile_le isBlank t

theorem length_skipGroup_le (t : Text) : (skipGroup t).2.length ≤ t.length := by
  have h := length_trimStart_le t
  unfold skipGroup
  split
  · next r hr =>
    have := length_skipToClose_le 1 r
    rw [hr] at h
    simp only [List.length_cons] at h
    exact Nat.le_trans this (Nat.le_of_succ_le h)
  · exact h

theorem length_skipGroups_le (n : Nat) (t : Text) : (skipGroups n t).length ≤ t.length := by
  induction n generalizing t with
  | zero => exact Nat.le_refl _
  | succ n ih =>
    have h := length_skipGroup_le t
    unfold skipGroups
    split
    · next r hr => rw [hr] at h; exact Nat.le_trans (ih r) h
    · next r hr => rw [hr] at h; exact h

theorem length_skipControlWord_le (t : Text) : (skipControlWord t).length ≤ t.length := by
  have h := length_trimStart_le t
  unfold skipControlWord
  split
  · next r hr =>
    have := length_dropWhile_le Char.isAlpha r
    rw [hr] at h
    simp only [List.length_cons] at h
    omega
  · exact h

theorem length_word_le (elide : Bool) (name : String) (rest : Text) :
    (word elide name rest).2.1.length ≤ rest.length := by
  unfold word
  split
  · exact length_skipGroup_le rest
  · split
    · exact Nat.le_refl _
    · split
      · exact Nat.le_trans (length_skipGroups_le _ _) (length_skipControlWord_le rest)
      · exact Nat.le_refl _

/-! ## The cleaning itself -/

/-- What is left of a text before it is collapsed, and the names of the forbidden commands that
were left out. -/
def strip (elide : Bool) : Text → Text × List String
  | [] => ([], [])
  | '\\' :: [] => ([], [])
  | '\\' :: c :: rest =>
    if c.isAlpha then
      let r := word elide (String.ofList (c :: rest.takeWhile Char.isAlpha))
        (rest.dropWhile Char.isAlpha)
      let (out, elided) := strip elide r.2.1
      (r.1 ++ out, r.2.2.toList ++ elided)
    else
      let (out, elided) := strip elide rest
      if isSpacing c then (' ' :: out, elided)
      else if isHidden c then (out, elided)
      else ('\\' :: c :: out, elided)
  | c :: rest =>
    if c = '%' then
      let (out, elided) := strip elide (skipLine rest)
      (' ' :: out, elided)
    else
      let (out, elided) := strip elide rest
      if c = '\n' ∨ c = '\r' ∨ c = '\t' then (' ' :: out, elided)
      else if isHidden c then (out, elided)
      else (c :: out, elided)
termination_by t => t.length
decreasing_by
  · have h₁ := length_dropWhile_le Char.isAlpha rest
    have h₂ := length_word_le elide (String.ofList (c :: rest.takeWhile Char.isAlpha))
      (rest.dropWhile Char.isAlpha)
    simp only [List.length_cons]
    omega
  · simp only [List.length_cons]
    omega
  · have := length_skipLine_le rest
    simp only [List.length_cons]
    omega
  · simp only [List.length_cons]
    omega

end Cleaning

/-- The cleaned text, and the names of the forbidden commands that were left out of it, which
happens only under `elide`. -/
def clean (elide : Bool) (t : Text) : Text × List String :=
  let (out, elided) := Cleaning.strip elide t
  (Text.collapse out, elided)

end SpokenMath
