import SpokenMath.Text.Basic

/-!
# Tokens of the markup

A text is cut into **control words** (a backslash and a run of ASCII letters), **escapes** (a
backslash and one other character), the seven **marks**, and longest **runs** of everything else.
Nothing is left out: `source` writes a token back as it stood in the text. Only a backslash at the
very end, which starts nothing, has no token.
-/

namespace SpokenMath

/-- A token of the markup. -/
inductive Token
  /-- A run of letters, digits, operators and blanks. -/
  | text (run : Text)
  /-- A control word, without its backslash. -/
  | command (name : String)
  /-- A backslash and a character that is neither a letter nor a backslash. -/
  | escaped (c : Char)
  /-- Two backslashes. -/
  | rowSep
  | openBrace
  | closeBrace
  | openBracket
  | closeBracket
  | sub
  | sup
  | align
  deriving DecidableEq, Repr

namespace Token

/-- The characters that never stand inside a run. -/
def isSpecial (c : Char) : Bool :=
  c == '\\' || c == '{' || c == '}' || c == '[' || c == ']' || c == '_' || c == '^' || c == '&'

/-- The characters of a run. -/
def isPlain (c : Char) : Bool := !isSpecial c

/-- The token as it stands in a text. -/
def source : Token → Text
  | text run => run
  | command name => '\\' :: name.toList
  | escaped c => ['\\', c]
  | rowSep => ['\\', '\\']
  | openBrace => ['{']
  | closeBrace => ['}']
  | openBracket => ['[']
  | closeBracket => [']']
  | sub => ['_']
  | sup => ['^']
  | align => ['&']

end Token

/-- Dropping leading elements never lengthens a list. -/
theorem length_dropWhile_le {α : Type} (p : α → Bool) (l : List α) :
    (l.dropWhile p).length ≤ l.length :=
  (List.dropWhile_sublist p).length_le

/-- The tokens of a text, in order. -/
def tokenize : Text → List Token
  | [] => []
  | '\\' :: [] => []
  | '\\' :: '\\' :: rest => .rowSep :: tokenize rest
  | '\\' :: c :: rest =>
    if c.isAlpha then
      .command (String.ofList (c :: rest.takeWhile Char.isAlpha)) ::
        tokenize (rest.dropWhile Char.isAlpha)
    else .escaped c :: tokenize rest
  | '{' :: rest => .openBrace :: tokenize rest
  | '}' :: rest => .closeBrace :: tokenize rest
  | '[' :: rest => .openBracket :: tokenize rest
  | ']' :: rest => .closeBracket :: tokenize rest
  | '_' :: rest => .sub :: tokenize rest
  | '^' :: rest => .sup :: tokenize rest
  | '&' :: rest => .align :: tokenize rest
  | c :: rest =>
    .text (c :: rest.takeWhile Token.isPlain) :: tokenize (rest.dropWhile Token.isPlain)
termination_by t => t.length
decreasing_by
  all_goals simp only [List.length_cons]
  all_goals have h₁ := length_dropWhile_le Char.isAlpha rest
  all_goals have h₂ := length_dropWhile_le Token.isPlain rest
  all_goals omega

end SpokenMath
