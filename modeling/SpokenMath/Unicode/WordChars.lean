import SpokenMath.Unicode.Property

/-!
# Blanks, digits and word characters

A **word character** is alphabetic, a mark, a decimal digit, a connector or a joiner. A word
boundary lies between a word character and something else.
-/

namespace SpokenMath

namespace CharSet

/-- Blank characters. -/
def blank : CharSet :=
  ⟨[(0x9, 0xD), (0x20, 0x20), (0x85, 0x85), (0xA0, 0xA0), (0x1680, 0x1680), (0x2000, 0x200A),
    (0x2028, 0x2029), (0x202F, 0x202F), (0x205F, 0x205F), (0x3000, 0x3000)]⟩

/-- Decimal digits of any script. -/
def digit : CharSet := Unicode.Category.decimalNumber.set

/-- Word characters. -/
def word : CharSet :=
  (Unicode.Property.alphabetic ∪ Unicode.Category.mark ∪ Unicode.Category.decimalNumber ∪
    Unicode.Category.connectorPunctuation ∪ Unicode.Property.joinControl : Unicode.Recipe).set

end CharSet

/-- A word character of ASCII. -/
def isAsciiWordChar (c : Char) : Bool := c.isAlphanum || c == '_'

/-- A word character. -/
def isWordChar (c : Char) : Bool :=
  if c.toNat < 0x80 then isAsciiWordChar c else CharSet.word.contains c

/-- A letter of any script. -/
def isLetter (c : Char) : Bool :=
  if c.toNat < 0x80 then c.isAlpha else Unicode.Property.alphabetic.contains c

/-- A letter or a number of any script. -/
def isLetterOrNumber (c : Char) : Bool :=
  if c.toNat < 0x80 then c.isAlphanum
  else (Unicode.Property.alphabetic ∪ Unicode.Category.number : Unicode.Recipe).contains c

end SpokenMath
