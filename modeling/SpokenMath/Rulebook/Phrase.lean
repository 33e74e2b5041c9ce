import SpokenMath.Numeral
import SpokenMath.Rule.Basic

/-!
# Phrases

What the replacements of many rules have in common. A phrase stands between spaces, so that it
never fuses with its neighbours; spaces too many go away when the wording is polished.
-/

namespace SpokenMath.Rulebook

/-- A phrase between spaces. -/
def spoken (phrase : Text) : Text := " " ++ phrase.trim ++ " "

/-- A short operand, such as `x`, `2n` or `10`, that needs no words around it. -/
def isSimpleOperand (t : Text) : Bool :=
  let t := t.trim
  !t.isEmpty && t.size ≤ 4 && t.all fun c => c.isAlphanum || c == '.'

end SpokenMath.Rulebook
