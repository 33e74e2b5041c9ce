import SpokenMath.Text.Basic

/-!
# Tags of environments
-/

namespace SpokenMath.Tag

/-- What stands in front of the name in an opening tag. -/
def openingMark : Text := ['\\', 'b', 'e', 'g', 'i', 'n', '{']

/-- What stands in front of the name in a closing tag. -/
def closingMark : Text := ['\\', 'e', 'n', 'd', '{']

/-- The tag that opens an environment. -/
def opening (name : Text) : Text := openingMark ++ name ++ ['}']

/-- The tag that closes an environment. -/
def closing (name : Text) : Text := closingMark ++ name ++ ['}']

theorem length_opening (name : Text) : (opening name).length = name.length + 8 := by
  simp [opening, openingMark]

theorem length_closing (name : Text) : (closing name).length = name.length + 6 := by
  simp [closing, closingMark]

end SpokenMath.Tag
