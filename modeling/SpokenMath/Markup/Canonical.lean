import SpokenMath.Markup.Tag
import SpokenMath.Markup.Tree

/-!
# The canonical text of a tree

Rules are matched against one spelling of every construct: each argument stands in braces, scripts
are written `_` before `^` with braces, a control word without arguments is followed by one space,
and blank runs are single spaces. The outermost group is written without its braces.

The text is written from left to right onto what is there already, which is kept in reverse: a
script takes one space off its end before it is hung on. A node is *enclosed* when braces or
brackets stand around it; an enclosed group contributes its children only.
-/

namespace SpokenMath.Node

/-- Takes one space off the end of a reversed text. -/
def dropSpace : Text → Text
  | ' ' :: out => out
  | out => out

/-- A control word of this name needs a space behind it. -/
def isWord (name : String) : Bool := name.toList.all Char.isAlpha

mutual

/-- Writes a node onto a reversed text. -/
def emit (enclosed : Bool) : Node → Text → Text
  | leaf text, out => text.reverse ++ out
  | group children, out =>
    if enclosed then emitAll children out else '}' :: emitAll children ('{' :: out)
  | command name args optional, out =>
    let out := emitArgs args (emitOptional optional (name.toList.reverse ++ '\\' :: out))
    if isWord name && args.isEmpty && optional.isNone then ' ' :: out else out
  | script base sub sup, out =>
    emitMark '^' sup (emitMark '_' sub (dropSpace (emit false base out)))
  | environment name rows, out =>
    let name := name.toList
    (Tag.closing name).reverse ++ emitRows true rows ((Tag.opening name).reverse ++ out)

/-- Writes nodes one after the other. -/
def emitAll : List Node → Text → Text
  | [], out => out
  | n :: ns, out => emitAll ns (emit false n out)

/-- Writes arguments, each between braces. -/
def emitArgs : List Node → Text → Text
  | [], out => out
  | n :: ns, out => emitArgs ns ('}' :: emit true n ('{' :: out))

/-- Writes an optional argument between brackets. -/
def emitOptional : Option Node → Text → Text
  | none, out => out
  | some n, out => ']' :: emit true n ('[' :: out)

/-- Writes a script between braces behind its mark. -/
def emitMark (mark : Char) : Option Node → Text → Text
  | none, out => out
  | some n, out => '}' :: emit true n ('{' :: mark :: out)

/-- Writes cells with an alignment mark between neighbours. -/
def emitCells (first : Bool) : List Node → Text → Text
  | [], out => out
  | n :: ns, out =>
    emitCells false ns (emit true n (if first then out else [' ', '&', ' '] ++ out))

/-- Writes rows with two backslashes between neighbours. -/
def emitRows (first : Bool) : List (List Node) → Text → Text
  | [], out => out
  | row :: rows, out =>
    emitRows false rows (emitCells true row (if first then out else [' ', '\\', '\\', ' '] ++ out))

end

/-- The canonical text. -/
def linearize (n : Node) : Text := Text.collapse (emit true n []).reverse

end SpokenMath.Node
