import SpokenMath.Rulebook.Phrase

/-!
# Commands with arguments

Fractions, roots, fonts, accents and annotated symbols.
-/

namespace SpokenMath.Rulebook

/-- A fraction: of small numbers in words, of short operands without a frame. -/
def fraction (c : Captures) : Text :=
  let numerator := (c.group 1).trim
  let denominator := (c.group 2).trim
  match Numeral.fraction? numerator denominator with
  | some words => spoken words
  | none =>
    if isSimpleOperand numerator && isSimpleOperand denominator then
      spoken (numerator ++ " over " ++ denominator)
    else spoken ("the fraction " ++ numerator ++ " over " ++ denominator)

/-- The name of a root, by its index. -/
def rootName (index : Text) : Text :=
  match String.ofList index with
  | "" | "2" => "the square root of"
  | "3" => "the cube root of"
  | _ =>
    match Numeral.ordinalFor? index with
    | some ordinal => "the " ++ ordinal ++ " root of"
    | none => "the root of order " ++ index ++ " of"

/-- A root with its radicand. -/
def root (c : Captures) : Text :=
  let name := rootName (c.optional.getD []).trim
  let radicand := (c.group 1).trim
  if isSimpleOperand radicand then spoken (name ++ " " ++ radicand)
  else spoken (name ++ " the quantity " ++ radicand)

/-- A blackboard letter, most of which name a set of numbers. -/
def blackboard (c : Captures) : Text :=
  let letter := (c.group 1).trim
  match String.ofList letter with
  | "R" => spoken "the real numbers"
  | "N" => spoken "the natural numbers"
  | "Z" => spoken "the integers"
  | "Q" => spoken "the rational numbers"
  | "C" => spoken "the complex numbers"
  | _ => spoken ("blackboard bold " ++ letter)

/-- A rule for a font, an accent or a decoration. -/
def decoration (id name : String) (replacement : Replacement) : Rule :=
  .command id 610 name 1 replacement "fonts, accents and decorations"

/-- A rule for a symbol with something above or below it. -/
def annotation (id name : String) (replacement : Replacement) : Rule :=
  .command id 605 name 2 replacement "annotated symbols"

/-- The rules for commands with arguments. -/
def commands : List Rule := [
  .command "general.fraction" 620 "frac" 2 (.phrase fraction) "fractions",
  .command "general.binomial" 620 "binom" 2 " $1 choose $2 " "binomial coefficients",
  .command "general.root" 620 "sqrt" 1 (.phrase root) "square and higher roots",
  .command "general.genfrac" 620 "genfrac" 6 " $5 over $6 " "generalized fractions",
  decoration "general.font.blackboard" "mathbb" (.phrase blackboard),
  decoration "general.font.script" "mathcal" " script $1 ",
  decoration "general.font.script_alt" "mathscr" " script $1 ",
  decoration "general.font.fraktur" "mathfrak" " fraktur $1 ",
  decoration "general.font.bold" "mathbf" " bold $1 ",
  decoration "general.font.bold_symbol" "boldsymbol" " bold $1 ",
  decoration "general.font.bm" "bm" " bold $1 ",
  decoration "general.font.roman" "mathrm" " $1 ",
  decoration "general.font.italic" "mathit" " $1 ",
  decoration "general.font.sans" "mathsf" " $1 ",
  decoration "general.font.mono" "mathtt" " $1 ",
  decoration "general.font.operator" "operatorname" " $1 ",
  decoration "general.accent.hat" "hat" " $1 hat ",
  decoration "general.accent.widehat" "widehat" " $1 hat ",
  decoration "general.accent.bar" "bar" " $1 bar ",
  decoration "general.accent.overline" "overline" " $1 bar ",
  decoration "general.accent.tilde" "tilde" " $1 tilde ",
  decoration "general.accent.widetilde" "widetilde" " $1 tilde ",
  decoration "general.accent.dot" "dot" " $1 dot ",
  decoration "general.accent.ddot" "ddot" " $1 double dot ",
  decoration "general.accent.vec" "vec" " vector $1 ",
  decoration "general.accent.arrow" "overrightarrow" " vector $1 ",
  decoration "general.accent.check" "check" " $1 check ",
  decoration "general.accent.underline" "underline" " $1 ",
  decoration "general.accent.cancel" "cancel" " $1 ",
  decoration "general.brace.over" "overbrace" " $1 ",
  decoration "general.brace.under" "underbrace" " $1 ",
  decoration "general.modulo" "pmod" " modulo $1 ",
  decoration "general.arrow.labelled" "xrightarrow" " maps by $1 to ",
  annotation "general.stack.over" "overset" " $2 with $1 above ",
  annotation "general.stack.rel" "stackrel" " $2 with $1 above ",
  annotation "general.stack.under" "underset" " $2 with $1 below "]

end SpokenMath.Rulebook
