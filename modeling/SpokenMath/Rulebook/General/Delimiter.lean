import SpokenMath.Rulebook.Phrase

/-!
# Functions, scripts and delimiters

Named functions with their powers and arguments, superscripts and subscripts, and what stands
between delimiters.
-/

namespace SpokenMath.Rulebook

/-- The names of functions. -/
def functionNames : List (String × String) :=
  [("sin", "sine"), ("cos", "cosine"), ("tan", "tangent"), ("cot", "cotangent"), ("sec", "secant"),
    ("csc", "cosecant"), ("arcsin", "arc sine"), ("arccos", "arc cosine"),
    ("arctan", "arc tangent"), ("sinh", "hyperbolic sine"), ("cosh", "hyperbolic cosine"),
    ("tanh", "hyperbolic tangent"), ("coth", "hyperbolic cotangent"), ("log", "log"),
    ("lg", "log"), ("ln", "natural log"), ("exp", "exponential")]

/-- The power of a function, behind its name. -/
def functionPower (power : Text) : Text :=
  match String.ofList power with
  | "" => ""
  | "2" => " squared"
  | "3" => " cubed"
  | "-1" => " inverse"
  | _ => " to the power " ++ power

/-- A named function with its power, its base and its argument: `\sin^{2}(x)` is "sine squared of
x", and `\log_{2} n` is "log base 2 of n". -/
def namedFunction (c : Captures) : Text :=
  match functionNames.lookup (String.ofList (c.group 2)) with
  | none => c.group 1
  | some name =>
    let base := (c.group 3).trim
    let base : Text := if base.isEmpty then [] else " base " ++ base
    spoken (name ++ functionPower (c.group 4).trim ++ base ++ " of " ++ (c.group 5).trim)

/-- A power with an ordinal. -/
def ordinalPower (c : Captures) : Text :=
  match Numeral.ordinalFor? (c.group 1) with
  | some ordinal => " to the " ++ ordinal ++ " power "
  | none => " to the power " ++ c.group 1 ++ " "

/-- The rules for functions, scripts and delimiters. -/
def delimiters : List Rule := [
  .pattern "general.function" 460
    r"(\\([A-Za-z]+)(?:_\‹([^‹›]*)\›)?(?:\^\‹([^‹›]*)\›)?\s*(?:\(([^()]*)\))?)"
    (.phrase namedFunction) "named functions with powers, bases and arguments",
  .pattern "general.script.squared" 450 r"\^\‹2\›" " squared" "square",
  .pattern "general.script.cubed" 450 r"\^\‹3\›" " cubed" "cube",
  .pattern "general.script.inverse" 450 r"\^\‹-1\›" " inverse" "inverse",
  .pattern "general.script.transpose" 450 r"\^\‹T\›" " transpose" "transpose",
  .pattern "general.script.prime" 450 r"\^\‹\\prime\s*\›" " prime" "prime as a superscript",
  .pattern "general.script.ordinal" 440 r"\^\‹(\d+|[a-zA-Z])\›" (.phrase ordinalPower)
    "ordinal powers",
  .pattern "general.script.power" 430 r"\^\‹([^‹›]*)\›" " to the power $1 " "any other power",
  .pattern "general.script.sub" 420 r"_\‹([^‹›]*)\›" " sub $1 " "subscripts",
  .pattern "general.application" 350
    r"(^|[^A-Za-z\\])([fghFGHpqyuvwTLNRS])( prime| double prime)?\s*\(([^()]*)\)" "$1$2$3 of $4 "
    "function application",
  .pattern "general.parens.atom" 340 r"\(\s*([A-Za-z0-9.]+)\s*\)" " $1 "
    "parentheses around a single symbol are not read",
  .pattern "general.set.builder" 335 r"\\\‹\s*([^‹›|]*?)\s*(?:\\mid|\||:)\s*([^‹›]*?)\s*\\\›"
    " the set of $1 such that $2 " "set builder notation",
  .pattern "general.set.literal" 332 r"\\\‹\s*([^‹›]*?)\s*\\\›" " the set containing $1 "
    "listed sets",
  .pattern "general.norm" 330 r"\\\|\s*([^|]*?)\s*\\\|" " the norm of $1 " "norms",
  .pattern "general.absolute" 325 r"\|\s*([^|]+?)\s*\|" " the absolute value of $1 "
    "absolute values",
  .pattern "general.floor" 320 r"\\lfloor\s*(.*?)\s*\\rfloor\s*" " the floor of $1 " "floor",
  .pattern "general.ceiling" 320 r"\\lceil\s*(.*?)\s*\\rceil\s*" " the ceiling of $1 " "ceiling",
  .pattern "general.angle_brackets" 320 r"\\langle\s*(.*?)\s*\\rangle\s*"
    " the inner product of $1 " "angle brackets",
  .pattern "general.interval.closed" 310 r"\[\s*([^\[\],]+?)\s*,\s*([^\[\],]+?)\s*\]"
    " the closed interval from $1 to $2 " "closed intervals",
  .pattern "general.parens.quantity" 300 r"\(([^()]*)\)" " the quantity $1 " "parenthesized groups",
  .pattern "general.brackets.quantity" 295 r"\[([^\[\]]*)\]" " the quantity $1 " "bracketed groups"]

end SpokenMath.Rulebook
