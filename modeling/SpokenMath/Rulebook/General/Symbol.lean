import SpokenMath.Rulebook.Phrase

/-!
# Symbols

Commands that stand for a word or two, signs of the keyboard, and last of all whatever is still
written in marks.
-/

namespace SpokenMath.Rulebook

/-- Relations. -/
def relations : List (String × String) :=
  [("leq", "is less than or equal to"), ("geq", "is greater than or equal to"),
    ("neq", "is not equal to"), ("approx", "is approximately equal to"),
    ("equiv", "is equivalent to"), ("sim", "is similar to"), ("simeq", "is similar or equal to"),
    ("cong", "is congruent to"), ("propto", "is proportional to"), ("ll", "is much less than"),
    ("gg", "is much greater than"), ("prec", "precedes"), ("succ", "succeeds"),
    ("preceq", "precedes or equals"), ("succeq", "succeeds or equals"),
    ("subset", "is a subset of"), ("subseteq", "is a subset of or equal to"),
    ("subsetneq", "is a proper subset of"), ("nsubseteq", "is not a subset of"),
    ("supset", "is a superset of"), ("supseteq", "is a superset of or equal to"), ("in", "is in"),
    ("notin", "is not in"), ("ni", "contains"), ("mid", "divides"), ("nmid", "does not divide"),
    ("parallel", "is parallel to"), ("perp", "is perpendicular to"), ("models", "models"),
    ("vdash", "proves"), ("dashv", "is proved by")]

/-- Binary operators. -/
def operators : List (String × String) :=
  [("times", "times"), ("cdot", "times"), ("div", "divided by"), ("pm", "plus or minus"),
    ("mp", "minus or plus"), ("ast", "star"), ("star", "star"), ("circ", "composed with"),
    ("bullet", "dot"), ("oplus", "direct sum"), ("otimes", "tensor"), ("wedge", "wedge"),
    ("vee", "vee"), ("cap", "intersect"), ("cup", "union"), ("setminus", "minus"),
    ("sqcup", "disjoint union"), ("mod", "mod"), ("bmod", "mod")]

/-- Arrows. -/
def arrows : List (String × String) :=
  [("to", "to"), ("rightarrow", "goes to"), ("longrightarrow", "goes to"), ("leftarrow", "gets"),
    ("Rightarrow", "implies"), ("Leftarrow", "is implied by"), ("impliedby", "is implied by"),
    ("leftrightarrow", "corresponds to"), ("Leftrightarrow", "if and only if"),
    ("mapsto", "maps to"), ("longmapsto", "maps to"), ("hookrightarrow", "embeds into"),
    ("uparrow", "increases to"), ("downarrow", "decreases to"),
    ("rightharpoonup", "converges weakly to")]

/-- Quantifiers and connectives. -/
def connectives : List (String × String) :=
  [("forall", "for all"), ("exists", "there exists"), ("nexists", "there does not exist"),
    ("neg", "not"), ("land", "and"), ("lor", "or"), ("top", "top"), ("bot", "bottom"),
    ("therefore", "therefore"), ("because", "because"), ("colon", "maps")]

/-- Greek letters. -/
def greekLetters : List (String × String) :=
  [("alpha", "alpha"), ("beta", "beta"), ("gamma", "gamma"), ("delta", "delta"),
    ("epsilon", "epsilon"), ("varepsilon", "epsilon"), ("zeta", "zeta"), ("eta", "eta"),
    ("theta", "theta"), ("vartheta", "theta"), ("iota", "iota"), ("kappa", "kappa"),
    ("lambda", "lambda"), ("mu", "mu"), ("nu", "nu"), ("xi", "xi"), ("omicron", "omicron"),
    ("pi", "pi"), ("varpi", "pi"), ("rho", "rho"), ("varrho", "rho"), ("sigma", "sigma"),
    ("varsigma", "sigma"), ("tau", "tau"), ("upsilon", "upsilon"), ("phi", "phi"),
    ("varphi", "phi"), ("chi", "chi"), ("psi", "psi"), ("omega", "omega"),
    ("Gamma", "capital gamma"), ("Delta", "capital delta"), ("Theta", "capital theta"),
    ("Lambda", "capital lambda"), ("Xi", "capital xi"), ("Pi", "capital pi"),
    ("Sigma", "capital sigma"), ("Upsilon", "capital upsilon"), ("Phi", "capital phi"),
    ("Psi", "capital psi"), ("Omega", "capital omega")]

/-- Everything else that has a name. -/
def namedSymbols : List (String × String) :=
  [("infty", "infinity"), ("partial", "partial"), ("nabla", "nabla"), ("hbar", "h bar"),
    ("ell", "ell"), ("aleph", "aleph"), ("prime", "prime"), ("angle", "angle"),
    ("triangle", "triangle"), ("emptyset", "the empty set"), ("varnothing", "the empty set"),
    ("ldots", "dot dot dot"), ("vdots", "dot dot dot"), ("ddots", "dot dot dot"),
    ("qed", "end of proof"), ("blacksquare", "end of proof"), ("square", "square"),
    ("checkmark", "check"), ("dagger", "dagger"), ("ddagger", "double dagger"),
    ("complement", "complement"), ("int", "the integral of"), ("iint", "the double integral of"),
    ("iiint", "the triple integral of"), ("oint", "the contour integral of"), ("sum", "the sum of"),
    ("prod", "the product of"), ("coprod", "the coproduct of"), ("bigcup", "the union of"),
    ("bigcap", "the intersection of"), ("bigoplus", "the direct sum of"),
    ("bigotimes", "the tensor product of"), ("lim", "the limit of"),
    ("limsup", "the limit superior of"), ("liminf", "the limit inferior of"),
    ("sup", "the supremum of"), ("inf", "the infimum of"), ("max", "the maximum of"),
    ("min", "the minimum of"), ("arg", "the argument of"), ("det", "the determinant of"),
    ("dim", "the dimension of"), ("ker", "the kernel of"), ("deg", "the degree of"),
    ("gcd", "the greatest common divisor of"), ("lcm", "the least common multiple of"),
    ("Pr", "the probability of"), ("Re", "the real part of"), ("Im", "the imaginary part of"),
    ("hom", "hom"), ("langle", "left angle bracket"), ("rangle", "right angle bracket"),
    ("lfloor", "floor"), ("rfloor", ""), ("lceil", "ceiling"), ("rceil", ""), ("item", ","),
    ("newline", ","), ("cr", ",")]

/-- A command that a table gives words for; any other one is left as it is. -/
def named (table : List (String × String)) (c : Captures) : Text :=
  match table.lookup (String.ofList (c.group 2)) with
  | some phrase => spoken phrase
  | none => c.group 1

/-- A sign behind a backslash. -/
def escapedSign (c : Captures) : Text :=
  match String.ofList (c.group 1) with
  | "%" => " percent "
  | "$" => " dollars "
  | "&" => " and "
  | "#" => " number "
  | "_" => " underscore "
  | _ => " "

/-- The rules for symbols and for what is left. -/
def symbols : List Rule := [
  .pattern "general.relations" 260 r"(\\([A-Za-z]+)\s?)" (.phrase (named relations)) "relations",
  .pattern "general.operators" 250 r"(\\([A-Za-z]+)\s?)" (.phrase (named operators))
    "binary operators",
  .pattern "general.factorial" 245 r"([A-Za-z0-9)])\s*!" "$1 factorial " "factorials",
  .pattern "general.arrows" 240 r"(\\([A-Za-z]+)\s?)" (.phrase (named arrows)) "arrows",
  .pattern "general.logic" 230 r"(\\([A-Za-z]+)\s?)" (.phrase (named connectives))
    "quantifiers and connectives",
  .pattern "general.ascii.plus" 220 r"\+" " plus " "plus",
  .pattern "general.ascii.minus" 220 r"-" " minus " "minus",
  .pattern "general.ascii.equals" 220 r"=" " equals " "equals",
  .pattern "general.ascii.less" 220 r"<" " is less than " "less than",
  .pattern "general.ascii.greater" 220 r">" " is greater than " "greater than",
  .pattern "general.ascii.times" 220 r"\*" " times " "star as multiplication",
  .pattern "general.ascii.slash" 220 r"/" " over " "slash as division",
  .pattern "general.greek" 150 r"(\\([A-Za-z]+)\s?)" (.phrase (named greekLetters)) "Greek letters",
  .pattern "general.symbols" 140 r"(\\([A-Za-z]+)\s?)" (.phrase (named namedSymbols))
    "named symbols and operators",
  .pattern "general.cleanup.rows" 45 r"\\\\" ", " "leftover row separators",
  .pattern "general.cleanup.escapes" 40 r"\\([‹›%$&#_|])" (.phrase escapedSign)
    "escaped characters",
  .pattern "general.cleanup.alignment" 35 r"&" " " "leftover alignment marks",
  .pattern "general.cleanup.commands" 30 r"\\([A-Za-z]+)\s?" " $1 "
    "unknown commands are read by name",
  .pattern "general.cleanup.braces" 20 r"[‹›]" " " "leftover braces",
  .pattern "general.cleanup.caret" 15 r"\^" " to the power " "bare carets",
  .pattern "general.cleanup.underscore" 15 r"_" " sub " "bare underscores",
  .pattern "general.cleanup.tilde" 15 r"~" " " "ties",
  .pattern "general.cleanup.apostrophe" 12 r"'" " prime " "stray prime marks",
  .pattern "general.cleanup.backslash" 10 r"\\" " " "backslashes before anything else"]

end SpokenMath.Rulebook
