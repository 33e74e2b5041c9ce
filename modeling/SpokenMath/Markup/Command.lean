/-!
# The shapes of known commands

How many braced arguments a command takes and whether a bracketed one may come first. A command
that is not in the table has no shape and is read out by name.
-/

namespace SpokenMath

/-- The arguments of a command. -/
structure Shape where
  /-- Braced arguments. -/
  args : Nat
  /-- One bracketed argument may come first. -/
  optional : Bool
  deriving DecidableEq, Repr

namespace Shape

/-- Commands with two arguments. -/
def twoArgs : List String :=
  ["frac", "dfrac", "tfrac", "cfrac", "binom", "dbinom", "tbinom", "overset", "underset",
    "stackrel"]

/-- Commands with one argument, which may have a bracketed one in front. -/
def oneArgWithOption : List String := ["sqrt", "xrightarrow", "xleftarrow"]

/-- Commands with one argument. -/
def oneArg : List String :=
  ["text", "textbf", "textit", "textrm", "textsf", "texttt", "emph", "mbox", "mathrm",
    "mathbf", "mathit", "mathsf", "mathtt", "mathcal", "mathbb", "mathfrak", "mathscr",
    "operatorname", "boldsymbol", "bm", "vec", "hat", "widehat", "bar", "overline",
    "underline", "tilde", "widetilde", "dot", "ddot", "check", "breve", "acute", "grave",
    "overrightarrow", "overleftarrow", "overbrace", "underbrace", "cancel", "boxed", "pmod",
    "pod", "color", "abs", "norm", "lvert", "phantom"]

/-- Greek letters. -/
def greek : List String :=
  ["alpha", "beta", "gamma", "delta", "epsilon", "varepsilon", "zeta", "eta", "theta",
    "vartheta", "iota", "kappa", "lambda", "mu", "nu", "xi", "omicron", "pi", "varpi", "rho",
    "varrho", "sigma", "varsigma", "tau", "upsilon", "phi", "varphi", "chi", "psi", "omega",
    "Gamma", "Delta", "Theta", "Lambda", "Xi", "Pi", "Sigma", "Upsilon", "Phi", "Psi", "Omega"]

/-- Big operators. -/
def bigOperators : List String :=
  ["int", "iint", "iiint", "oint", "sum", "prod", "coprod", "bigcup", "bigcap", "bigoplus",
    "bigotimes", "lim", "limsup", "liminf", "sup", "inf", "max", "min", "arg", "det", "dim",
    "ker", "deg", "gcd", "Pr", "hom"]

/-- Named functions. -/
def functions : List String :=
  ["sin", "cos", "tan", "cot", "sec", "csc", "arcsin", "arccos", "arctan", "sinh", "cosh",
    "tanh", "coth", "log", "ln", "lg", "exp", "Re", "Im", "mod", "bmod"]

/-- Binary operators and relations. -/
def relations : List String :=
  ["cdot", "times", "div", "pm", "mp", "ast", "star", "circ", "bullet", "oplus", "otimes",
    "wedge", "vee", "cap", "cup", "setminus", "leq", "le", "geq", "ge", "neq", "ne", "approx",
    "equiv", "sim", "simeq", "cong", "propto", "ll", "gg", "prec", "succ", "preceq", "succeq",
    "subset", "subseteq", "subsetneq", "supset", "supseteq", "in", "notin", "ni", "mid",
    "nmid", "parallel", "perp", "models", "vdash", "dashv", "leqslant", "geqslant", "coloneqq"]

/-- Arrows. -/
def arrows : List String :=
  ["to", "rightarrow", "leftarrow", "Rightarrow", "Leftarrow", "leftrightarrow",
    "Leftrightarrow", "iff", "implies", "impliedby", "mapsto", "longrightarrow",
    "longmapsto", "hookrightarrow", "uparrow", "downarrow", "rightharpoonup"]

/-- Logic and sets. -/
def connectives : List String :=
  ["forall", "exists", "nexists", "neg", "lnot", "land", "lor", "emptyset", "varnothing",
    "top", "bot", "therefore", "because", "complement", "sqcup", "colon", "Longrightarrow",
    "Longleftrightarrow", "nsubseteq"]

/-- Named symbols and dots. -/
def symbols : List String :=
  ["infty", "partial", "nabla", "hbar", "ell", "Re", "aleph", "prime", "angle", "triangle",
    "square", "blacksquare", "qed", "checkmark", "dagger", "ddagger",
    "ldots", "cdots", "vdots", "ddots", "dots", "dotsc", "dotsb"]

/-- Delimiters, environments and layout. -/
def layout : List String :=
  ["langle", "rangle", "lceil", "rceil", "lfloor", "rfloor", "vert", "Vert", "rvert",
    "lVert", "rVert", "left", "right", "middle",
    "begin", "end", "item", "newline", "quad", "qquad", "cr"]

/-- Commands without arguments. -/
def noArgs : List String :=
  greek ++ bigOperators ++ functions ++ relations ++ arrows ++ connectives ++ symbols ++ layout

/-- The shape of a known command. -/
def ofCommand? (name : String) : Option Shape :=
  if name == "genfrac" then some ⟨6, false⟩
  else if twoArgs.contains name then some ⟨2, false⟩
  else if oneArgWithOption.contains name then some ⟨1, true⟩
  else if oneArg.contains name then some ⟨1, false⟩
  else if noArgs.contains name then some ⟨0, false⟩
  else none

end Shape

/-- Commands whose argument is prose. -/
def isTextCommand (name : String) : Bool :=
  ["text", "textbf", "textit", "textrm", "textsf", "texttt", "emph", "mbox"].contains name

/-- How many arguments follow the opening of an environment. -/
def environmentArgs (name : String) : Nat :=
  if ["array", "tabular", "subarray"].contains name then 1 else 0

end SpokenMath
