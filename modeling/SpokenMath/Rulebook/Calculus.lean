import SpokenMath.Rulebook.Phrase

/-!
# Calculus

Derivatives, partial derivatives, vector operators and series.
-/

namespace SpokenMath.Rulebook

/-- The order of a derivative: the second, or of order `p`. -/
def derivativeOrder (order : Text) : Text := (Numeral.ordinalFor? order).getD ("order " ++ order)

/-- A higher derivative that applies to what follows. -/
def higherOperator (c : Captures) : Text :=
  spoken ("the " ++ derivativeOrder (c.group 1) ++ " derivative with respect to " ++ c.group 2 ++
    " of")

/-- A higher derivative of a function. -/
def higherDerivative (c : Captures) : Text :=
  spoken ("the " ++ derivativeOrder (c.group 1) ++ " derivative of " ++ c.group 2 ++
    " with respect to " ++ c.group 3)

/-- A higher partial derivative of a function. -/
def higherPartial (c : Captures) : Text :=
  spoken ("the " ++ derivativeOrder (c.group 1) ++ " partial derivative of " ++ c.group 2 ++
    " with respect to " ++ c.group 3)

/-- The rules of calculus. -/
def calculus : List Rule := Rule.inDomain .calculus [
  .pattern "calculus.derivative.operator" 900 r"\\frac\‹d\›\‹d\s?([a-zA-Z])\›"
    " the derivative with respect to $1 of " "d by dx applied to what follows",
  .pattern "calculus.derivative.higher_operator" 895
    r"\\frac\‹d\^\‹(\d+|[a-z])\›\›\‹d\s?([a-zA-Z])\^\‹(?:\d+|[a-z])\›\›" (.phrase higherOperator)
    "higher derivative operators",
  .pattern "calculus.derivative.higher" 890
    r"\\frac\‹d\^\‹(\d+|[a-z])\›\s?([a-zA-Z])\›\‹d\s?([a-zA-Z])\^\‹(?:\d+|[a-z])\›\›"
    (.phrase higherDerivative) "higher Leibniz derivatives",
  .pattern "calculus.derivative.leibniz" 885 r"\\frac\‹d\s?([a-zA-Z])\›\‹d\s?([a-zA-Z])\›"
    " the derivative of $1 with respect to $2 " "Leibniz derivatives",
  .pattern "calculus.partial.operator" 880 r"\\frac\‹\\partial\s?\›\‹\\partial\s?([a-zA-Z])\›"
    " the partial derivative with respect to $1 of " "partial derivative operators",
  .pattern "calculus.partial.first" 875
    r"\\frac\‹\\partial\s?([a-zA-Z])\›\‹\\partial\s?([a-zA-Z])\›"
    " the partial derivative of $1 with respect to $2 " "first partial derivatives",
  .pattern "calculus.partial.mixed" 872
    r"\\frac\‹\\partial\^\‹2\›\s?([a-zA-Z])\›\‹\\partial\s?([a-zA-Z])\s*\\partial\s?([a-zA-Z])\›"
    " the mixed partial derivative of $1 with respect to $2 and $3 "
    "mixed second partial derivatives",
  .pattern "calculus.partial.higher" 870
    r"\\frac\‹\\partial\^\‹(\d+)\›\s?([a-zA-Z])\›\‹\\partial\s?([a-zA-Z])\^\‹\d+\›\›"
    (.phrase higherPartial) "higher partial derivatives",
  .pattern "calculus.partial.subscript" 860 r"\\partial_\‹([a-zA-Z])\›\s?"
    " the partial derivative with respect to $1 of " "subscript partial operators",
  .pattern "calculus.divergence" 852 r"\\nabla\s*\\cdot\s*" " the divergence of " "divergence",
  .pattern "calculus.curl" 852 r"\\nabla\s*\\times\s*" " the curl of " "curl",
  .pattern "calculus.laplacian" 851 r"\\nabla\^\‹2\›\s*" " the Laplacian of " "Laplacian",
  .pattern "calculus.gradient" 850 r"\\nabla\s?" " the gradient of " "gradient",
  .pattern "calculus.evaluation" 840 r"\|_\‹([^‹›]*)\›\^\‹([^‹›]*)\›" " evaluated from $1 to $2 "
    "evaluation bars",
  .pattern "calculus.series.infinite" 830
    r"\\sum_\‹\s*([a-zA-Z])\s*=\s*([^‹›]*?)\s*\›\^\‹\\infty\s*\›"
    " the infinite series from $1 equals $2 of " "infinite series",
  .pattern "calculus.limit.infinity" 820 r"\\lim_\‹\s*([a-zA-Z])\s*\\to\s*\\infty\s*\›"
    " the limit as $1 goes to infinity of " "limits at infinity",
  .pattern "calculus.differential" 800 r"(^|[^A-Za-z\\])d([a-zA-Z])\b" "$1d $2"
    "differentials are read letter by letter"]

end SpokenMath.Rulebook
