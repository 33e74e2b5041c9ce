import SpokenMath.Rulebook.Phrase

/-!
# Numerical analysis

Iterations, step methods and error terms.
-/

namespace SpokenMath.Rulebook

/-- The order of a method in its step size. -/
def methodOrder (c : Captures) : Text :=
  match Numeral.ordinalFor? (c.group 1) with
  | some ordinal => spoken ("of order h to the " ++ ordinal)
  | none => spoken ("of order h to the power " ++ c.group 1)

/-- The rules of numerical analysis. -/
def numericalAnalysis : List Rule := Rule.inDomain .numericalAnalysis [
  .pattern "numerical.newton" 900
    r"x_\‹n\s*\+\s*1\›\s*=\s*x_\‹n\›\s*-\s*\\frac\‹f\s*\(x_\‹n\›\)\›\‹f prime\s*\(x_\‹n\›\)\›"
    " the Newton update: x sub n plus 1 equals x sub n minus f of x sub n over f prime of x sub n "
    "Newton iteration",
  .pattern "numerical.euler" 895
    r"y_\‹n\s*\+\s*1\›\s*=\s*y_\‹n\›\s*\+\s*h\s*f\s*\(\s*t_\‹n\›\s*,\s*y_\‹n\›\s*\)"
    " the Euler step: y sub n plus 1 equals y sub n plus h times f of t sub n and y sub n "
    "explicit Euler step",
  .pattern "numerical.order.power" 880 r"\bO\s*\(\s*h\^\‹([^‹›]*)\›\s*\)" (.phrase methodOrder)
    "order of a method",
  .pattern "numerical.order.linear" 879 r"\bO\s*\(\s*h\s*\)" " of order h " "first order",
  .pattern "numerical.absolute_error" 860 r"\|\s*e_\‹([^‹›]*)\›\s*\|"
    " the absolute error at step $1 " "error magnitudes",
  .pattern "numerical.machine_epsilon" 850 r"\\(?:var)?epsilon_\‹\s*mach(?:ine)?\s*\›"
    " machine epsilon " "unit roundoff",
  .pattern "numerical.condition_number" 845 r"\\kappa\s*\(\s*([^()]*?)\s*\)"
    " the condition number of $1 " "condition numbers",
  .pattern "numerical.step_to_zero" 840 r"\bh\s*\\to\s*0\b" " h approaches 0 "
    "vanishing step size",
  .pattern "numerical.forward_difference" 835 r"\\Delta\s?([a-z])_\‹([^‹›]*)\›"
    " the forward difference of $1 sub $2 " "forward differences",
  .pattern "numerical.approximately" 830 r"\\approx\s?" " is approximately " "approximation"]

end SpokenMath.Rulebook
