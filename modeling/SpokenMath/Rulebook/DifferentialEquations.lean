import SpokenMath.Rulebook.Phrase

/-!
# Ordinary differential equations

Derivatives are read "d y by d x" here.
-/

namespace SpokenMath.Rulebook

/-- A higher derivative, read from left to right. -/
def higherLeibniz (c : Captures) : Text :=
  match String.ofList (c.group 1) with
  | "2" => spoken ("d squared " ++ c.group 2 ++ " by d " ++ c.group 3 ++ " squared")
  | "3" => spoken ("d cubed " ++ c.group 2 ++ " by d " ++ c.group 3 ++ " cubed")
  | _ =>
    spoken ("d to the " ++ c.group 1 ++ " " ++ c.group 2 ++ " by d " ++ c.group 3 ++ " to the " ++
      c.group 1)

/-- The rules for ordinary differential equations. -/
def differentialEquations : List Rule := Rule.inDomain .ode [
  .pattern "ode.leibniz.higher" 900
    r"\\frac\‹d\^\‹(\d+)\›\s?([a-zA-Z])\›\‹d\s?([a-zA-Z])\^\‹\d+\›\›" (.phrase higherLeibniz)
    "higher derivatives",
  .pattern "ode.leibniz" 895 r"\\frac\‹d\s?([a-zA-Z])\›\‹d\s?([a-zA-Z])\›" " d $1 by d $2 "
    "first derivatives",
  .pattern "ode.initial_value" 880 r"\b([yxu])( prime| double prime)?\s*\(\s*0\s*\)" " $1$2 at 0 "
    "initial values",
  .pattern "ode.initial_time" 875 r"\b([yxu])( prime| double prime)?\s*\(\s*t_\‹0\›\s*\)"
    " $1$2 at t naught " "values at the initial time",
  .pattern "ode.vector_derivative" 870 r"\\mathbf\‹([a-z])\›'" " the derivative of vector $1 "
    "derivatives of vector unknowns",
  .pattern "ode.wronskian" 860 r"\bW\s*\(\s*([^()]*?)\s*\)" " the Wronskian of $1 " "Wronskians",
  .pattern "ode.inverse_laplace" 855 r"\\mathcal\‹L\›\^\‹-1\›\s*\\\‹\s*([^‹›]*?)\s*\\\›"
    " the inverse Laplace transform of $1 " "inverse Laplace transforms",
  .pattern "ode.laplace" 850 r"\\mathcal\‹L\›\s*\\\‹\s*([^‹›]*?)\s*\\\›"
    " the Laplace transform of $1 " "Laplace transforms"]

end SpokenMath.Rulebook
