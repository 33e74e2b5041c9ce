import SpokenMath.Rulebook.Phrase

/-!
# Algorithms

Asymptotic notation, logarithms and assignment.
-/

namespace SpokenMath.Rulebook

/-- A power of a logarithm. -/
def logPower (c : Captures) : Text :=
  match String.ofList (c.group 1) with
  | "2" => spoken ("log squared " ++ c.group 2)
  | "3" => spoken ("log cubed " ++ c.group 2)
  | _ => spoken ("log " ++ c.group 2 ++ " to the power " ++ c.group 1)

/-- The rules for algorithms. -/
def algorithms : List Rule := Rule.inDomain .algorithms [
  .pattern "algorithms.theta" 900 r"\\Theta\s*\(\s*([^()]*?)\s*\)" " big theta of $1 "
    "tight bounds",
  .pattern "algorithms.omega" 900 r"\\Omega\s*\(\s*([^()]*?)\s*\)" " big omega of $1 "
    "lower bounds",
  .pattern "algorithms.big_o" 895 r"\bO\s*\(\s*([^()]*?)\s*\)" " big O of $1 " "upper bounds",
  .pattern "algorithms.little_o" 890 r"\bo\s*\(\s*([^()]*?)\s*\)" " little o of $1 "
    "strict upper bounds",
  .pattern "algorithms.log.power" 875 r"\\log\^\‹(\d+|k)\›\s*([a-z])\b" (.phrase logPower)
    "powers of logarithms",
  .pattern "algorithms.log" 870 r"\\log\s*([a-z])\b" " log $1 " "logarithms",
  .pattern "algorithms.assign" 860 r"\\leftarrow\s?" " gets " "assignment arrows"]

end SpokenMath.Rulebook
