import SpokenMath.Rule.Basic

/-!
# Set theory

Membership is read as "is an element of", and bars as cardinality.
-/

namespace SpokenMath.Rulebook

/-- The rules of set theory. -/
def setTheory : List Rule := Rule.inDomain .setTheory [
  .pattern "set_theory.builder" 900
    r"\\\‹\s*([a-z])\s*\\in\s*((?:[^‹›|:]|\‹[^‹›]*\›)*?)\s*(?:\\mid|\||:)\s*([^‹›]*?)\s*\\\›"
    " the set of $1 in $2 such that $3 " "set builder with a domain",
  .pattern "set_theory.complement" 890 r"\b([A-Z])\^\‹(?:c|C|\\complement\s*)\›"
    " the complement of $1 " "complements",
  .pattern "set_theory.power_set" 880 r"(?:\\mathcal\‹P\›|\\wp\s?)\s*\(\s*([^()]*?)\s*\)"
    " the power set of $1 " "power sets",
  .pattern "set_theory.cardinality" 870 r"\|\s*([^|]+?)\s*\|" " the cardinality of $1 "
    "cardinality",
  .pattern "set_theory.aleph_null" 862 r"\\aleph_\‹0\›" " aleph null " "countable cardinality",
  .pattern "set_theory.aleph" 860 r"\\aleph_\‹([^‹›]*)\›" " aleph $1 " "alephs",
  .pattern "set_theory.product" 850 r"\b([A-Z])\s*\\times\s*([A-Z])\b"
    " the Cartesian product of $1 and $2 " "Cartesian products",
  .pattern "set_theory.subset_eq" 845 r"\\subseteq\s?" " is a subset of " "subsets",
  .pattern "set_theory.subset" 845 r"\\subset\b\s?" " is a proper subset of " "proper subsets",
  .pattern "set_theory.difference" 840 r"\\setminus\s?" " minus " "set difference",
  .pattern "set_theory.element" 830 r"\\in\b\s?" " is an element of " "membership",
  .pattern "set_theory.not_element" 830 r"\\notin\b\s?" " is not an element of " "non-membership"]

end SpokenMath.Rulebook
