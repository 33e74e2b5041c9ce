import SpokenMath.Rule.Basic

/-!
# Combinatorics

Counting notation.
-/

namespace SpokenMath.Rulebook

/-- The rules of combinatorics. -/
def combinatorics : List Rule := Rule.inDomain .combinatorics [
  .pattern "combinatorics.double_factorial" 900 r"([A-Za-z0-9)])\s*!!" "$1 double factorial "
    "double factorials",
  .pattern "combinatorics.permutations" 890 r"\bP\s*\(\s*([^(),]+?)\s*,\s*([^(),]+?)\s*\)"
    " the number of permutations of $1 things taken $2 at a time " "permutation counts",
  .pattern "combinatorics.combinations" 885 r"\bC\s*\(\s*([^(),]+?)\s*,\s*([^(),]+?)\s*\)"
    " $1 choose $2 " "combination counts",
  .pattern "combinatorics.stirling" 880 r"\bS\s*\(\s*([^(),]+?)\s*,\s*([^(),]+?)\s*\)"
    " the Stirling number of the second kind for $1 and $2 " "Stirling numbers",
  .pattern "combinatorics.cardinality" 870 r"\|\s*([A-Z][^|]*?)\s*\|"
    " the number of elements in $1 " "sizes of finite sets",
  .pattern "combinatorics.catalan" 860 r"\bC_\‹([^‹›]*)\›" " the Catalan number C sub $1 "
    "Catalan numbers",
  .pattern "combinatorics.falling_factorial" 845 r"\(\s*([a-z])\s*\)_\‹([^‹›]*)\›"
    " the falling factorial $1 sub $2 " "Pochhammer symbols"]

end SpokenMath.Rulebook
