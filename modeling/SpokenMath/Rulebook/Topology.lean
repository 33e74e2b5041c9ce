import SpokenMath.Rulebook.Phrase

/-!
# Topology

Closures, boundaries, homotopy and open balls.
-/

namespace SpokenMath.Rulebook

/-- A homotopy group with its number. -/
def homotopyGroup (c : Captures) : Text :=
  spoken ("the " ++ (Numeral.ordinalFor? (c.group 1)).getD (c.group 1) ++ " homotopy group of " ++
    c.group 2)

/-- The rules of topology. -/
def topology : List Rule := Rule.inDomain .topology [
  .pattern "topology.closure" 900 r"\\overline\‹\s*([A-Z])\s*\›" " the closure of $1 " "closure",
  .pattern "topology.interior" 890 r"\b([A-Z])\^\‹\\circ\s*\›" " the interior of $1 "
    "interior as a superscript circle",
  .pattern "topology.interior.named" 889 r"\\operatorname\‹int\›\s*\(?\s*([A-Z])\s*\)?"
    " the interior of $1 " "interior as an operator",
  .pattern "topology.boundary" 880 r"\\partial\s*([A-Z])\b" " the boundary of $1 " "boundary",
  .pattern "topology.fundamental_group" 870 r"\\pi_\‹1\›\s*\(\s*([^()]*?)\s*\)"
    " the fundamental group of $1 " "fundamental group",
  .pattern "topology.homotopy_group" 865 r"\\pi_\‹(\d+|n|k)\›\s*\(\s*([^()]*?)\s*\)"
    (.phrase homotopyGroup) "higher homotopy groups",
  .pattern "topology.homeomorphic" 860 r"\\cong\s?" " is homeomorphic to " "homeomorphism",
  .pattern "topology.homotopy_equivalent" 860 r"\\simeq\s?" " is homotopy equivalent to "
    "homotopy equivalence",
  .pattern "topology.homotopic" 855 r"\\sim\b\s?" " is homotopic to " "homotopic maps",
  .pattern "topology.space" 850 r"\(\s*([A-Z])\s*,\s*\\tau\s*\)" " the space $1 with topology tau "
    "topological spaces as pairs",
  .pattern "topology.preimage" 845 r"\b([fgh])\^\‹-1\›\s*\(\s*([^()]*?)\s*\)"
    " the preimage of $2 under $1 " "preimages of sets",
  .pattern "topology.open_ball" 840 r"\bB_\‹([^‹›]*)\›\s*\(\s*([^()]*?)\s*\)"
    " the open ball of radius $1 around $2 " "open balls"]

end SpokenMath.Rulebook
