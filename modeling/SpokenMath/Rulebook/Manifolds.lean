import SpokenMath.Rule.Basic

/-!
# Manifolds

Tangent spaces, forms, connections and brackets.
-/

namespace SpokenMath.Rulebook

/-- The rules for manifolds. -/
def manifolds : List Rule := Rule.inDomain .manifolds [
  .pattern "manifolds.cotangent_space" 900 r"\bT_\‹([^‹›]*)\›\^\‹\*\›\s*([A-Z])\b"
    " the cotangent space of $2 at $1 " "cotangent spaces",
  .pattern "manifolds.tangent_space" 895 r"\bT_\‹([^‹›]*)\›\s*([A-Z])\b"
    " the tangent space of $2 at $1 " "tangent spaces",
  .pattern "manifolds.tangent_bundle" 890 r"\bT([A-Z])\b" " the tangent bundle of $1 "
    "tangent bundles",
  .pattern "manifolds.covariant_derivative" 880 r"\\nabla_\‹([^‹›]*)\›\s*"
    " the covariant derivative along $1 of " "connections",
  .pattern "manifolds.exterior_derivative" 870 r"(^|[^A-Za-z\\])d\s*\\(omega|alpha|eta|theta)\b\s?"
    "$1 the exterior derivative of $2 " "exterior derivatives of forms",
  .pattern "manifolds.wedge" 865 r"\\wedge\s?" " wedge " "wedge products",
  .pattern "manifolds.christoffel" 860 r"\\Gamma_\‹([^‹›]*)\›\^\‹([^‹›]*)\›"
    " the Christoffel symbol with upper index $2 and lower indices $1 " "Christoffel symbols",
  .pattern "manifolds.pullback" 855 r"\\?([a-zA-Z]+)\^\‹\*\›\s*" " the pullback by $1 of "
    "pullbacks",
  .pattern "manifolds.lie_bracket" 850 r"\[\s*([A-Z])\s*,\s*([A-Z])\s*\]"
    " the Lie bracket of $1 and $2 " "Lie brackets of vector fields",
  .pattern "manifolds.metric" 845 r"\bg_\‹([a-z]‹2›)\›" " the metric component g sub $1 "
    "metric tensor components"]

end SpokenMath.Rulebook
