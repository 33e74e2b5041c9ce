import SpokenMath.Rule.Basic

/-!
# Canonical spellings

These rules run first in every domain, so that all others have to recognize only one spelling of
each construct.
-/

namespace SpokenMath.Rulebook

/-- The rules that bring notation into one spelling. -/
def critical : List Rule := [
  .pattern "critical.text" 1400
    r"\\(?:text|textrm|textit|textbf|textsf|texttt|mbox|emph)\‹([^‹›]*)\›" " $1 "
    "read prose arguments verbatim",
  .pattern "critical.fraction_variants" 1300 r"\\[dtc]frac\b" r"\frac"
    "display and text fractions read like plain fractions",
  .pattern "critical.binomial_variants" 1300 r"\\[dt]binom\b" r"\binom"
    "display and text binomials read like plain binomials",
  .pattern "critical.roman_d" 1250 r"\\mathrm\‹d\›\s*" "d" "upright differential d",
  .pattern "critical.le" 1200 r"\\le(?:qslant)?\b" r"\leq" "one spelling for less than or equal",
  .pattern "critical.ge" 1200 r"\\ge(?:qslant)?\b" r"\geq" "one spelling for greater than or equal",
  .pattern "critical.ne" 1200 r"\\ne\b" r"\neq" "one spelling for not equal",
  .pattern "critical.implies" 1200 r"\\(?:implies|Longrightarrow)\b" r"\Rightarrow"
    "one spelling for implication",
  .pattern "critical.iff" 1200 r"\\(?:iff|Longleftrightarrow)\b" r"\Leftrightarrow"
    "one spelling for equivalence",
  .pattern "critical.lnot" 1200 r"\\lnot\b" r"\neg" "one spelling for negation",
  .pattern "critical.dots" 1200 r"\\(?:cdots|dotsc|dotsb|dots)\b" r"\ldots"
    "one spelling for an ellipsis",
  .pattern "critical.vert" 1200 r"\\(?:lvert|rvert|vert)\b\s*" "|" "absolute value bars",
  .pattern "critical.norm_bars" 1200 r"\\(?:lVert|rVert|Vert)\b\s*" r"\|" "norm bars",
  .pattern "critical.coloneqq" 1150 r"\\coloneqq\b\s*|:=" " is defined as "
    "definition by assignment",
  .pattern "critical.operatorname" 1100
    r"\\operatorname\‹(Res|Re|Im|Var|Cov|Pr|rank|tr|Tr|sgn|span|diag|lcm|supp|dist|Hom|id)\›"
    r"\$1" "named operators become plain commands",
  .pattern "critical.double_prime" 1090 r"([A-Za-z])''" "$1 double prime" "second derivative marks",
  .pattern "critical.prime" 1080 r"([A-Za-z])'" "$1 prime" "derivative marks",
  .pattern "critical.negative" 1050 r"(^|[=(,\[<>]\s*)-\s*" "$1negative "
    "a leading minus sign is a negative, not a subtraction",
  .command "critical.boxed" 1000 "boxed" 1 " $1 " "boxed results read their content",
  .command "critical.color" 1000 "color" 1 "" "colors are not read"]

end SpokenMath.Rulebook
