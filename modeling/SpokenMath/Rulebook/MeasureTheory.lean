import SpokenMath.Rulebook.Phrase

/-!
# Measure theory

Integrals against measures, sigma algebras and indicator functions.
-/

namespace SpokenMath.Rulebook

/-- The measure of a set; lambda is the measure of Lebesgue. -/
def measureOf (c : Captures) : Text :=
  let measure : Text := match String.ofList (c.group 1) with
    | "lambda" => "the Lebesgue measure"
    | "mu" => "the measure"
    | other => "the measure " ++ other
  spoken (measure ++ " of " ++ c.group 2)

/-- The rules of measure theory. -/
def measureTheory : List Rule := Rule.inDomain .measureTheory [
  .pattern "measure.integral.over" 900 r"\\int_\‹([^‹›]*)\›\s*(.*?)\s*\bd\s?\\(mu|nu|lambda)\b\s?"
    " the integral over $1 of $2 with respect to $3 " "integrals against a measure",
  .pattern "measure.integral.bare" 895 r"\\int\s+(.*?)\s*\bd\s?\\(mu|nu|lambda)\b\s?"
    " the integral of $1 with respect to $2 " "integrals against a measure, no domain",
  .pattern "measure.measure_of" 880 r"\\(mu|nu|lambda)\s*\(\s*([^()]*?)\s*\)" (.phrase measureOf)
    "measures of sets",
  .pattern "measure.sigma_algebra" 870 r"\\sigma\s*\(\s*([^()]*?)\s*\)"
    " the sigma algebra generated by $1 " "generated sigma algebras",
  .pattern "measure.almost_everywhere" 860 r"\ba\.e\.|\balmost everywhere\b" " almost everywhere "
    "almost everywhere",
  .pattern "measure.lp_space" 850 r"\bL\^\‹([^‹›]*)\›" " L $1 space " "L p spaces",
  .pattern "measure.borel.of" 846 r"\\mathcal\‹B\›\s*\(\s*([^()]*?)\s*\)"
    " the Borel sigma algebra of $1 " "Borel sets of a space",
  .pattern "measure.borel" 845 r"\\mathcal\‹B\›" " the Borel sigma algebra " "Borel sets",
  .pattern "measure.filtration" 841 r"\\mathcal\‹F\›_\‹([^‹›]*)\›" " the sigma algebra F sub $1 "
    "filtrations",
  .pattern "measure.sigma_field" 840 r"\\mathcal\‹F\›" " the sigma algebra F " "sigma fields",
  .pattern "measure.indicator" 835 r"(?:\\mathbf\‹1\›|\\mathbb\‹1\›|\\chi)_\‹([^‹›]*)\›"
    " the indicator function of $1 " "indicator functions",
  .pattern "measure.increasing" 830 r"\\uparrow\s?" " increases to " "monotone limits"]

end SpokenMath.Rulebook
