import SpokenMath.Rule.Basic

/-!
# Probability and statistics

Expectations, probabilities, distributions and hypotheses.
-/

namespace SpokenMath.Rulebook

/-- The rules of statistics. -/
def statistics : List Rule := Rule.inDomain .statistics [
  .pattern "statistics.expectation" 900
    r"(?:\\mathbb\‹E\›|\\operatorname\‹E\›|\bE)\s*\[\s*([^\[\]]*?)\s*\]"
    " the expected value of $1 " "expectations",
  .pattern "statistics.variance" 890 r"\\Var\s*[(\[]\s*([^()\[\]]*?)\s*[)\]]"
    " the variance of $1 " "variances",
  .pattern "statistics.covariance" 890 r"\\Cov\s*\(\s*([^(),]*?)\s*,\s*([^()]*?)\s*\)"
    " the covariance of $1 and $2 " "covariances",
  .pattern "statistics.conditional" 880
    r"(?:\bP|\\Pr)\s*\(\s*([^()|]*?)\s*(?:\||\\mid)\s*([^()]*?)\s*\)"
    " the probability of $1 given $2 " "conditional probabilities",
  .pattern "statistics.probability" 875 r"(?:\bP|\\Pr)\s*\(\s*([^()]*?)\s*\)"
    " the probability of $1 " "probabilities",
  .pattern "statistics.standard_normal" 872 r"\bN\s*\(\s*0\s*,\s*1\s*\)"
    " the standard normal distribution " "the standard normal",
  .pattern "statistics.normal" 870 r"(?:\\mathcal\‹N\›|\bN)\s*\(\s*([^(),]*?)\s*,\s*([^()]*?)\s*\)"
    " a normal distribution with mean $1 and variance $2 " "normal distributions",
  .pattern "statistics.distributed" 865 r"\\sim\b\s?" " is distributed as " "distributed as",
  .pattern "statistics.null_hypothesis" 860 r"\bH_\‹0\›" " the null hypothesis " "null hypotheses",
  .pattern "statistics.alternative_hypothesis" 860 r"\bH_\‹(?:1|a|A)\›"
    " the alternative hypothesis " "alternative hypotheses",
  .pattern "statistics.sample_mean" 855 r"\\(?:bar|overline)\‹([A-Za-z])\›"
    " the sample mean of $1 " "sample means",
  .pattern "statistics.estimator" 850 r"\\hat\‹\\?([A-Za-z]+)\s*\›" " the estimate of $1 "
    "estimators",
  .pattern "statistics.iid" 840 r"\bi\.i\.d\.|\biid\b" " independent and identically distributed "
    "independence assumptions"]

end SpokenMath.Rulebook
