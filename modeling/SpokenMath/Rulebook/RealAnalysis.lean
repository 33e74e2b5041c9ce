import SpokenMath.Rule.Basic

/-!
# Real analysis

Sequences, convergence and epsilon-delta arguments. Arrows are read as convergence here, so limits,
which also use them, are rewritten first.
-/

namespace SpokenMath.Rulebook

/-- The rules of real analysis. -/
def realAnalysis : List Rule := Rule.inDomain .realAnalysis [
  .pattern "real_analysis.limit.infinity" 900 r"\\lim_\‹\s*([a-zA-Z])\s*\\to\s*\\infty\s*\›"
    " the limit as $1 goes to infinity of " "limits of sequences",
  .pattern "real_analysis.limit.approach" 895
    r"\\lim_\‹\s*([^‹›]*?)\s*\\(?:to|rightarrow)\s*([^‹›]*?)\s*\›"
    " the limit as $1 approaches $2 of " "limits at a point",
  .pattern "real_analysis.limsup" 890 r"\\limsup_\‹\s*([^‹›]*?)\s*\\to\s*([^‹›]*?)\s*\›"
    " the limit superior as $1 goes to $2 of " "limit superior",
  .pattern "real_analysis.liminf" 890 r"\\liminf_\‹\s*([^‹›]*?)\s*\\to\s*([^‹›]*?)\s*\›"
    " the limit inferior as $1 goes to $2 of " "limit inferior",
  .pattern "real_analysis.epsilon_delta" 880
    r"\\forall\s*\\(?:var)?epsilon\s*>\s*0\s*,?\s*\\exists\s*\\delta\s*>\s*0"
    " for every epsilon greater than 0, there exists delta greater than 0 "
    "the epsilon-delta preamble",
  .pattern "real_analysis.sequence" 870
    r"\(\s*([a-z])_\‹([a-z])\›\s*\)(?:_\‹(?:[^‹›]|\‹[^‹›]*\›)*\›)?" " the sequence $1 sub $2 "
    "sequences in parentheses",
  .pattern "real_analysis.sequence.braces" 868
    r"\\\‹\s*([a-z])_\‹([a-z])\›\s*\\\›(?:_\‹(?:[^‹›]|\‹[^‹›]*\›)*\›)?" " the sequence $1 sub $2 "
    "sequences in braces",
  .pattern "real_analysis.converges" 860 r"\\(?:to|rightarrow)\b\s?" " converges to "
    "arrows between terms are convergence",
  .pattern "real_analysis.converges_uniformly" 855 r"\\rightrightarrows\s?"
    " converges uniformly to " "uniform convergence",
  .pattern "real_analysis.real_line" 850 r"\\mathbb\‹R\›" " the real line " "the real line",
  .pattern "real_analysis.sup_norm" 845 r"\\\|\s*([^|]*?)\s*\\\|_\‹\\infty\s*\›"
    " the supremum norm of $1 " "supremum norm"]

end SpokenMath.Rulebook
