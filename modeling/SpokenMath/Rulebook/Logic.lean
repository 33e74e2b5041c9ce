import SpokenMath.Rule.Basic

/-!
# Logic

Propositional and predicate logic.
-/

namespace SpokenMath.Rulebook

/-- The rules of logic. -/
def logic : List Rule := Rule.inDomain .logic [
  .pattern "logic.forall" 900 r"\\forall\s?" " for all " "universal quantifier",
  .pattern "logic.exists_unique" 895 r"\\exists\s*!\s*" " there exists a unique "
    "unique existence",
  .pattern "logic.exists" 890 r"\\exists\b\s?" " there exists " "existential quantifier",
  .pattern "logic.nexists" 890 r"\\nexists\s?" " there does not exist " "negated existence",
  .pattern "logic.and" 880 r"\\(?:land|wedge)\b\s?" " and " "conjunction",
  .pattern "logic.or" 880 r"\\(?:lor|vee)\b\s?" " or " "disjunction",
  .pattern "logic.not" 880 r"\\neg\b\s?" " not " "negation",
  .pattern "logic.implies" 870 r"\\(?:Rightarrow|rightarrow|to)\b\s?" " implies " "implication",
  .pattern "logic.iff" 870 r"\\(?:Leftrightarrow|leftrightarrow)\b\s?" " if and only if "
    "biconditional",
  .pattern "logic.proves" 860 r"\\vdash\s?" " proves " "syntactic entailment",
  .pattern "logic.models" 860 r"\\models\s?" " semantically entails " "semantic entailment",
  .pattern "logic.true" 850 r"\\top\b\s?" " true " "verum",
  .pattern "logic.false" 850 r"\\bot\b\s?" " false " "falsum",
  .pattern "logic.therefore" 845 r"\\therefore\s?" " therefore " "conclusion marker",
  .pattern "logic.equivalent" 840 r"\\equiv\s?" " is logically equivalent to "
    "logical equivalence",
  .pattern "logic.predicate" 830 r"\b([A-Z])\s*\(\s*([^()]*?)\s*\)" " $1 of $2 "
    "predicates applied to terms"]

end SpokenMath.Rulebook
