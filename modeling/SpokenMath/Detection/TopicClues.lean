import SpokenMath.Detection.Mark
import SpokenMath.Domain

/-!
# Clues to topics

The topics of every domain in the order in which they are tried, with their clues.
-/

namespace SpokenMath

namespace TopicClues

/-- Topics of calculus. -/
def calculus : List (String × List Clue) := [
  ("multiple_integrals", [.command ["iint", "iiint", "oiint"]]),
  ("vector_calculus", [.command ["nabla"]]),
  ("partial_derivatives", [.command ["partial"]]),
  ("integrals", [.command ["int", "oint"]]),
  ("derivatives", [.text r"\frac‹d", .pattern Mark.diffEquation]),
  ("limits", [.command ["lim"]]),
  ("series", [.command ["sum", "prod"]])]

/-- Topics of complex analysis. -/
def complexAnalysis : List (String × List Clue) := [
  ("residues", [.text r"\Res", .text "‹Res›", .word ["residue", "residues", "pole"]]),
  ("integration", [.command ["oint", "int"]]),
  ("holomorphic", [.word ["holomorphic", "analytic", "meromorphic"], .command ["partial"]]),
  ("conformal", [.word ["conformal", "mobius"]]),
  ("series", [.command ["sum"], .word ["laurent", "taylor"]]),
  ("basic", [.command ["Re", "Im", "Arg", "overline", "bar"], .text r"\mathbb‹C›", .text "|z|"])]

/-- Topics of topology. -/
def topology : List (String × List Clue) := [
  ("homotopy", [.text r"\pi_‹", .command ["simeq"], .word ["homotopy", "homotopic"]]),
  ("compactness", [.word ["compact", "cover", "subcover"]]),
  ("connectedness", [.word ["connected", "path"]]),
  ("closure_interior",
    [.command ["overline", "mathring", "partial"], .text r"\operatorname‹int›",
      .word ["closure", "interior", "boundary"]]),
  ("continuity", [.word ["continuous", "homeomorphism", "homeomorphic"], .text "^‹-1›("]),
  ("open_closed", [.word ["open", "closed"]])]

/-- Topics of real analysis. -/
def realAnalysis : List (String × List Clue) := [
  ("epsilon_delta", [.both (.command ["varepsilon", "epsilon"]) (.command ["delta"])]),
  ("bounds",
    [.command ["sup", "inf", "limsup", "liminf"], .word ["bounded", "supremum", "infimum"]]),
  ("sequences", [.pattern Mark.sequenceLimit, .word ["sequence", "cauchy"]]),
  ("series", [.command ["sum"]]),
  ("continuity", [.word ["continuous", "uniformly", "continuity"]])]

/-- Topics of measure theory. -/
def measureTheory : List (String × List Clue) := [
  ("integration", [.command ["int"]]),
  ("sigma_algebras",
    [.text r"\sigma-", .text r"\mathcal‹F›", .text r"\mathcal‹B›",
      .word ["algebra", "measurable", "borel", "filtration"]]),
  ("convergence", [.word ["everywhere", "ae", "converges", "convergence"]]),
  ("measures", [.command ["mu", "nu", "lambda"], .word ["measure"]])]

/-- Topics of numerical analysis. -/
def numericalAnalysis : List (String × List Clue) := [
  ("root_finding",
    [.word ["newton", "bisection", "root", "secant"], .both (.pattern Mark.iterate) (.text "'")]),
  ("ode_solvers", [.word ["euler", "runge", "kutta", "stiff"], .text "y_‹n+1›"]),
  ("quadrature", [.word ["quadrature", "trapezoid", "trapezoidal", "simpson"], .command ["int"]]),
  ("interpolation", [.word ["interpolation", "interpolant", "lagrange", "spline"]]),
  ("error_analysis",
    [.pattern Mark.orderH, .text r"\epsilon_‹mach", .command ["kappa"],
      .word ["error", "tolerance"]])]

/-- Topics of combinatorics. -/
def combinatorics : List (String × List Clue) := [
  ("binomial", [.command ["binom", "choose", "dbinom", "tbinom"]]),
  ("permutations", [.word ["permutation", "permutations", "arrangements"],
    .pattern Mark.factorial]),
  ("recurrences", [.pattern Mark.recurrence, .word ["recurrence"]]),
  ("counting", [.pattern Mark.cardinality, .word ["ways", "count", "pigeonhole"]])]

/-- Topics of algorithms. -/
def algorithms : List (String × List Clue) := [
  ("asymptotic", [.pattern Mark.asymptotic]),
  ("recurrences", [.pattern Mark.recurrence]),
  ("logarithmic", [.command ["log", "lg", "ln"]])]

/-- Topics of manifolds. -/
def manifolds : List (String × List Clue) := [
  ("connections", [.text r"\nabla_‹", .text r"\Gamma^‹", .word ["connection"]]),
  ("differential_forms", [.command ["wedge"], .word ["form", "forms"]]),
  ("tangent_spaces", [.text "T_‹p›", .text "T^‹*›", .word ["tangent", "cotangent"]])]

/-- Topics of ordinary differential equations. -/
def ode : List (String × List Clue) := [
  ("initial_value", [.pattern Mark.initialValue]),
  ("systems",
    [.command ["mathbf"], .environment ["pmatrix", "bmatrix", "cases"], .word ["system"]]),
  ("second_order", [.text "''", .text "d^‹2›"]),
  ("first_order", [.pattern Mark.diffEquation])]

/-- Topics of set theory. -/
def setTheory : List (String × List Clue) := [
  ("set_builder",
    [.both (.text r"\‹") (.command ["mid"]), .both (.text r"\‹") (.text "|"),
      .both (.text r"\‹") (.text ":")]),
  ("cardinality",
    [.command ["aleph"], .pattern Mark.cardinality,
      .word ["cardinality", "countable", "uncountable"]]),
  ("operations", [.command ["cup", "cap", "setminus", "times", "complement", "wp"]]),
  ("membership", [.command ["in", "notin", "subset", "subseteq"]])]

/-- Topics of logic. -/
def logic : List (String × List Clue) := [
  ("entailment", [.command ["vdash", "models"]]),
  ("quantifiers", [.command ["forall", "exists", "nexists"]]),
  ("connectives",
    [.command ["land", "lor", "neg", "wedge", "vee", "Rightarrow", "Leftrightarrow",
        "rightarrow"]])]

/-- Topics of linear algebra. -/
def linearAlgebra : List (String × List Clue) := [
  ("eigen",
    [.word ["eigenvalue", "eigenvector", "eigenvalues", "eigenvectors"], .text r"\lambda I"]),
  ("determinants", [.command ["det"], .environment ["vmatrix"]]),
  ("inner_products", [.command ["langle"], .word ["orthogonal", "orthonormal", "norm"]]),
  ("matrices",
    [.environment ["matrix", "pmatrix", "bmatrix"], .pattern Mark.matrixOp, .word ["matrix"]]),
  ("vector_spaces", [.text r"\mathbb‹R›^‹", .word ["span", "basis", "dimension", "subspace"]])]

/-- Topics of statistics. -/
def statistics : List (String × List Clue) := [
  ("hypothesis_testing", [.text "H_‹0›", .word ["hypothesis", "test", "significance"]]),
  ("distributions",
    [.command ["sim"], .text r"\mathcal‹N›", .word ["distribution", "distributed", "normal"]]),
  ("expectation", [.command ["Var", "Cov"], .text r"\mathbb‹E›", .text "E["]),
  ("estimation", [.command ["hat"], .word ["estimator", "estimate", "mle"]]),
  ("probability", [.pattern Mark.probability])]

/-- Topics of number theory. -/
def numberTheory : List (String × List Clue) := [
  ("congruences", [.command ["pmod", "bmod", "mod", "equiv"]]),
  ("divisibility", [.command ["mid", "nmid", "gcd", "lcm"], .word ["divides"]]),
  ("primes", [.word ["prime", "primes"], .command ["phi", "varphi"]])]

end TopicClues

/-- The clues to the topics of a domain. -/
def topicClues : Domain → List (String × List Clue)
  | .general => []
  | .calculus => TopicClues.calculus
  | .complexAnalysis => TopicClues.complexAnalysis
  | .topology => TopicClues.topology
  | .realAnalysis => TopicClues.realAnalysis
  | .measureTheory => TopicClues.measureTheory
  | .numericalAnalysis => TopicClues.numericalAnalysis
  | .combinatorics => TopicClues.combinatorics
  | .algorithms => TopicClues.algorithms
  | .manifolds => TopicClues.manifolds
  | .ode => TopicClues.ode
  | .setTheory => TopicClues.setTheory
  | .logic => TopicClues.logic
  | .linearAlgebra => TopicClues.linearAlgebra
  | .statistics => TopicClues.statistics
  | .numberTheory => TopicClues.numberTheory

end SpokenMath
