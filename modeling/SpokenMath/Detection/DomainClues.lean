import SpokenMath.Detection.Mark
import SpokenMath.Domain

/-!
# Clues to domains

The domains in the order in which they are tried, with their clues. The first one of which a clue
is found is taken, so the order decides where clues overlap.
-/

namespace SpokenMath

/-- The clues to every domain. -/
def domainClues : List (Domain × List Clue) := [
  (.complexAnalysis,
    [.command ["oint", "Res", "Re", "Im", "Arg"], .text r"\mathbb‹C›",
      .word ["holomorphic", "meromorphic", "residue", "conformal", "analytic"]]),
  (.measureTheory,
    [.text r"d\mu", .text r"d\nu",
      .word ["measure", "measurable", "lebesgue", "borel", "everywhere", "ae"], .text r"\sigma-"]),
  (.topology,
    [.word ["topology", "topological", "compact", "connected", "homeomorphic", "homeomorphism",
        "homotopy", "homotopic", "hausdorff", "neighborhood", "neighbourhood", "closure",
        "interior", "boundary"],
      .text r"\pi_‹1›(", .text r"\operatorname‹int›", .text r"\mathring"]),
  (.manifolds,
    [.text "T_‹p›", .text "T^‹*›", .text r"\nabla_‹", .text r"\Gamma^‹",
      .word ["manifold", "tangent", "cotangent", "chart", "diffeomorphism"]]),
  (.ode,
    [.both (.text "=") (.pattern Mark.diffEquation), .word ["ode", "ivp", "wronskian"],
      .command ["Wronskian"]]),
  (.numericalAnalysis,
    [.pattern Mark.orderH, .pattern Mark.iterate, .text r"\epsilon_‹mach",
      .word ["newton", "euler", "iteration", "tolerance", "quadrature", "interpolation",
        "discretization"]]),
  (.realAnalysis,
    [.both (.command ["varepsilon", "epsilon"]) (.command ["delta"]),
      .command ["limsup", "liminf", "sup", "inf"],
      .both (.command ["lim"]) (.pattern Mark.sequenceLimit),
      .word ["converges", "uniformly", "cauchy", "supremum", "infimum"]]),
  (.calculus,
    [.command ["int", "iint", "iiint", "lim", "partial", "nabla"], .text r"\frac‹d",
      .both (.command ["sum", "prod"]) (.command ["infty"])]),
  (.combinatorics,
    [.command ["binom", "choose", "dbinom", "tbinom"], .pattern Mark.factorial,
      .word ["permutations", "combinations", "arrangements"]]),
  (.algorithms, [.pattern Mark.asymptotic, .word ["algorithm", "runtime", "complexity"]]),
  (.statistics,
    [.command ["Pr", "Var", "Cov"], .pattern Mark.probability,
      .word ["probability", "variance", "expected", "distribution", "hypothesis", "iid"]]),
  (.linearAlgebra,
    [.command ["det", "langle", "otimes", "dagger"],
      .environment ["matrix", "pmatrix", "bmatrix", "vmatrix"], .pattern Mark.matrixOp,
      .word ["eigenvalue", "eigenvector", "matrix", "basis", "span", "kernel"]]),
  (.logic,
    [.command ["forall", "exists", "nexists", "land", "lor", "neg", "vdash", "models",
        "Rightarrow", "Leftrightarrow", "top", "bot"]]),
  (.setTheory,
    [.command ["in", "notin", "subset", "subseteq", "cup", "cap", "setminus", "emptyset",
        "varnothing", "aleph", "wp"]]),
  (.numberTheory,
    [.command ["pmod", "bmod", "mod", "mid", "nmid", "gcd", "lcm", "equiv"],
      .word ["prime", "divides", "congruent"]])]

end SpokenMath
