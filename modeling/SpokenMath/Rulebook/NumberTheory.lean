import SpokenMath.Rule.Basic

/-!
# Number theory

Congruences, divisors and residue rings.
-/

namespace SpokenMath.Rulebook

/-- The rules of number theory. -/
def numberTheory : List Rule := Rule.inDomain .numberTheory [
  .pattern "number_theory.congruence" 900 r"\\equiv\s*([^\\]*?)\s*\\pmod\‹([^‹›]*)\›"
    " is congruent to $1 modulo $2 " "congruences with pmod",
  .pattern "number_theory.congruence.paren" 895
    r"\\equiv\s*([^\\(]*?)\s*\(\s*\\(?:mod|bmod)\b\s*([^()]*?)\s*\)"
    " is congruent to $1 modulo $2 " "congruences with a parenthesized modulus",
  .pattern "number_theory.equiv" 890 r"\\equiv\s?" " is congruent to " "congruence",
  .pattern "number_theory.modulo" 885 r"\\(?:bmod|mod)\b\s?" " modulo " "modulo operator",
  .pattern "number_theory.divides" 880 r"\\mid\s?" " divides " "divisibility",
  .pattern "number_theory.not_divides" 880 r"\\nmid\s?" " does not divide " "non-divisibility",
  .pattern "number_theory.gcd" 870 r"\\gcd\s*\(\s*([^(),]*?)\s*,\s*([^()]*?)\s*\)"
    " the greatest common divisor of $1 and $2 " "greatest common divisors",
  .pattern "number_theory.lcm" 870 r"\\lcm\s*\(\s*([^(),]*?)\s*,\s*([^()]*?)\s*\)"
    " the least common multiple of $1 and $2 " "least common multiples",
  .pattern "number_theory.totient" 860 r"\\(?:var)?phi\s*\(\s*([^()]*?)\s*\)" " the totient of $1 "
    "Euler's totient",
  .pattern "number_theory.residues" 850 r"\\mathbb\‹Z\›\s*/\s*([a-z0-9]+)\s*\\mathbb\‹Z\›"
    " the integers modulo $1 " "residue rings",
  .pattern "number_theory.residues.subscript" 848 r"\\mathbb\‹Z\›_\‹([^‹›]*)\›"
    " the integers modulo $1 " "residue rings by subscript",
  .pattern "number_theory.legendre" 845 r"\(\s*\\frac\‹([^‹›]*)\›\‹(p|q)\›\s*\)"
    " the Legendre symbol $1 over $2 " "Legendre symbols"]

end SpokenMath.Rulebook
