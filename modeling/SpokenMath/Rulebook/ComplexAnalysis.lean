import SpokenMath.Rule.Basic

/-!
# Complex analysis

Contour integrals, residues, conjugates and moduli.
-/

namespace SpokenMath.Rulebook

/-- The rules of complex analysis. -/
def complexAnalysis : List Rule := Rule.inDomain .complexAnalysis [
  .pattern "complex.contour.closed" 900 r"\\oint_\‹([^‹›]*)\›\s*(.*?)\s*\bd\s?([a-zA-Z])\b"
    " the contour integral around $1 of $2, d $3 " "contour integral with its differential",
  .pattern "complex.contour.over" 895 r"\\oint_\‹([^‹›]*)\›" " the contour integral around $1 of "
    "contour integral around a curve",
  .pattern "complex.contour.bare" 890 r"\\oint\s?" " the contour integral of "
    "contour integral without a curve",
  .pattern "complex.residue.at" 880 r"\\Res_\‹\s*[a-zA-Z]\s*=\s*([^‹›]*?)\s*\›\s*"
    " the residue at $1 of " "residue at a point",
  .pattern "complex.residue.over" 878 r"\\Res_\‹([^‹›]*)\›\s*" " the residue at $1 of "
    "residue with a subscript",
  .pattern "complex.residue.bare" 876 r"\\Res\b\s?" " the residue of " "residue",
  .pattern "complex.conjugate" 870 r"\\(?:overline|bar)\‹\s*([zw])\s*\›" " the conjugate of $1 "
    "complex conjugates",
  .pattern "complex.real_part" 860 r"\\Re\b\s?" " the real part of " "real part",
  .pattern "complex.imaginary_part" 860 r"\\Im\b\s?" " the imaginary part of " "imaginary part",
  .pattern "complex.modulus" 850 r"\|\s*([zw])\s*\|" " the modulus of $1 " "modulus",
  .pattern "complex.argument" 845 r"\\arg\s*\(?\s*([zw])\s*\)?" " the argument of $1 " "argument",
  .pattern "complex.plane" 840 r"\\mathbb\‹C\›" " the complex plane " "the complex plane",
  .pattern "complex.exponential" 820 r"\be\^\‹i\s*([^‹›]*)\›" " e to the i $1 "
    "complex exponentials"]

end SpokenMath.Rulebook
