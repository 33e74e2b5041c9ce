import SpokenMath.Rulebook.Phrase

/-!
# Linear algebra

Determinants, inverses, inner products and named functions of matrices.
-/

namespace SpokenMath.Rulebook

/-- A named function of matrices with its argument. -/
def matrixFunction (c : Captures) : Text :=
  let name : Text := match String.ofList (c.group 1) with
    | "span" => "the span of"
    | "rank" => "the rank of"
    | "tr" | "Tr" => "the trace of"
    | "dim" => "the dimension of"
    | "ker" => "the kernel of"
    | _ => "the diagonal matrix with entries"
  spoken (name ++ " " ++ c.group 2)

/-- The rules of linear algebra. -/
def linearAlgebra : List Rule := Rule.inDomain .linearAlgebra [
  .pattern "linear_algebra.determinant.of" 900 r"\\det\s*\(\s*([^()]*?)\s*\)"
    " the determinant of $1 " "determinant of an expression",
  .pattern "linear_algebra.determinant" 899 r"\\det\b\s?" " the determinant of " "determinant",
  .pattern "linear_algebra.inverse" 890 r"\b([A-Z])\^\‹-1\›" " the inverse of $1 "
    "matrix inverses",
  .pattern "linear_algebra.conjugate_transpose" 888 r"\b([A-Z])\^\‹(?:\\dagger\s*|\*|H)\›"
    " the conjugate transpose of $1 " "adjoints",
  .pattern "linear_algebra.inner_product" 880 r"\\langle\s*([^,]*?)\s*,\s*(.*?)\s*\\rangle\s*"
    " the inner product of $1 and $2 " "inner products",
  .pattern "linear_algebra.shifted" 860 r"\b([A-Z])\s*-\s*\\lambda\s*I\b"
    " $1 minus lambda times the identity " "characteristic matrices",
  .pattern "linear_algebra.identity" 855 r"\bI_\‹(n|\d+)\›" " the $1 by $1 identity matrix "
    "sized identity matrices",
  .pattern "linear_algebra.named" 850
    r"\\(span|rank|tr|Tr|dim|ker|diag)\b\s*(?:\(\s*([^()]*?)\s*\))?" (.phrase matrixFunction)
    "named matrix functions",
  .pattern "linear_algebra.tensor" 845 r"\\otimes\s?" " tensor " "tensor products",
  .pattern "linear_algebra.vector" 835 r"\\mathbf\‹([a-z])\›" " vector $1 " "bold vectors",
  .pattern "linear_algebra.real_space" 830 r"\\mathbb\‹R\›\^\‹([^‹›]*)\›" " R $1 "
    "coordinate spaces"]

end SpokenMath.Rulebook
