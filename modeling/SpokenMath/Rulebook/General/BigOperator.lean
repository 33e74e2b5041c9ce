import SpokenMath.Rulebook.Phrase

/-!
# Operators with bounds

Integrals, limits, sums and everything else that carries its bounds below and above.
-/

namespace SpokenMath.Rulebook

/-- The name of an operator over a family. -/
def bigOperatorName (command : Text) : Text :=
  match String.ofList command with
  | "sum" => "sum"
  | "prod" => "product"
  | "coprod" => "coproduct"
  | "bigcup" => "union"
  | "bigcap" => "intersection"
  | "bigoplus" => "direct sum"
  | "bigotimes" => "tensor product"
  | _ => "operator"

/-- An operator with both bounds. -/
def bigOperatorBounds (c : Captures) : Text :=
  spoken ("the " ++ bigOperatorName (c.group 1) ++ " from " ++ c.group 2 ++ " to " ++ c.group 3 ++
    " of")

/-- An operator over a set of indices. -/
def bigOperatorOver (c : Captures) : Text :=
  spoken ("the " ++ bigOperatorName (c.group 1) ++ " over " ++ c.group 2 ++ " of")

/-- An extremum over a set. -/
def bounded (c : Captures) : Text :=
  let name : Text := match String.ofList (c.group 1) with
    | "sup" => "supremum"
    | "inf" => "infimum"
    | "max" => "maximum"
    | _ => "minimum"
  spoken ("the " ++ name ++ " over " ++ c.group 2 ++ " of")

/-- A double, triple or contour integral over a region, with its differential if there is one. -/
def multipleIntegral (c : Captures) : Text :=
  let kind : Text := match String.ofList (c.group 1) with
    | "iint" => "double integral"
    | "iiint" => "triple integral"
    | _ => "contour integral"
  let front := "the " ++ kind ++ " over " ++ c.group 2 ++ " of"
  if (c.group 4).isEmpty then spoken front
  else spoken (front ++ " " ++ (c.group 3).trim ++ ", d " ++ c.group 4)

/-- The rules for operators with bounds. -/
def bigOperators : List Rule := [
  .pattern "general.one_sided.right" 600 r"\^\‹\+\›" " from the right" "one-sided limit from above",
  .pattern "general.one_sided.left" 600 r"\^\‹-\›" " from the left" "one-sided limit from below",
  .pattern "general.integral.definite" 590
    r"\\int_\‹([^‹›]*)\›\^\‹([^‹›]*)\›\s*(.*?)\s*\bd\s?([a-zA-Z])\b"
    " the integral from $1 to $2 of $3, d $4 " "definite integral with its differential",
  .pattern "general.integral.region" 585 r"\\int_\‹([^‹›]*)\›\s*(.*?)\s*\bd\s?([a-zA-Z])\b"
    " the integral over $1 of $2, d $3 " "integral over a region with its differential",
  .pattern "general.integral.indefinite" 580 r"\\int\s+(.*?)\s*\bd\s?([a-zA-Z])\b"
    " the integral of $1, d $2 " "indefinite integral with its differential",
  .pattern "general.integral.multiple" 578
    r"\\(iint|iiint|oint)_\‹([^‹›]*)\›\s*(.*?)\s*\bd\s?([a-zA-Z])\b" (.phrase multipleIntegral)
    "double, triple and contour integrals with a differential",
  .pattern "general.integral.multiple_over" 576 r"\\(iint|iiint|oint)_\‹([^‹›]*)\›"
    (.phrase multipleIntegral) "double, triple and contour integrals over a region",
  .pattern "general.integral.bounds" 575 r"\\int_\‹([^‹›]*)\›\^\‹([^‹›]*)\›"
    " the integral from $1 to $2 of " "definite integral without a differential",
  .pattern "general.integral.over" 570 r"\\int_\‹([^‹›]*)\›" " the integral over $1 of "
    "integral over a region without a differential",
  .pattern "general.limit.approach" 560
    r"\\lim_\‹\s*([^‹›]*?)\s*\\(?:to|rightarrow)\s*([^‹›]*?)\s*\›"
    " the limit as $1 approaches $2 of " "limit with an approach",
  .pattern "general.limit.over" 555 r"\\lim_\‹([^‹›]*)\›" " the limit over $1 of "
    "limit with a subscript",
  .pattern "general.big_operator.bounds" 550
    r"\\(sum|prod|coprod|bigcup|bigcap|bigoplus|bigotimes)_\‹([^‹›]*)\›\^\‹([^‹›]*)\›"
    (.phrase bigOperatorBounds) "sums, products and unions with both bounds",
  .pattern "general.big_operator.over" 545
    r"\\(sum|prod|coprod|bigcup|bigcap|bigoplus|bigotimes)_\‹([^‹›]*)\›" (.phrase bigOperatorOver)
    "sums, products and unions over an index set",
  .pattern "general.bounded" 540 r"\\(sup|inf|max|min)_\‹([^‹›]*)\›" (.phrase bounded)
    "suprema, infima, maxima and minima over a set"]

end SpokenMath.Rulebook
