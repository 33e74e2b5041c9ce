import SpokenMath.Detection.Features

/-!
# Marks of notation

Patterns by which domains and topics are recognized.
-/

namespace SpokenMath.Mark

/-- A derivative of an unknown. -/
def diffEquation : Pattern := .ofTable r"[a-z]'|\\frac\‹d\^?\‹?\d?\›?[a-z]\›\‹d|\\dot\‹"

/-- An index that goes to infinity. -/
def sequenceLimit : Pattern := .ofTable r"n\s*\\to\s*\\infty"

/-- A factorial. -/
def factorial : Pattern := .ofTable r"[A-Za-z0-9›)]!"

/-- A bound on growth. -/
def asymptotic : Pattern := .ofTable r"(?:\bO|\\Theta|\\Omega)\s*\("

/-- A probability or an expectation. -/
def probability : Pattern := .ofTable r"(?:\bP|\\Pr)\s*\(|\bE\s*\[|\\mathbb\‹E\›"

/-- An operation on matrices. -/
def matrixOp : Pattern := .ofTable r"\b[A-Z]\^\‹(?:-1|T)\›|\\lambda\s*I\b"

/-- An order in the step size. -/
def orderH : Pattern := .ofTable r"\bO\s*\(\s*h\b"

/-- The next iterate. -/
def iterate : Pattern := .ofTable r"[a-z]_\‹n\s*\+\s*1\›"

/-- An initial value. -/
def initialValue : Pattern := .ofTable r"[a-z]\s*\(\s*0\s*\)\s*="

/-- A value with a smaller index. -/
def recurrence : Pattern := .ofTable r"[a-z]_\‹n\s*-\s*1\›|\bT\s*\(\s*n\s*/"

/-- Bars around a set. -/
def cardinality : Pattern := .ofTable r"\|\s*[A-Z][^|]*\|"

end SpokenMath.Mark
