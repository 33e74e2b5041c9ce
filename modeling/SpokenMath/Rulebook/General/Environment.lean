import SpokenMath.Memory.Structure
import SpokenMath.Rulebook.Phrase

/-!
# Environments

Matrices are read row by row, displays line by line, and theorems and the like announce
themselves. The body of an environment is cut into **rows** at its row separators, and a row into
**cells** at its alignment marks; rows without any text do not count.
-/

namespace SpokenMath.Rulebook

/-- Environments that hold a matrix. -/
def matrixEnvironments : List String :=
  ["matrix", "pmatrix", "bmatrix", "Bmatrix", "vmatrix", "Vmatrix", "smallmatrix", "array"]

/-- Environments that hold a definition by cases. -/
def caseEnvironments : List String := ["cases", "dcases"]

/-- Environments that hold lines. -/
def alignedEnvironments : List String :=
  ["align", "align*", "aligned", "equation", "equation*", "gather", "gather*", "gathered",
    "multline", "multline*", "split", "eqnarray", "eqnarray*", "alignat", "flalign"]

/-- Environments that hold a statement or a proof. -/
def statementEnvironments : List String :=
  ["theorem", "theorem*", "lemma", "lemma*", "proposition", "proposition*", "corollary",
    "corollary*", "definition", "definition*", "example", "example*", "remark", "remark*",
    "proof", "proof*", "thm", "lem", "prop", "cor", "defn", "rem"]

/-! ## Rows and cells -/

/-- The pieces between the row separators of a text. -/
def betweenRowMarks : Text → List Text
  | [] => [[]]
  | '\\' :: '\\' :: t => [] :: betweenRowMarks t
  | c :: t =>
    match betweenRowMarks t with
    | [] => [[c]]
    | piece :: pieces => (c :: piece) :: pieces

/-- The text of a cell. A minus sign in front of it is read as a sign. -/
def cellText (cell : Text) : Text :=
  match cell.trim with
  | '-' :: rest => "negative " ++ Text.trimStart rest
  | cell => cell

/-- The cells of the rows of a text. -/
def splitRows (body : Text) : List (List Text) :=
  let rows := (betweenRowMarks body).map Text.trim
  (rows.filter (!·.isEmpty)).map fun row => (Text.split (· == '&') row).map cellText

/-- The items with a separator between neighbours, and an "and" in front of the last one. -/
def joinWithAnd (separator : Text) (items : List Text) : Text :=
  match items.reverse with
  | [] => []
  | [only] => only
  | last :: others => Text.join separator others.reverse ++ separator ++ " and " ++ last

/-! ## Phrases -/

/-- The entries of a matrix, introduced by its form. -/
def matrixReading (rows : List (List Text)) : Text :=
  let columns := (rows.map List.length).foldl max 0
  match rows with
  | [row] => "the row vector " ++ Text.join ", " row
  | _ =>
    if rows.length > 1 && columns == 1 then
      "the column vector " ++ Text.join ", " (rows.map (Text.join " "))
    else
      "the " ++ Numeral.cardinal rows.length ++ " by " ++ Numeral.cardinal columns ++
        " matrix with rows " ++ joinWithAnd ";" (rows.map (Text.join ", "))

/-- A matrix. Bars around it make a determinant or a norm. -/
def matrix (c : Captures) : Text :=
  let reading := matrixReading (splitRows (c.group 1))
  if c.name = some "vmatrix".toList then spoken ("the determinant of " ++ reading)
  else if c.name = some "Vmatrix".toList then spoken ("the norm of " ++ reading)
  else spoken reading

/-- One case of a definition: a value and the condition that goes with it. -/
def caseReading (row : List Text) : Text :=
  let value := row.getD 0 []
  let condition := (row.getD 1 []).trim
  if condition.isEmpty then value
  else if Text.startsWith "if " condition || Text.startsWith "when " condition ||
      Text.startsWith "otherwise" condition then
    value ++ " " ++ condition
  else value ++ " if " ++ condition

/-- A definition by cases. -/
def caseAnalysis (c : Captures) : Text :=
  spoken ("piecewise, " ++ Text.join "; " ((splitRows (c.group 1)).map caseReading))

/-- Lines of a display. -/
def alignedLines (c : Captures) : Text :=
  spoken (Text.join ", " ((splitRows (c.group 1)).map (Text.join " ")))

/-- The signs that may end a sentence or a part of one. -/
def sentenceEnds : List Char := ['.', '!', '?', ',', ';', ':']

/-- A word with a capital letter. -/
def capitalized : Text → Text
  | [] => []
  | c :: t => c.toUpper :: t

/-- A statement with its heading. The end of a proof is announced. -/
def statement (c : Captures) : Text :=
  let kind := (c.name.bind fun n => StructureKind.ofName? (String.ofList n)).getD .rem
  let heading := capitalized kind.name.toList ++ "."
  let body := (c.group 1).trim
  let sentence : Text :=
    match body.getLast? with
    | none => []
    | some last => " " ++ body ++ if sentenceEnds.contains last then "" else "."
  spoken (heading ++ sentence ++ if kind = .proof then " End of proof." else "")

/-- The rules for environments. They are among the first, so that a body is cut into rows before
anything else reads it. -/
def environments : List Rule := [
  .environment "general.environment.matrix" 650 matrixEnvironments (.phrase matrix)
    "matrices read row by row",
  .environment "general.environment.cases" 650 caseEnvironments (.phrase caseAnalysis)
    "piecewise definitions",
  .environment "general.environment.aligned" 650 alignedEnvironments (.phrase alignedLines)
    "multi-line displays read line by line",
  .environment "general.environment.statement" 650 statementEnvironments (.phrase statement)
    "theorem-like blocks announce themselves"]

end SpokenMath.Rulebook
