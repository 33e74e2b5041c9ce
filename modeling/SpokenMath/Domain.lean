import SpokenMath.Text.Basic

/-!
# Mathematical domains and audiences

A **domain** is a field of mathematics with its own way of reading notation; `general` is the
reading shared by all. An **audience** is the register of the listener, from least to most formal.
Both have one canonical name and a few accepted spellings.
-/

namespace SpokenMath

/-- A field of mathematics. -/
inductive Domain
  | general
  | calculus
  | topology
  | complexAnalysis
  | numericalAnalysis
  | realAnalysis
  | measureTheory
  | combinatorics
  | algorithms
  | manifolds
  | ode
  | setTheory
  | logic
  | linearAlgebra
  | statistics
  | numberTheory
  deriving DecidableEq, Repr, Inhabited

/-- A name that nothing goes by. -/
structure UnknownName where
  /-- What was looked for. -/
  what : String
  /-- The name as it was given. -/
  value : String
  deriving DecidableEq, Repr

/-- How the mistake is reported. -/
def UnknownName.message (e : UnknownName) : String :=
  "unknown " ++ e.what ++ " '" ++ e.value ++ "'"

namespace Domain

/-- Every domain, in the order of their numbers. -/
def all : List Domain :=
  [general, calculus, topology, complexAnalysis, numericalAnalysis, realAnalysis, measureTheory,
    combinatorics, algorithms, manifolds, ode, setTheory, logic, linearAlgebra, statistics,
    numberTheory]

/-- The canonical name. -/
def name : Domain → String
  | general => "general"
  | calculus => "calculus"
  | topology => "topology"
  | complexAnalysis => "complex_analysis"
  | numericalAnalysis => "numerical_analysis"
  | realAnalysis => "real_analysis"
  | measureTheory => "measure_theory"
  | combinatorics => "combinatorics"
  | algorithms => "algorithms"
  | manifolds => "manifolds"
  | ode => "ode"
  | setTheory => "set_theory"
  | logic => "logic"
  | linearAlgebra => "linear_algebra"
  | statistics => "statistics"
  | numberTheory => "number_theory"

/-- The reading shared by all domains. -/
def isGeneral (d : Domain) : Bool := d == general

/-- The domain with this canonical name. -/
def ofCanonical? (s : String) : Option Domain := all.find? fun d => d.name == s

/-- Short names, and the canonical names that they stand for. -/
def aliases : List (String × String) :=
  [("complex", "complex_analysis"), ("numerical", "numerical_analysis"), ("real", "real_analysis"),
    ("analysis", "real_analysis"), ("measure", "measure_theory"), ("sets", "set_theory"),
    ("linalg", "linear_algebra"), ("linear", "linear_algebra"), ("stats", "statistics"),
    ("probability", "statistics"), ("odes", "ode"), ("differential_equations", "ode")]

/-- Reads a domain's name. Blanks around it and the case of ASCII letters do not matter, a hyphen
or a space is as good as an underscore, and a few names have short forms. -/
def ofName (s : String) : Except UnknownName Domain :=
  let plain := (Text.lower (Text.trim s.toList)).map fun c =>
    if c == '-' || c == ' ' then '_' else c
  let plain := String.ofList plain
  match ofCanonical? ((aliases.lookup plain).getD plain) with
  | some d => .ok d
  | none => .error ⟨"domain", s⟩

end Domain

/-- The register of the listener. -/
inductive Audience
  | elementary
  | highSchool
  | undergraduate
  | graduate
  | research
  deriving DecidableEq, Repr, Inhabited

namespace Audience

/-- Every audience, from least to most formal. -/
def all : List Audience := [elementary, highSchool, undergraduate, graduate, research]

/-- The canonical name. -/
def name : Audience → String
  | elementary => "elementary"
  | highSchool => "high-school"
  | undergraduate => "undergraduate"
  | graduate => "graduate"
  | research => "research"

/-- Every accepted spelling, with hyphens between words. -/
def spellings : List (String × Audience) :=
  [("elementary", elementary), ("primary", elementary), ("high-school", highSchool),
    ("highschool", highSchool), ("secondary", highSchool), ("undergraduate", undergraduate),
    ("undergrad", undergraduate), ("college", undergraduate), ("graduate", graduate),
    ("grad", graduate), ("research", research), ("expert", research)]

/-- Reads an audience's name. Blanks around it and the case of ASCII letters do not matter, and an
underscore or a space is as good as a hyphen. -/
def ofName (s : String) : Except UnknownName Audience :=
  let plain := (Text.lower (Text.trim s.toList)).map fun c =>
    if c == '_' || c == ' ' then '-' else c
  match spellings.lookup (String.ofList plain) with
  | some a => .ok a
  | none => .error ⟨"audience level", s⟩

end Audience

end SpokenMath
