import SpokenMath.Rule.Book
import SpokenMath.Rulebook.Algorithms
import SpokenMath.Rulebook.Calculus
import SpokenMath.Rulebook.Combinatorics
import SpokenMath.Rulebook.ComplexAnalysis
import SpokenMath.Rulebook.Critical
import SpokenMath.Rulebook.DifferentialEquations
import SpokenMath.Rulebook.General.BigOperator
import SpokenMath.Rulebook.General.Command
import SpokenMath.Rulebook.General.Delimiter
import SpokenMath.Rulebook.General.Environment
import SpokenMath.Rulebook.General.Symbol
import SpokenMath.Rulebook.LinearAlgebra
import SpokenMath.Rulebook.Logic
import SpokenMath.Rulebook.Manifolds
import SpokenMath.Rulebook.MeasureTheory
import SpokenMath.Rulebook.NumberTheory
import SpokenMath.Rulebook.NumericalAnalysis
import SpokenMath.Rulebook.RealAnalysis
import SpokenMath.Rulebook.SetTheory
import SpokenMath.Rulebook.Statistics
import SpokenMath.Rulebook.Topology

/-!
# The standard rule book

All tables, in the order in which they are registered. The order decides between rules of equal
priority.
-/

namespace SpokenMath

/-- The rules that hold in every domain. -/
def generalRules : List Rule :=
  Rulebook.environments ++ Rulebook.bigOperators ++ Rulebook.commands ++ Rulebook.delimiters ++
    Rulebook.symbols

/-- The rules of all domains. -/
def standardRules : List Rule :=
  Rulebook.critical ++ Rulebook.calculus ++ Rulebook.complexAnalysis ++ Rulebook.topology ++
    Rulebook.realAnalysis ++ Rulebook.measureTheory ++ Rulebook.numericalAnalysis ++
    Rulebook.combinatorics ++ Rulebook.algorithms ++ Rulebook.manifolds ++
    Rulebook.differentialEquations ++ Rulebook.setTheory ++ Rulebook.logic ++
    Rulebook.linearAlgebra ++ Rulebook.statistics ++ Rulebook.numberTheory ++ generalRules

/-- The book of all rules. -/
def RuleBook.standard : RuleBook := .ofRules standardRules

end SpokenMath
