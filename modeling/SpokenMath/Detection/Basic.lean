import SpokenMath.Detection.DomainClues
import SpokenMath.Detection.TopicClues
import SpokenMath.Memory.Basic

/-!
# Finding the domain

The domain of an expression is the one that the caller asks for, or the first one of which a clue
is found, or the topic of the session, or the general one. Its topic is found in the same way
among the topics of the domain.
-/

namespace SpokenMath

/-- A topic within a domain. -/
structure Subcontext where
  domain : Domain
  topic : String
  deriving DecidableEq, Repr

namespace Subcontext

/-- The topic where no clue is found. -/
def generalTopic : String := "general"

/-- The topics of a domain. -/
def topics (d : Domain) : List String := (topicClues d).map Prod.fst ++ [generalTopic]

/-- The domain and the topic. -/
def render (s : Subcontext) : String := s.domain.name ++ "/" ++ s.topic

end Subcontext

/-- The first domain of which a clue is found. -/
def Features.domain? (f : Features) : Option Domain := Clue.first? domainClues f

/-- The topic within a domain. -/
def Features.subcontext (f : Features) (d : Domain) : Subcontext :=
  ⟨d, (Clue.first? (topicClues d) f).getD Subcontext.generalTopic⟩

/-- The domain and the topic of an expression. -/
def detect (f : Features) (hint : Option Domain) (m : Memory) : Subcontext :=
  f.subcontext (((hint.or f.domain?).or m.topic).getD .general)

end SpokenMath
