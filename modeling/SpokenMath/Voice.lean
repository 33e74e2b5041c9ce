import SpokenMath.Memory.Basic

/-!
# Voices

Which voice reads an expression, and the transcript that stands in for sound.
-/

namespace SpokenMath

/-- A voice. -/
inductive VoiceRole
  | narrator
  | theoremAnnouncer
  | proofNarrator
  | definitionVoice
  | emphasis
  deriving DecidableEq, Repr

namespace VoiceRole

/-- Every voice. -/
def all : List VoiceRole :=
  [narrator, theoremAnnouncer, proofNarrator, definitionVoice, emphasis]

/-- The name of a voice. -/
def name : VoiceRole → String
  | narrator => "narrator"
  | theoremAnnouncer => "theorem_announcer"
  | proofNarrator => "proof_narrator"
  | definitionVoice => "definition_voice"
  | emphasis => "emphasis"

/-- The voice with this name. -/
def ofName? (s : String) : Option VoiceRole := all.find? fun v => v.name == s

/-- The voice for a document structure. -/
def ofStructure : StructureKind → VoiceRole
  | .thm | .lem | .prop | .cor => theoremAnnouncer
  | .defn => definitionVoice
  | .proof => proofNarrator
  | .ex | .rem => narrator

/-- The voice for an expression: emphasized, or that of the structure which it opens, or that of
the innermost structure that is being read. -/
def choose (emphasized : Bool) (opened : Option StructureKind) (m : Memory) : VoiceRole :=
  if emphasized then emphasis
  else match opened.or ((m.frames.find? fun f => f.state == .opened).map (·.kind)) with
    | some kind => ofStructure kind
    | none => narrator

end VoiceRole

/-- Why a transcript refuses a text. -/
def multilineMessage : String := "speech text must be a single line"

/-- A line of a transcript. The text must be a single line. -/
def transcript (t : Text) (role : VoiceRole) : Except String Text :=
  if List.elem '\n' t then .error multilineMessage
  else .ok ("[" ++ role.name.toList ++ "] " ++ t ++ "\n")

end SpokenMath
