import SpokenMath.Cache.Snapshot
import SpokenMath.Detection.Basic
import SpokenMath.Voice

/-!
# Speech

What is spoken for an expression, with everything that is needed to speak it again from a cache:
the effects on memory are kept, not the memory.
-/

namespace SpokenMath

/-- What is spoken for an expression. -/
structure Speech where
  text : Text
  subcontext : Subcontext
  voice : VoiceRole
  /-- The rules that were applied, in the order of their first use. -/
  applied : List String
  unknownCommands : List String
  notices : List Notice
  /-- What the expression does to memory. -/
  effects : List Effect
  deriving DecidableEq, Repr

/-- A cache of speech. -/
abbrev SpeechCache := Cache Digest Speech

namespace Speech

/-! ## Bytes

A value of an inductive type is written as the number of its constructor and its fields as
strings. -/

/-- Strings under a number. -/
def fields : Codec (UInt32 × List String) := Codec.word32.pair (.list .string)

/-- The parts of a notice. -/
def noticeFields : Notice → UInt32 × List String
  | .unknownCommand name => (0, [name])
  | .unbalancedDelimiter => (1, [])
  | .unterminatedEnvironment name => (2, [name])
  | .strayEnd name => (3, [name])
  | .mismatchedClose expected found => (4, [expected, found])
  | .structureOverflow => (5, [])
  | .symbolRedefined symbol previous current => (6, [symbol, previous, current])
  | .undefinedSymbol symbol => (7, [symbol])
  | .rewriteLimit => (8, [])

/-- The notice with these parts. -/
def noticeOfFields : UInt32 × List String → Option Notice
  | (0, [name]) => some (.unknownCommand name)
  | (1, []) => some .unbalancedDelimiter
  | (2, [name]) => some (.unterminatedEnvironment name)
  | (3, [name]) => some (.strayEnd name)
  | (4, [expected, found]) => some (.mismatchedClose expected found)
  | (5, []) => some .structureOverflow
  | (6, [symbol, previous, current]) => some (.symbolRedefined symbol previous current)
  | (7, [symbol]) => some (.undefinedSymbol symbol)
  | (8, []) => some .rewriteLimit
  | _ => none

/-- The parts of an effect. -/
def effectFields : Effect → UInt32 × List String
  | .define symbol meaning => (0, [symbol, meaning])
  | .reference symbol => (1, [symbol])
  | .opening kind => (2, [kind.name])
  | .closing kind => (3, [kind.name])
  | .topic domain => (4, [domain.name])

/-- The effect with these parts. -/
def effectOfFields : UInt32 × List String → Option Effect
  | (0, [symbol, meaning]) => some (.define symbol meaning)
  | (1, [symbol]) => some (.reference symbol)
  | (2, [kind]) => (StructureKind.ofName? kind).map .opening
  | (3, [kind]) => (StructureKind.ofName? kind).map .closing
  | (4, [domain]) => (Domain.ofCanonical? domain).map .topic
  | _ => none

/-- Notices. -/
def noticeCodec : Codec Notice := fields.via noticeFields noticeOfFields

/-- Effects. -/
def effectCodec : Codec Effect := fields.via effectFields effectOfFields

/-- Texts. -/
def textCodec : Codec Text := Codec.string.via String.ofList fun s => some s.toList

/-- Domains, with a topic. -/
def subcontextCodec : Codec Subcontext :=
  (Codec.string.pair .string).via (fun s => (s.domain.name, s.topic)) fun (domain, topic) =>
    (Domain.ofCanonical? domain).map fun d => ⟨d, topic⟩

/-- Voices. -/
def voiceCodec : Codec VoiceRole := Codec.string.via VoiceRole.name VoiceRole.ofName?

/-- Lists of strings. -/
def namesCodec : Codec (List String) := .list .string

/-- Speech. -/
def codec : Codec Speech :=
  ((textCodec.pair (subcontextCodec.pair voiceCodec)).pair
    ((namesCodec.pair namesCodec).pair (Codec.pair (.list noticeCodec) (.list effectCodec)))).via
    (fun s => ((s.text, s.subcontext, s.voice),
      (s.applied, s.unknownCommands), (s.notices, s.effects)))
    (fun ((text, subcontext, voice), (applied, unknownCommands), (notices, effects)) =>
      some ⟨text, subcontext, voice, applied, unknownCommands, notices, effects⟩)

end Speech

end SpokenMath
