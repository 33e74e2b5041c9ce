import SpokenMath.Cache.Key
import SpokenMath.Config.Engine
import SpokenMath.Engine.Error
import SpokenMath.Engine.Speech
import SpokenMath.Memory.Analysis
import SpokenMath.Memory.Fingerprint
import SpokenMath.Polish
import SpokenMath.Screening.Check

/-!
# The engine

One call screens an expression, looks its speech up in the cache or else computes it, and commits
its effects to the memory of the session. To compute speech is to read the tree, to find the domain,
to collect the effects, to rewrite the canonical text by the rules of the domain, and to polish what
comes out.

Memory is only written when a call succeeds, and so is the cache but for the lookup. The key of a
result covers everything that the result depends on.
-/

namespace SpokenMath

/-- An expression with the options under which it is to be spoken. -/
structure Expression where
  text : Text
  audience : Audience := .undergraduate
  /-- The domain to read it in; otherwise it is found. -/
  domain : Option Domain := none
  deriving DecidableEq, Repr

/-- An engine: a configuration and a rule book. -/
structure Engine where
  config : EngineConfig
  book : RuleBook

/-- What a successful call answers. -/
structure Outcome where
  speech : Text
  subcontext : Subcontext
  voice : VoiceRole
  unknownCommands : List String
  /-- The notices of all stages, those of the commit last. -/
  warnings : List Notice
  applied : List String
  /-- The speech came from the cache. -/
  cacheHit : Bool
  deriving DecidableEq, Repr

/-- The answer made of speech and of what was noted when its effects were committed. -/
def Speech.outcome (s : Speech) (committed : List Notice) (cacheHit : Bool) : Outcome where
  speech := s.text
  subcontext := s.subcontext
  voice := s.voice
  unknownCommands := s.unknownCommands
  warnings := s.notices ++ committed
  applied := s.applied
  cacheHit := cacheHit

namespace Engine

/-- The cache that an engine starts with, if its results are to be cached. -/
def freshCache (e : Engine) : Option SpeechCache :=
  if e.config.cache.enabled then
    some (.new e.config.cache.capacity (1000 * e.config.cache.ttlSeconds))
  else none

/-- What the result of a call depends on. -/
def keyParts (e : Engine) (input : SafeInput) (x : Expression) (m : Memory) : List KeyPart :=
  [.text input.text.collapse, .text x.audience.name.toList,
    .text ((x.domain.map Domain.name).getD "").toList, .bytes (bigEndian64 m.fingerprint),
    .number e.book.revision, .number (if e.config.warnUndefinedSymbols then 1 else 0),
    .number (.ofNat e.config.rewrite.maxPasses), .number (.ofNat e.config.rewrite.maxGrowthFactor)]

/-- The key of a call in the cache. -/
def key (e : Engine) (input : SafeInput) (x : Expression) (m : Memory) : Digest :=
  KeyPart.key (e.keyParts input x m)

/-- The notices of reading, rewriting and analysis. An end that closes a structure of an earlier
expression is not stray. -/
def collectNotices (parsed : Parsed) (rewriting : Rewriting) (a : Analysis) : List Notice :=
  let reading := parsed.notices.filter fun
    | .strayEnd name => !a.resolvedEnds.contains name
    | _ => true
  reading ++ (if rewriting.ending == .limit then [.rewriteLimit] else []) ++ a.notices

/-- The speech for a screened input, computed. -/
def compute (e : Engine) (input : SafeInput) (x : Expression) (m : Memory) (deadline : Deadline) :
    Except EngineError Speech :=
  match parse ⟨input.maxDepth, deadline⟩ input.text with
  | .error error => .error (.ofReadError deadline.budget error)
  | .ok parsed =>
    let features := Features.ofTree parsed.tree
    let subcontext := detect features x.domain m
    let analysis := analyze parsed.tree parsed.notices m e.config.warnUndefinedSymbols
    let rules := e.book.rulesFor subcontext.domain
    let rewriting := rewrite rules e.config.rewrite deadline features.text
    match rewriting.ending with
    | .outOfTime elapsed => .error (.outOfTime elapsed deadline.budget)
    | _ =>
      match deadline.spentAt .beforeAnswer with
      | some elapsed => .error (.outOfTime elapsed deadline.budget)
      | none => .ok {
          text := polish x.audience rewriting.text
          subcontext
          voice := .choose (parsed.tree.commandNames.contains "boxed") analysis.opened? m
          applied := rewriting.applied
          unknownCommands := parsed.unknownCommands
          notices := collectNotices parsed rewriting analysis
          effects := analysis.effects ++
            if subcontext.domain.isGeneral then [] else [.topic subcontext.domain] }

/-- Looks a key up in a cache that may be missing. -/
def lookup (cache : Option SpeechCache) (k : Digest) (now : UInt64) :
    Option Speech × Option SpeechCache :=
  match cache with
  | none => (none, none)
  | some c =>
    let (found, c) := c.get k now
    (found, some c)

/-- One call: speaks an expression in the memory of a session. Answers the outcome with the memory
and the cache behind the call. -/
def process (e : Engine) (x : Expression) (deadline : Deadline) (now : UInt64) (m : Memory)
    (cache : Option SpeechCache) : Except EngineError Outcome × Memory × Option SpeechCache :=
  match Screening.check x.text e.config.limits with
  | .error violation => (.error (.refused violation), m, cache)
  | .ok input =>
    let k := e.key input x m
    match lookup cache k now with
    | (some s, cache) =>
      let (committed, m) := m.commit s.effects
      (.ok (s.outcome committed true), m, cache)
    | (none, cache) =>
      match e.compute input x m deadline with
      | .error error => (.error error, m, cache)
      | .ok s =>
        let (committed, m) := m.commit s.effects
        (.ok (s.outcome committed false), m, cache.map fun c => c.insert k s now)

end Engine

end SpokenMath
