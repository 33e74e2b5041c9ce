import SpokenMath.Proofs.Cache.Entries
import SpokenMath.Proofs.Engine.Independence
import SpokenMath.Proofs.Rule.Passes
import Mathlib.Logic.Function.Basic

/-!
# A service of many sessions

An engine serves calls on any number of sessions, each with a memory of its own, and all of them
share its cache. This file says what a list of calls does: the replies in order, and the memories
and the cache behind them (`Engine.serveAll`).

A run also looks keys up. `Engine.lookups` lists what was behind each lookup, and `Faithful` is the
assumption on digests that the cache lives by: in the lookups of the run, no two different byte
strings have the same digest.
-/

namespace SpokenMath

/-- One call on a service, with what the clock shows while it is served. -/
structure Call (ι : Type) where
  session : ι
  expression : Expression
  /-- The milliseconds that have passed, at a moment at which the budget is spent. -/
  spentAt : Moment → Option Nat
  /-- The time at which the cache is asked, in milliseconds. -/
  now : UInt64

/-- The budget lasts at every moment of the call. -/
def Call.Timely {ι : Type} (c : Call ι) : Prop := ∀ moment, c.spentAt moment = none

/-- What a call gives back, and the memory of its session behind it. -/
structure Reply where
  answer : Except EngineError Outcome
  memory : Memory

/-- The reply that speech gives in a memory: its effects are committed. -/
def Speech.reply (s : Speech) (m : Memory) (cacheHit : Bool) : Reply where
  answer := .ok (s.outcome (m.commit s.effects).1 cacheHit)
  memory := (m.commit s.effects).2

/-- The outcome with nothing said about where the speech came from. -/
def Outcome.anySource (o : Outcome) : Outcome := { o with cacheHit := false }

/-- The reply with nothing said about where the speech came from. -/
def Reply.anySource (r : Reply) : Reply := { r with answer := r.answer.map Outcome.anySource }

theorem Speech.anySource_reply (s : Speech) (m : Memory) (hit hit' : Bool) :
    (s.reply m hit).anySource = (s.reply m hit').anySource := rfl

/-- The memories of the sessions `ι` and the cache that they share, if there is one. -/
structure Service (ι : Type) where
  memories : ι → Memory
  cache : Option SpeechCache

/-- What is behind a lookup in the cache. -/
structure Lookup where
  input : SafeInput
  expression : Expression
  memory : Memory

namespace Engine

variable {ι : Type}

/-- The service before the first call. -/
def start (e : Engine) (memories : ι → Memory) : Service ι := ⟨memories, e.freshCache⟩

/-- The same engine, with caching disabled. -/
def uncached (e : Engine) : Engine :=
  { e with config := { e.config with cache := { e.config.cache with enabled := false } } }

/-- The deadline of a call. -/
def deadline (e : Engine) (c : Call ι) : Deadline := ⟨e.config.timeout, c.spentAt⟩

/-- Serves one call. -/
def serve [DecidableEq ι] (e : Engine) (c : Call ι) (s : Service ι) : Reply × Service ι :=
  let (answer, m, cache) :=
    e.process c.expression (e.deadline c) c.now (s.memories c.session) s.cache
  (⟨answer, m⟩, ⟨Function.update s.memories c.session m, cache⟩)

/-- Serves calls in order. -/
def serveAll [DecidableEq ι] (e : Engine) : List (Call ι) → Service ι → List Reply × Service ι
  | [], s => ([], s)
  | c :: cs, s =>
    let (reply, s) := e.serve c s
    let (replies, s) := e.serveAll cs s
    (reply :: replies, s)

/-! ## Lookups -/

/-- The lookup of a call, if its input passes the screening. -/
def lookup? (e : Engine) (c : Call ι) (s : Service ι) : Option Lookup :=
  match Screening.check c.expression.text e.config.limits with
  | .ok input => some ⟨input, c.expression, s.memories c.session⟩
  | .error _ => none

/-- The lookups of a run. -/
def lookups [DecidableEq ι] (e : Engine) : List (Call ι) → Service ι → List Lookup
  | [], _ => []
  | c :: cs, s => (e.lookup? c s).toList ++ e.lookups cs (e.serve c s).2

/-- The key under which a lookup is made. -/
def keyOf (e : Engine) (l : Lookup) : Digest := e.key l.input l.expression l.memory

/-- The message of that key. -/
def messageOf (e : Engine) (l : Lookup) : List UInt8 :=
  e.keyMessage l.input l.expression l.memory

/-- In these lookups no two different byte strings have the same digest, and all of them are short
enough for their lengths to be written. -/
structure Faithful (e : Engine) (ls : List Lookup) : Prop where
  keys : ∀ l ∈ ls, ∀ l' ∈ ls, e.keyOf l = e.keyOf l' → e.messageOf l = e.messageOf l'
  fingerprints : ∀ l ∈ ls, ∀ l' ∈ ls, l.memory.fingerprint = l'.memory.fingerprint →
    l.memory.fingerprintBytes = l'.memory.fingerprintBytes
  short_messages : ∀ l ∈ ls, (e.messageOf l).length < UInt64.size
  short_fingerprints : ∀ l ∈ ls, l.memory.fingerprintBytes.length < UInt64.size

theorem Faithful.mono {e : Engine} {ls ls' : List Lookup} (h : e.Faithful ls')
    (hsub : ls ⊆ ls') : e.Faithful ls where
  keys l hl l' hl' := h.keys l (hsub hl) l' (hsub hl')
  fingerprints l hl l' hl' := h.fingerprints l (hsub hl) l' (hsub hl')
  short_messages l hl := h.short_messages l (hsub hl)
  short_fingerprints l hl := h.short_fingerprints l (hsub hl)

/-! ## What a call does -/

variable {e : Engine} {c : Call ι} {s : Service ι} {input : SafeInput} {cache : Option SpeechCache}

/-- A call that is refused changes nothing. -/
theorem serve_of_refused [DecidableEq ι] {v : Violation}
    (hcheck : Screening.check c.expression.text e.config.limits = .error v) :
    e.serve c s = (⟨.error (.refused v), s.memories c.session⟩, s) := by
  simp only [serve, process, hcheck, Function.update_eq_self]

/-- A call that finds speech in the cache commits the effects of that speech. -/
theorem serve_of_hit [DecidableEq ι] {speech : Speech}
    (hcheck : Screening.check c.expression.text e.config.limits = .ok input)
    (hlookup : lookup s.cache (e.key input c.expression (s.memories c.session)) c.now =
      (some speech, cache)) :
    e.serve c s = (speech.reply (s.memories c.session) true,
      ⟨Function.update s.memories c.session
        (speech.reply (s.memories c.session) true).memory, cache⟩) := by
  simp only [serve, process, hcheck, hlookup, Speech.reply]

/-- A call that finds nothing and cannot be computed changes the cache by the lookup only. -/
theorem serve_of_failure [DecidableEq ι] {error : EngineError}
    (hcheck : Screening.check c.expression.text e.config.limits = .ok input)
    (hlookup : lookup s.cache (e.key input c.expression (s.memories c.session)) c.now =
      (none, cache))
    (hcompute : e.compute input c.expression (s.memories c.session) (e.deadline c) =
      .error error) :
    e.serve c s = (⟨.error error, s.memories c.session⟩, ⟨s.memories, cache⟩) := by
  simp only [serve, process, hcheck, hlookup, hcompute, Function.update_eq_self]

/-- A call that finds nothing commits the effects of the computed speech and puts it in. -/
theorem serve_of_computed [DecidableEq ι] {speech : Speech}
    (hcheck : Screening.check c.expression.text e.config.limits = .ok input)
    (hlookup : lookup s.cache (e.key input c.expression (s.memories c.session)) c.now =
      (none, cache))
    (hcompute : e.compute input c.expression (s.memories c.session) (e.deadline c) =
      .ok speech) :
    e.serve c s = (speech.reply (s.memories c.session) false,
      ⟨Function.update s.memories c.session (speech.reply (s.memories c.session) false).memory,
        cache.map fun d => d.insert (e.key input c.expression (s.memories c.session)) speech
          c.now⟩) := by
  simp only [serve, process, hcheck, hlookup, hcompute, Speech.reply]

/-- A call whose speech can be computed succeeds, whether it is computed or found. -/
theorem answer_of_compute [DecidableEq ι] {speech : Speech}
    (hcheck : Screening.check c.expression.text e.config.limits = .ok input)
    (hcompute : e.compute input c.expression (s.memories c.session) (e.deadline c) =
      .ok speech) :
    ∃ o, (e.serve c s).1.answer = .ok o := by
  rcases hlookup : lookup s.cache (e.key input c.expression (s.memories c.session)) c.now with
    ⟨_ | found, cache⟩
  · rw [serve_of_computed hcheck hlookup hcompute]
    exact ⟨_, rfl⟩
  · rw [serve_of_hit hcheck hlookup]
    exact ⟨_, rfl⟩

/-- What is read is spoken as long as the budget of time lasts. -/
theorem compute_of_parse {e : Engine} {l : Lookup} {d : Deadline} {parsed : Parsed}
    (hlasts : ∀ moment, d.spentAt moment = none)
    (h : parse ⟨l.input.maxDepth, d⟩ l.input.text = .ok parsed) :
    ∃ s, e.compute l.input l.expression l.memory d = .ok s := by
  simp only [compute, h, hlasts]
  split
  · next elapsed hending => exact absurd hending (Rewriting.ending_of_loop hlasts elapsed)
  · exact ⟨_, rfl⟩

/-- A call leaves the memories of other sessions alone. -/
theorem memories_serve_of_ne [DecidableEq ι] {i : ι} (h : i ≠ c.session) :
    (e.serve c s).2.memories i = s.memories i :=
  Function.update_of_ne h _ _

theorem lookup?_of_ok (hcheck : Screening.check c.expression.text e.config.limits = .ok input) :
    e.lookup? c s = some ⟨input, c.expression, s.memories c.session⟩ := by
  simp only [lookup?, hcheck]

theorem lookup?_of_refused {v : Violation}
    (hcheck : Screening.check c.expression.text e.config.limits = .error v) :
    e.lookup? c s = none := by
  simp only [lookup?, hcheck]

/-! ## What is in a cache -/

/-- Something holds of all speech in a cache and its key. -/
def EveryEntry (P : Digest → Speech → Prop) (cache : Option SpeechCache) : Prop :=
  ∀ c ∈ cache, ∀ k entry, (k, entry) ∈ c.entries → P k entry.value

theorem everyEntry_freshCache (P : Digest → Speech → Prop) (e : Engine) :
    EveryEntry P e.freshCache := by
  intro c hc k entry hmem
  unfold freshCache at hc
  split at hc
  · obtain rfl := Option.some.inj hc
    cases hmem
  · cases hc

namespace EveryEntry

variable {P Q : Digest → Speech → Prop} {cache : Option SpeechCache} {k : Digest} {speech : Speech}

theorem imp (h : EveryEntry P cache) (himp : ∀ k s, P k s → Q k s) : EveryEntry Q cache :=
  fun c hc k entry hmem => himp k entry.value (h c hc k entry hmem)

theorem lookup (h : EveryEntry P cache) (k : Digest) (now : UInt64) :
    EveryEntry P (Engine.lookup cache k now).2 := by
  cases cache with
  | none => exact h
  | some c₀ =>
    intro c hc j entry hmem
    obtain rfl := Option.some.inj hc
    exact h c₀ rfl j entry (Cache.mem_of_mem_get hmem)

/-- What is found is in the cache. -/
theorem found (h : EveryEntry P cache) {now : UInt64}
    (hfound : (Engine.lookup cache k now).1 = some speech) : P k speech := by
  cases cache with
  | none => cases hfound
  | some c =>
    obtain ⟨entry, hmem, rfl⟩ := Cache.mem_of_get hfound
    exact h c rfl k entry hmem

/-- An insertion may change what holds of its own key. -/
theorem insert (h : EveryEntry P cache) (hspeech : Q k speech)
    (hothers : ∀ j s, j ≠ k → P j s → Q j s) (now : UInt64) :
    EveryEntry Q (cache.map fun c => c.insert k speech now) := by
  intro c hc j entry hmem
  obtain ⟨c₀, hc₀, rfl⟩ := Option.map_eq_some_iff.mp hc
  rcases Cache.mem_of_mem_insert hmem with ⟨rfl, rfl⟩ | ⟨hne, hmem⟩
  · exact hspeech
  · exact hothers j entry.value hne (h c₀ hc₀ j entry hmem)

/-- A call adds no entry but the speech that it computes. -/
theorem serve [DecidableEq ι] {s : Service ι} (h : EveryEntry P s.cache) {c : Call ι}
    (hcomputed : ∀ input speech, Screening.check c.expression.text e.config.limits = .ok input →
      e.compute input c.expression (s.memories c.session) (e.deadline c) = .ok speech →
      P (e.key input c.expression (s.memories c.session)) speech) :
    EveryEntry P (e.serve c s).2.cache := by
  cases hcheck : Screening.check c.expression.text e.config.limits with
  | error v =>
    rw [serve_of_refused hcheck]
    exact h
  | ok input =>
    have hlooked := h.lookup (e.key input c.expression (s.memories c.session)) c.now
    cases hlookup : Engine.lookup s.cache
      (e.key input c.expression (s.memories c.session)) c.now with
    | mk found cache =>
    rw [hlookup] at hlooked
    cases found with
    | some speech =>
      rw [serve_of_hit hcheck hlookup]
      exact hlooked
    | none =>
      cases hcompute : e.compute input c.expression (s.memories c.session) (e.deadline c) with
      | error error =>
        rw [serve_of_failure hcheck hlookup hcompute]
        exact hlooked
      | ok speech =>
        rw [serve_of_computed hcheck hlookup hcompute]
        exact hlooked.insert (hcomputed input speech hcheck hcompute) (fun _ _ _ h => h) c.now

end EveryEntry

end Engine

end SpokenMath
