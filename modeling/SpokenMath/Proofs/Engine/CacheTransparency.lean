import SpokenMath.Proofs.Engine.Service
import SpokenMath.Rulebook.Standard

/-!
# The cache cannot be seen

A service with a cache and one without, of the same engine, serve the same calls. They run in
lockstep: the memories stay the same, and every entry of the cache is the speech of a lookup of the
run, under the key of that lookup (`Sound`). A hit therefore finds what the other service computes,
because calls with one key compute the same wherever digests are faithful.

**Theorem (`replies_eq_uncached`).** The replies of both services agree, but for the mark of speech
from the cache, and so do their memories.
-/

namespace SpokenMath.Engine

variable {ι : Type} {e : Engine}

/-! ## Sound caches -/

/-- The input of a lookup has passed the screening. -/
def Screened (e : Engine) (l : Lookup) : Prop :=
  ∃ raw, Screening.check raw e.config.limits = .ok l.input

/-- What a lookup stands for when time does not matter. -/
def speechOf (e : Engine) (l : Lookup) : Except EngineError Speech :=
  e.compute l.input l.expression l.memory (.never e.config.timeout)

/-- Every entry is the speech of an earlier lookup, under the key of that lookup. -/
def Sound (e : Engine) (past : List Lookup) : Option SpeechCache → Prop :=
  EveryEntry fun k s => ∃ l ∈ past, e.Screened l ∧ e.keyOf l = k ∧ e.speechOf l = .ok s

theorem Sound.mono {past past' : List Lookup} {cache : Option SpeechCache}
    (h : e.Sound past cache) (hsub : past ⊆ past') : e.Sound past' cache :=
  h.imp fun _ _ ⟨l, hl, hrest⟩ => ⟨l, hsub hl, hrest⟩

/-- Lookups with one key stand for the same. -/
theorem speechOf_congr {ls : List Lookup} (hf : e.Faithful ls) {l l' : Lookup} (hl : l ∈ ls)
    (hl' : l' ∈ ls) (hscreened : e.Screened l) (hscreened' : e.Screened l')
    (hkey : e.keyOf l = e.keyOf l') : e.speechOf l = e.speechOf l' := by
  obtain ⟨raw, hraw⟩ := hscreened
  obtain ⟨raw', hraw'⟩ := hscreened'
  exact compute_of_keyMessage hraw hraw' (hf.short_messages l hl) (hf.short_fingerprints l hl)
    (hf.keys l hl l' hl' hkey) (hf.fingerprints l hl l' hl') _

/-- **A hit finds what would be computed.** -/
theorem Sound.hit {past : List Lookup} {cache : Option SpeechCache} (h : e.Sound past cache)
    (hf : e.Faithful past) {l : Lookup} (hl : l ∈ past) (hscreened : e.Screened l)
    {now : UInt64} {s : Speech} (hs : (Engine.lookup cache (e.keyOf l) now).1 = some s) :
    e.speechOf l = .ok s := by
  obtain ⟨l', hl', hscreened', hkey, hspeech⟩ := h.found hs
  rw [speechOf_congr hf hl hl' hscreened hscreened' hkey.symm, hspeech]

/-! ## One call -/

theorem deadline_eq {c : Call ι} (h : c.Timely) : e.deadline c = .never e.config.timeout := by
  rw [deadline, Deadline.never]
  congr
  funext moment
  exact h moment

/-- A service and the same one without a cache, at the same point of the same calls. -/
structure Sim (e : Engine) (past : List Lookup) (s s₀ : Service ι) : Prop where
  memories : s.memories = s₀.memories
  cache : s₀.cache = none
  sound : e.Sound past s.cache

theorem sim_start (e : Engine) (memories : ι → Memory) :
    e.Sim [] (e.start memories) (e.uncached.start memories) :=
  ⟨rfl, rfl, everyEntry_freshCache _ e⟩

/-- A call keeps the two services together, and its replies agree. -/
theorem Sim.serve [DecidableEq ι] {past : List Lookup} {s s₀ : Service ι} (h : e.Sim past s s₀)
    {c : Call ι} (hc : c.Timely) (hf : e.Faithful (past ++ (e.lookup? c s).toList)) :
    (e.serve c s).1.anySource = (e.uncached.serve c s₀).1.anySource ∧
      e.Sim (past ++ (e.lookup? c s).toList) (e.serve c s).2 (e.uncached.serve c s₀).2 := by
  obtain ⟨memories, cache₀⟩ := s₀
  obtain ⟨rfl, rfl, hsound⟩ := h
  cases hcheck : Screening.check c.expression.text e.config.limits with
  | error v =>
    rw [serve_of_refused hcheck, serve_of_refused (e := e.uncached) hcheck,
      lookup?_of_refused hcheck]
    exact ⟨rfl, rfl, rfl, hsound.mono (List.subset_append_left past _)⟩
  | ok input =>
    rw [lookup?_of_ok hcheck, Option.toList_some] at hf ⊢
    let l : Lookup := ⟨input, c.expression, s.memories c.session⟩
    have hmem : l ∈ past ++ [l] := List.mem_append_right past List.mem_cons_self
    have hscreened : e.Screened l := ⟨c.expression.text, hcheck⟩
    have hsound' := hsound.mono (List.subset_append_left past [l])
    have hlooked : e.Sound (past ++ [l]) _ := EveryEntry.lookup hsound' (e.keyOf l) c.now
    cases hlookup : Engine.lookup s.cache (e.keyOf l) c.now with
    | mk found cache =>
    rw [hlookup] at hlooked
    cases hspeech : e.speechOf l with
    | error error =>
      have hcompute : e.compute input c.expression (s.memories c.session) (e.deadline c) =
          .error error := by rw [deadline_eq hc]; exact hspeech
      cases found with
      | some speech =>
        have hhit := hsound'.hit hf hmem hscreened (congrArg Prod.fst hlookup)
        rw [hspeech] at hhit
        cases hhit
      | none =>
        rw [serve_of_failure hcheck hlookup hcompute,
          serve_of_failure (e := e.uncached) (s := ⟨s.memories, none⟩) hcheck rfl hcompute]
        exact ⟨rfl, rfl, rfl, hlooked⟩
    | ok speech =>
      have hcompute : e.compute input c.expression (s.memories c.session) (e.deadline c) =
          .ok speech := by rw [deadline_eq hc]; exact hspeech
      rw [serve_of_computed (e := e.uncached) (s := ⟨s.memories, none⟩) hcheck rfl hcompute]
      cases found with
      | some speech' =>
        have hhit := hsound'.hit hf hmem hscreened (congrArg Prod.fst hlookup)
        rw [hspeech] at hhit
        obtain rfl := Except.ok.inj hhit
        rw [serve_of_hit hcheck hlookup]
        exact ⟨speech.anySource_reply _ _ _, rfl, rfl, hlooked⟩
      | none =>
        rw [serve_of_computed hcheck hlookup hcompute]
        refine ⟨rfl, rfl, rfl, hlooked.insert ?_ (fun _ _ _ h => h) c.now⟩
        exact ⟨l, hmem, hscreened, rfl, hspeech⟩

/-! ## Every run -/

theorem Sim.serveAll [DecidableEq ι] {past : List Lookup} {s s₀ : Service ι} (h : e.Sim past s s₀)
    {calls : List (Call ι)} (htimely : ∀ c ∈ calls, c.Timely)
    (hf : e.Faithful (past ++ e.lookups calls s)) :
    (e.serveAll calls s).1.map Reply.anySource =
        (e.uncached.serveAll calls s₀).1.map Reply.anySource ∧
      (e.serveAll calls s).2.memories = (e.uncached.serveAll calls s₀).2.memories := by
  induction calls generalizing past s s₀ with
  | nil => exact ⟨rfl, h.memories⟩
  | cons c calls ih =>
    rw [lookups, ← List.append_assoc] at hf
    obtain ⟨hreply, hsim⟩ := h.serve (htimely c List.mem_cons_self)
      (hf.mono (List.subset_append_left _ _))
    obtain ⟨hreplies, hmemories⟩ :=
      ih hsim (fun d hd => htimely d (List.mem_cons_of_mem c hd)) hf
    simp only [Engine.serveAll, List.map_cons]
    exact ⟨by rw [hreply, hreplies], hmemories⟩

/-- **The cache cannot be seen.** From the same memories, an engine and the same engine with
caching disabled give the same replies to the same calls, but for the mark of speech from the cache,
and leave the same memories: whatever room there is in the cache, and whatever expires in it. -/
theorem replies_eq_uncached [DecidableEq ι] (e : Engine) (memories : ι → Memory)
    (calls : List (Call ι)) (htimely : ∀ c ∈ calls, c.Timely)
    (hf : e.Faithful (e.lookups calls (e.start memories))) :
    (e.serveAll calls (e.start memories)).1.map Reply.anySource =
        (e.uncached.serveAll calls (e.uncached.start memories)).1.map Reply.anySource ∧
      (e.serveAll calls (e.start memories)).2.memories =
        (e.uncached.serveAll calls (e.uncached.start memories)).2.memories :=
  Sim.serveAll (sim_start e memories) htimely hf

/-- Two sessions that know nothing define the same symbol. -/
theorem replies_eq_uncached_two_sessions :
    let e : Engine := ⟨{}, .standard⟩
    let x : Expression := { text := "let x = 5".toList }
    let calls : List (Call Bool) := [⟨false, x, fun _ => none, 0⟩, ⟨true, x, fun _ => none, 7⟩]
    (e.serveAll calls (e.start fun _ => {})).1.map Reply.anySource =
        (e.uncached.serveAll calls (e.uncached.start fun _ => {})).1.map Reply.anySource ∧
      (e.serveAll calls (e.start fun _ => {})).2.memories =
        (e.uncached.serveAll calls (e.uncached.start fun _ => {})).2.memories := by
  intro e x calls
  have hcheck : Screening.check x.text e.config.limits =
      .ok ⟨"let x = 5".toList, [], 9, 48⟩ :=
    Screening.check_eq_ok_iff.mpr (by decide +kernel)
  refine replies_eq_uncached e (fun _ => {}) calls ?_ ?_
  · intro c hc
    simp only [calls, List.mem_cons, List.not_mem_nil, or_false] at hc
    rcases hc with rfl | rfl <;> exact fun _ => rfl
  · -- The first call is none of the business of the second session, so both look up the same.
    let l : Lookup := ⟨⟨"let x = 5".toList, [], 9, 48⟩, x, {}⟩
    have hother := memories_serve_of_ne (e := e) (c := ⟨false, x, fun _ => none, 0⟩)
      (s := e.start fun _ => {}) (show true ≠ false by decide)
    have hls : e.lookups calls (e.start fun _ => {}) = [l, l] := by
      simp only [calls, lookups]
      rw [lookup?_of_ok hcheck, lookup?_of_ok hcheck, hother]
      rfl
    have hone : ∀ l' ∈ e.lookups calls (e.start fun _ => {}), l' = l := by
      rw [hls]
      simp
    constructor
    · intro l₁ h₁ l₂ h₂ _
      rw [hone l₁ h₁, hone l₂ h₂]
    · intro l₁ h₁ l₂ h₂ _
      rw [hone l₁ h₁, hone l₂ h₂]
    · intro l₁ h₁
      rw [hone l₁ h₁]
      simp only [messageOf, keyMessage, keyParts, KeyPart.encode, List.flatMap_cons,
        List.flatMap_nil, List.length_append, length_lengthPrefixed, length_littleEndian64,
        length_bigEndian64]
      decide +kernel
    · intro l₁ h₁
      rw [hone l₁ h₁]
      decide

end SpokenMath.Engine
