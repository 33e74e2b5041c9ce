import SpokenMath.Proofs.Engine.Service
import SpokenMath.Rulebook.Standard

/-!
# A failed call leaves no trace

A call can fail when its input is refused, when its tree is too deep, or when its time is up, which
may come out at any moment at which it looks at the clock. All of this happens before anything is
written: a call that fails has done no more than ask the cache, and has found nothing there
(`serve_of_error`).

**Theorem (`serveAll_successes`).** Leave the failed calls out of a run. The calls that are left get
the replies that they got, and the memories and the entries of the cache are the same in the end.

The lookup of a failed call is still seen by the counters of the cache, and it would drop the entry
it finds if that had expired. So services are compared without their counters, and nothing may
expire during the run (`StaysFresh`).
-/

namespace SpokenMath

/-- The service with the counters of its cache at zero. -/
def Service.uncounted {ι : Type} (s : Service ι) : Service ι :=
  { s with cache := s.cache.map Cache.uncounted }

namespace Engine

variable {ι : Type} {e : Engine} {c : Call ι} {s s' : Service ι}

/-- Nothing in the cache has expired. -/
def Fresh (cache : Option SpeechCache) (now : UInt64) : Prop :=
  ∀ c ∈ cache, ∀ k entry, (k, entry) ∈ c.entries → entry.isExpired now = false

/-- Whenever a call of the run asks the cache, nothing in it has expired. -/
def StaysFresh [DecidableEq ι] (e : Engine) : List (Call ι) → Service ι → Prop
  | [], _ => True
  | c :: cs, s => Fresh s.cache c.now ∧ e.StaysFresh cs (e.serve c s).2

/-- The calls of a run that succeed. -/
def successes [DecidableEq ι] (e : Engine) : List (Call ι) → Service ι → List (Call ι)
  | [], _ => []
  | c :: cs, s =>
    let (reply, s) := e.serve c s
    if reply.answer.isOk then c :: e.successes cs s else e.successes cs s

/-! ## Counters -/

theorem lookup_uncounted (cache : Option SpeechCache) (k : Digest) (now : UInt64) :
    (lookup (cache.map Cache.uncounted) k now).1 = (lookup cache k now).1 ∧
      (lookup (cache.map Cache.uncounted) k now).2.map Cache.uncounted =
        (lookup cache k now).2.map Cache.uncounted := by
  cases cache with
  | none => exact ⟨rfl, rfl⟩
  | some c =>
    obtain ⟨hfound, hcache⟩ := c.get_uncounted k now
    exact ⟨hfound, congrArg some hcache⟩

theorem insert_congr {cache cache' : Option SpeechCache}
    (h : cache'.map Cache.uncounted = cache.map Cache.uncounted) (k : Digest) (speech : Speech)
    (now : UInt64) :
    (cache'.map fun c => c.insert k speech now).map Cache.uncounted =
      (cache.map fun c => c.insert k speech now).map Cache.uncounted := by
  have hinsert : ∀ cache : Option SpeechCache,
      (cache.map fun c => c.insert k speech now).map Cache.uncounted =
        ((cache.map Cache.uncounted).map fun c => c.insert k speech now).map Cache.uncounted := by
    intro cache
    cases cache with
    | none => rfl
    | some c => exact congrArg some (c.insert_uncounted k speech now).symm
  rw [hinsert, hinsert cache, h]

theorem uncounted_uncounted (s : Service ι) : s.uncounted.uncounted = s.uncounted := by
  cases hcache : s.cache <;> simp [Service.uncounted, hcache, Cache.uncounted]

/-- **Nobody sees the counters.** -/
theorem serve_uncounted [DecidableEq ι] (e : Engine) (c : Call ι) (s : Service ι) :
    (e.serve c s.uncounted).1 = (e.serve c s).1 ∧
      (e.serve c s.uncounted).2.uncounted = (e.serve c s).2.uncounted := by
  cases hcheck : Screening.check c.expression.text e.config.limits with
  | error v =>
    rw [serve_of_refused hcheck, serve_of_refused hcheck]
    exact ⟨rfl, uncounted_uncounted s⟩
  | ok input =>
    let k := e.key input c.expression (s.memories c.session)
    obtain ⟨hfound, hcache⟩ := lookup_uncounted s.cache k c.now
    cases hlookup : Engine.lookup s.cache k c.now with
    | mk found cache =>
    cases hlookup' : Engine.lookup (s.cache.map Cache.uncounted) k c.now with
    | mk found' cache' =>
    rw [hlookup, hlookup'] at hfound hcache
    simp only at hfound hcache
    subst hfound
    cases found' with
    | some speech =>
      rw [serve_of_hit hcheck hlookup, serve_of_hit (s := s.uncounted) hcheck hlookup']
      exact ⟨rfl, congrArg (Service.mk _) hcache⟩
    | none =>
      cases hcompute : e.compute input c.expression (s.memories c.session) (e.deadline c) with
      | error error =>
        rw [serve_of_failure hcheck hlookup hcompute,
          serve_of_failure (s := s.uncounted) hcheck hlookup' hcompute]
        exact ⟨rfl, congrArg (Service.mk _) hcache⟩
      | ok speech =>
        rw [serve_of_computed hcheck hlookup hcompute,
          serve_of_computed (s := s.uncounted) hcheck hlookup' hcompute]
        exact ⟨rfl, congrArg (Service.mk _) (insert_congr hcache _ _ _)⟩

theorem serve_congr [DecidableEq ι] (h : s.uncounted = s'.uncounted) (c : Call ι) :
    (e.serve c s).1 = (e.serve c s').1 ∧
      (e.serve c s).2.uncounted = (e.serve c s').2.uncounted := by
  obtain ⟨hreply, hservice⟩ := serve_uncounted e c s
  obtain ⟨hreply', hservice'⟩ := serve_uncounted e c s'
  rw [h] at hreply hservice
  exact ⟨hreply.symm.trans hreply', hservice.symm.trans hservice'⟩

/-! ## Failed calls -/

/-- **A call that fails changes nothing but the counters.** -/
theorem serve_of_error [DecidableEq ι] (hfresh : Fresh s.cache c.now)
    (herror : (e.serve c s).1.answer.isOk = false) :
    (e.serve c s).2.uncounted = s.uncounted := by
  cases hcheck : Screening.check c.expression.text e.config.limits with
  | error v => rw [serve_of_refused hcheck]
  | ok input =>
    let k := e.key input c.expression (s.memories c.session)
    cases hlookup : Engine.lookup s.cache k c.now with
    | mk found cache =>
    cases found with
    | some speech =>
      rw [serve_of_hit hcheck hlookup] at herror
      cases herror
    | none =>
      cases hcompute : e.compute input c.expression (s.memories c.session) (e.deadline c) with
      | ok speech =>
        rw [serve_of_computed hcheck hlookup hcompute] at herror
        cases herror
      | error error =>
        rw [serve_of_failure hcheck hlookup hcompute]
        refine congrArg (Service.mk _) ?_
        cases hcache : s.cache with
        | none =>
          rw [hcache] at hlookup
          cases hlookup
          rfl
        | some c₀ =>
          rw [hcache] at hlookup
          obtain ⟨hfound, rfl⟩ := Prod.ext_iff.mp hlookup
          exact congrArg some (Cache.get_uncounted_of_fresh (hfresh c₀ hcache) hfound)

theorem Fresh.lookup {cache : Option SpeechCache} {now : UInt64} (h : Fresh cache now) (k : Digest)
    (time : UInt64) : Fresh (lookup cache k time).2 now := by
  cases cache with
  | none => exact h
  | some c₀ =>
    intro c hc j entry hmem
    obtain rfl := Option.some.inj hc
    exact h c₀ rfl j entry (Cache.mem_of_mem_get hmem)

theorem ttl_of_mem_lookup {cache : Option SpeechCache} {k : Digest} {now : UInt64}
    {c' : SpeechCache} (h : c' ∈ (lookup cache k now).2) : ∃ c₀ ∈ cache, c'.ttl = c₀.ttl := by
  cases cache with
  | none => cases h
  | some c₀ =>
    obtain rfl := Option.some.inj h
    exact ⟨c₀, rfl, Cache.ttl_get⟩

/-- A call puts nothing in but its own speech: what expires after it had been there, or has been put
in at the time of the call. -/
theorem Fresh.serve [DecidableEq ι] {now : UInt64} (h : Fresh s.cache now)
    (hnew : ∀ c₀ ∈ s.cache, ∀ v : Speech,
      Entry.isExpired ⟨v, c.now, .ofNat c₀.ttl⟩ now = false) :
    Fresh (e.serve c s).2.cache now := by
  cases hcheck : Screening.check c.expression.text e.config.limits with
  | error v =>
    rw [serve_of_refused hcheck]
    exact h
  | ok input =>
    let k := e.key input c.expression (s.memories c.session)
    have hlooked := h.lookup k c.now
    cases hlookup : Engine.lookup s.cache k c.now with
    | mk found cache =>
    rw [hlookup] at hlooked
    cases found with
    | some speech =>
      rw [serve_of_hit hcheck hlookup]
      exact hlooked
    | none =>
      cases hcompute : e.compute input c.expression (s.memories c.session) (e.deadline c) with
      | error error =>
        rw [serve_of_failure hcheck hlookup hcompute]
        exact hlooked
      | ok speech =>
        rw [serve_of_computed hcheck hlookup hcompute]
        intro c₁ hc₁ j entry hmem
        obtain ⟨c₂, rfl, rfl⟩ := Option.map_eq_some_iff.mp hc₁
        rcases Cache.mem_of_mem_insert hmem with ⟨-, rfl⟩ | ⟨-, hmem⟩
        · have hmem₂ : c₂ ∈ (Engine.lookup s.cache k c.now).2 := by rw [hlookup]; rfl
          obtain ⟨c₀, hc₀, httl⟩ := ttl_of_mem_lookup hmem₂
          rw [httl]
          exact hnew c₀ hc₀ speech
        · exact hlooked c₂ rfl j entry hmem

/-! ## Every run -/

/-- Two services that differ in counters only serve a run and its successful calls alike. -/
theorem serveAll_successes_congr [DecidableEq ι] {calls : List (Call ι)}
    (h : s.uncounted = s'.uncounted) (hfresh : e.StaysFresh calls s) :
    (e.serveAll (e.successes calls s) s').1 =
        (e.serveAll calls s).1.filter (fun r => r.answer.isOk) ∧
      (e.serveAll (e.successes calls s) s').2.uncounted = (e.serveAll calls s).2.uncounted := by
  induction calls generalizing s s' with
  | nil => exact ⟨rfl, h.symm⟩
  | cons c cs ih =>
    obtain ⟨hnow, hlater⟩ := hfresh
    cases hok : (e.serve c s).1.answer.isOk with
    | true =>
      obtain ⟨hreply, hservice⟩ := serve_congr h c
      obtain ⟨hreplies, hend⟩ := ih hservice hlater
      simp only [successes, hok, ↓reduceIte, serveAll, List.filter_cons]
      exact ⟨by rw [hreply, hreplies], hend⟩
    | false =>
      obtain ⟨hreplies, hend⟩ := ih ((serve_of_error hnow hok).trans h) hlater
      simp only [successes, hok, Bool.false_eq_true, ↓reduceIte, serveAll, List.filter_cons]
      exact ⟨hreplies, hend⟩

/-- **A failed call leaves no trace.** Run only the calls of a run that succeed, on the same
memories and the same cache: they get the replies that they got among the others, with the mark of
speech from the cache, and in the end all memories are the same, and so are the entries of the cache
in the order of their last use. Nothing in the cache expires during the run. -/
theorem serveAll_successes [DecidableEq ι] (e : Engine) (calls : List (Call ι)) (s : Service ι)
    (hfresh : e.StaysFresh calls s) :
    (e.serveAll (e.successes calls s) s).1 =
        (e.serveAll calls s).1.filter (fun r => r.answer.isOk) ∧
      (e.serveAll (e.successes calls s) s).2.memories = (e.serveAll calls s).2.memories ∧
      (e.serveAll (e.successes calls s) s).2.cache.map Cache.entries =
        (e.serveAll calls s).2.cache.map Cache.entries := by
  obtain ⟨hreplies, hend⟩ := serveAll_successes_congr rfl hfresh
  have hmemories := congrArg Service.memories hend
  refine ⟨hreplies, hmemories, ?_⟩
  have hcache := congrArg (fun s : Service ι => s.cache.map Cache.entries) hend
  simpa [Service.uncounted, Function.comp_def, Cache.uncounted] using hcache

/-- Two sessions read the same expression, and between them one sends nothing. -/
theorem serveAll_successes_two_sessions :
    let e : Engine := ⟨{}, .standard⟩
    let x : Expression := { text := "let x = 5".toList }
    let calls : List (Call Bool) := [⟨false, x, fun _ => none, 0⟩,
      ⟨false, { text := [] }, fun _ => none, 5⟩, ⟨true, x, fun _ => none, 7⟩]
    let s := e.start fun _ => {}
    e.StaysFresh calls s ∧
      (e.serveAll (e.successes calls s) s).1 =
        (e.serveAll calls s).1.filter (fun r => r.answer.isOk) ∧
      (e.serveAll (e.successes calls s) s).2.memories = (e.serveAll calls s).2.memories ∧
      (e.serveAll (e.successes calls s) s).2.cache.map Cache.entries =
        (e.serveAll calls s).2.cache.map Cache.entries := by
  intro e x calls s
  have hfresh : e.StaysFresh calls s := by
    have hempty : ∀ now, Fresh s.cache now := fun now c hc k entry hmem => by
      obtain rfl := Option.some.inj hc
      cases hmem
    have hread : ∀ now : UInt64, now < 3600000 →
        Fresh (e.serve ⟨false, x, fun _ => none, 0⟩ s).2.cache now := by
      intro now hnow
      refine (hempty now).serve fun c hc v => ?_
      obtain rfl := Option.some.inj hc
      have httl : UInt64.ofNat (1000 * 3600) = 3600000 := rfl
      simp [Entry.isExpired, Cache.new, e, httl, hnow]
    have hrefused := serve_of_refused (e := e) (v := .empty)
      (c := (⟨false, { text := [] }, fun _ => none, 5⟩ : Call Bool))
      (s := (e.serve ⟨false, x, fun _ => none, 0⟩ s).2) rfl
    refine ⟨hempty 0, hread 5 (by decide), ?_, trivial⟩
    rw [hrefused]
    exact hread 7 (by decide)
  exact ⟨hfresh, serveAll_successes e calls s hfresh⟩

end Engine

end SpokenMath
