import SpokenMath.Proofs.Engine.Knowledge
import SpokenMath.Proofs.Rulebook.Revision

/-!
# Speech of other rules is never served

The revision of its rules is part of the key under which an engine looks speech up. What it finds
was computed for an earlier lookup with the same key (`Computed`), so by an engine whose rules have
the same revision. Wherever digests tell different messages apart, these rules have the same
imprints: an edit of a name, a domain, a priority, a matcher or a template is enough for the speech
of the rules before it never to be served again, no matter whether the cache is shared or was kept
in a file meanwhile.

**Theorem (`revision_tells_rules_apart`).** The message of a revision is an unambiguous encoding of
the imprints, and speech from a cache was computed with rules of the same imprints.
-/

namespace SpokenMath.Engine

variable {ι : Type} {past ls : List (Engine × Lookup)} {l l' : Engine × Lookup}

/-- For the engines of these lookups, different messages have different revisions, and no rule has
NUL in its name or in the source of its matcher. -/
structure DistinctRevisions (ls : List (Engine × Lookup)) : Prop where
  messages : ∀ l ∈ ls, ∀ l' ∈ ls, l.1.book.revision = l'.1.book.revision →
    revisionBytes l.1.book.rules = revisionBytes l'.1.book.rules
  nulFree : ∀ l ∈ ls, ∀ r ∈ l.1.book.rules, r.imprint.NulFree

/-- Engines with the same key have rules with the same imprints. -/
theorem imprints_eq_of_key (hkeys : DistinctKeys ls) (hrevisions : DistinctRevisions ls)
    (hl : l ∈ ls) (hl' : l' ∈ ls) (h : l.1.keyOf l.2 = l'.1.keyOf l'.2) :
    l.1.book.rules.map Rule.imprint = l'.1.book.rules.map Rule.imprint := by
  have hmessage := hkeys.keys l hl l' hl' h
  obtain ⟨-, -, -, -, hrevision⟩ := keyMessage_inj (hkeys.short l hl) hmessage
  have hbytes := hrevisions.messages l hl l' hl' hrevision
  exact (revisionBytes_eq_iff (hrevisions.nulFree l hl) (hrevisions.nulFree l' hl')).mp hbytes

/-- A call that says that its speech is from the cache has found it there. -/
theorem found_of_cacheHit [DecidableEq ι] {e : Engine} {c : Call ι} {s : Service ι} {o : Outcome}
    (h : (e.serve c s).1.answer = .ok o) (hhit : o.cacheHit = true) :
    ∃ l speech, e.lookup? c s = some l ∧ (lookup s.cache (e.keyOf l) c.now).1 = some speech ∧
      (e.serve c s).1 = speech.reply (s.memories c.session) true := by
  cases hcheck : Screening.check c.expression.text e.config.limits with
  | error v =>
    rw [serve_of_refused hcheck] at h
    cases h
  | ok input =>
    rcases hlookup : lookup s.cache (e.key input c.expression (s.memories c.session)) c.now with
      ⟨_ | speech, cache⟩
    · cases hcompute : e.compute input c.expression (s.memories c.session) (e.deadline c) with
      | error error =>
        rw [serve_of_failure hcheck hlookup hcompute] at h
        cases h
      | ok speech =>
        rw [serve_of_computed hcheck hlookup hcompute] at h
        obtain rfl := Except.ok.inj h
        cases hhit
    · refine ⟨_, speech, lookup?_of_ok hcheck, congrArg Prod.fst hlookup, ?_⟩
      rw [serve_of_hit hcheck hlookup]

/-- What one call finds was computed with rules of the same imprints. -/
theorem Computed.imprints_of_hit [DecidableEq ι] {s : Service ι} (h : Computed past s.cache)
    {r : SharedCall ι} (hkeys : DistinctKeys (past ++ (Step.call r).lookups s))
    (hrevisions : DistinctRevisions (past ++ (Step.call r).lookups s)) {o : Outcome}
    (hanswer : (r.engine.serve r.toCall s).1.answer = .ok o) (hhit : o.cacheHit = true) :
    ∃ l ∈ past, l.1.book.rules.map Rule.imprint = r.engine.book.rules.map Rule.imprint ∧
      ∃ d speech, l.1.compute l.2.input l.2.expression l.2.memory d = .ok speech ∧
        (r.engine.serve r.toCall s).1 = speech.reply (s.memories r.session) true := by
  obtain ⟨l, speech, hl, hfound, hreply⟩ := found_of_cacheHit hanswer hhit
  obtain ⟨l', hl', -, hkey, d, hcompute⟩ := EveryEntry.found h hfound
  have hmem : (r.engine, l) ∈ past ++ (Step.call r).lookups s := by
    rw [Step.lookups, hl]
    exact List.mem_append_right past List.mem_cons_self
  have himprints := imprints_eq_of_key hkeys hrevisions (List.mem_append_left _ hl') hmem hkey
  exact ⟨l', hl', himprints, d, speech, hcompute, hreply⟩

/-- **The revision tells rules apart.** Two lists of rules without NUL in their names and sources
have the same message exactly if their rules agree, one by one, in name, domain, priority, source
and template. And whatever speech there was in a cache at first and however engines with any rules
have used it since, a call that is answered from it is answered with speech that an engine computed
whose rules agree with its own in all of these. -/
theorem revision_tells_rules_apart :
    (∀ rules rules' : List Rule, (∀ r ∈ rules, r.imprint.NulFree) →
      (∀ r ∈ rules', r.imprint.NulFree) →
        (revisionBytes rules = revisionBytes rules' ↔
          rules.map Rule.imprint = rules'.map Rule.imprint)) ∧
      ∀ (ι : Type) [DecidableEq ι] (past : List (Engine × Lookup)) (s : Service ι)
        (steps : List (Step ι)) (r : SharedCall ι) (o : Outcome), Computed past s.cache →
        DistinctKeys (past ++ lookupsOf (steps ++ [.call r]) s) →
        DistinctRevisions (past ++ lookupsOf (steps ++ [.call r]) s) →
        (r.engine.serve r.toCall (actAll steps s)).1.answer = .ok o → o.cacheHit = true →
        ∃ l ∈ past ++ lookupsOf steps s,
          l.1.book.rules.map Rule.imprint = r.engine.book.rules.map Rule.imprint ∧
          ∃ d speech, l.1.compute l.2.input l.2.expression l.2.memory d = .ok speech ∧
            (r.engine.serve r.toCall (actAll steps s)).1 =
              speech.reply ((actAll steps s).memories r.session) true := by
  refine ⟨fun _ _ => revisionBytes_eq_iff, fun ι _ past s steps r o hpast hkeys hrevisions => ?_⟩
  have hone : lookupsOf [.call r] (actAll steps s) = (Step.call r).lookups (actAll steps s) :=
    List.append_nil _
  rw [lookupsOf_append, hone, ← List.append_assoc] at hkeys hrevisions
  exact (hpast.actAll steps).imprints_of_hit hkeys hrevisions

/-! ## A book with one rule -/

/-- A rule for `\pi`. -/
def sayPi (priority : Priority) : Rule :=
  ⟨"pi", .general, priority, .command "pi" 0, .template "pi", ""⟩

/-- An engine with that rule. -/
def piEngine : Engine := ⟨{}, .ofRules [sayPi 0]⟩

/-- A call for the text "1", in which the rule finds nothing. -/
def piCall : SharedCall Unit := ⟨⟨(), { text := ['1'] }, fun _ => none, 0⟩, piEngine⟩

/-- What is looked up for it. -/
def piLookup : Engine × Lookup := (piEngine, ⟨⟨['1'], [], 1, 48⟩, piCall.expression, {}⟩)

/-- A session that knows nothing, and a cache with some speech for the lookup. -/
def piService (speech : Speech) : Service Unit :=
  ⟨fun _ => {}, some ((Cache.new 8 1000).insert (piEngine.keyOf piLookup.2) speech 0)⟩

theorem check_piCall : Screening.check piCall.expression.text piEngine.config.limits =
    .ok piLookup.2.input :=
  Screening.check_eq_ok_iff.mpr (by decide +kernel)

/-- Both the entry and the call stand for one lookup. -/
theorem lookups_piCall (speech : Speech) :
    [piLookup] ++ lookupsOf ([] ++ [.call piCall]) (piService speech) = [piLookup, piLookup] := by
  have hlookup := lookup?_of_ok (c := piCall.toCall) (s := piService speech) check_piCall
  simp only [List.nil_append, lookupsOf, Step.lookups, List.append_nil]
  rw [show piCall.engine = piEngine from rfl, hlookup]
  rfl

theorem distinctKeys_piCall : DistinctKeys [piLookup, piLookup] where
  keys := by simp
  short := by decide +kernel

theorem distinctRevisions_piCall : DistinctRevisions [piLookup, piLookup] where
  messages := by simp
  nulFree := by decide +kernel

/-- The engine can compute speech for the lookup. -/
theorem exists_compute_piCall : ∃ speech, piEngine.compute piLookup.2.input
    piLookup.2.expression piLookup.2.memory (piEngine.deadline piCall.toCall) = .ok speech := by
  have hread : (parse piEngine.readLimits ['1']).toOption.map (fun _ => ()) = some () := by
    decide +kernel
  obtain ⟨p, hp, -⟩ := exists_parse_of_map hread
  exact compute_of_parse (fun _ => rfl) hp

theorem computed_piService {speech : Speech} (h : piEngine.compute piLookup.2.input
    piLookup.2.expression piLookup.2.memory (piEngine.deadline piCall.toCall) = .ok speech) :
    Computed [piLookup] (piService speech).cache := by
  rintro c ⟨rfl⟩ k entry hmem
  rcases Cache.mem_of_mem_insert hmem with ⟨rfl, rfl⟩ | ⟨-, hold⟩
  · exact ⟨piLookup, List.mem_cons_self, ⟨_, check_piCall⟩, rfl, _, h⟩
  · cases hold

theorem found_piCall (speech : Speech) :
    (lookup (piService speech).cache (piEngine.keyOf piLookup.2) 0).1 = some speech :=
  Cache.get_insert (by decide) (Entry.isExpired_at_insertion speech 0 (by decide))

/-- The call is answered with the speech of the cache. -/
theorem serve_piCall (speech : Speech) :
    (piCall.engine.serve piCall.toCall (piService speech)).1 = speech.reply {} true := by
  have hlookup : lookup (piService speech).cache (piEngine.keyOf piLookup.2) 0 =
      (some speech, (lookup (piService speech).cache (piEngine.keyOf piLookup.2) 0).2) := by
    rw [← found_piCall speech]
  rw [show piCall.engine = piEngine from rfl,
    serve_of_hit (c := piCall.toCall) check_piCall hlookup]
  rfl

/-- A new priority changes the message of the rule, even one that is written with the byte that
ends a template, and the call is answered from the cache with speech of the same rule. -/
theorem revision_tells_rules_apart_pi :
    revisionBytes [sayPi 0] ≠ revisionBytes [sayPi 255] ∧
      ∃ speech o, Computed [piLookup] (piService speech).cache ∧
        (piCall.engine.serve piCall.toCall (piService speech)).1.answer = .ok o ∧
        o.cacheHit = true ∧
        ∃ l ∈ [piLookup], l.1.book.rules.map Rule.imprint = [(sayPi 0).imprint] := by
  obtain ⟨htell, hserved⟩ := revision_tells_rules_apart
  have himprints : [sayPi 0].map Rule.imprint ≠ [sayPi 255].map Rule.imprint := by
    decide +kernel
  have hmessages : revisionBytes [sayPi 0] ≠ revisionBytes [sayPi 255] :=
    mt (htell _ _ (by decide +kernel) (by decide +kernel)).mp himprints
  obtain ⟨speech, hcompute⟩ := exists_compute_piCall
  have hcomputed := computed_piService hcompute
  have hanswer := congrArg Reply.answer (serve_piCall speech)
  have hkeys := distinctKeys_piCall
  have hrevisions := distinctRevisions_piCall
  rw [← lookups_piCall speech] at hkeys hrevisions
  have hnone : actAll [] (piService speech) = piService speech := rfl
  rw [← hnone] at hanswer
  obtain ⟨l, hl, hsame, -⟩ :=
    hserved Unit [piLookup] (piService speech) [] piCall _ hcomputed hkeys hrevisions hanswer rfl
  exact ⟨hmessages, speech, _, hcomputed, hnone ▸ hanswer, rfl, l, hl, hsame⟩

end SpokenMath.Engine
