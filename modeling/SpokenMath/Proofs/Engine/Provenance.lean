import SpokenMath.Proofs.Engine.Service
import SpokenMath.Proofs.Polish
import SpokenMath.Proofs.Rulebook.Signs

/-!
# Where speech comes from

Speech is polished from what a loop of rewriting left, in the call at hand or in an earlier one from
which the cache has it. A **ledger** keeps the loop for each key, as it was run last. Every entry of
the cache is backed by the ledger (`Backed`), so the ledger names the loop behind every reply
(`Engine.named_of_run`).

**Theorem (`Engine.unsigned_of_answer`).** With the standard rules, speech from a loop that was not
cut off is free of signs.
-/

namespace SpokenMath

/-- A loop of rewriting: the size that its text may reach, and what it came to. -/
structure Loop where
  budget : Nat
  result : Rewriting

/-- The loop was cut off because its text grew too long. -/
def Loop.CutOff (l : Loop) : Prop := l.result.OverBudget l.budget

/-- The loop that was run last for each key. -/
abbrev Ledger := Digest → Option Loop

namespace Engine

/-- The loop of a lookup, if the tree is read. -/
def loop? (e : Engine) (l : Lookup) (d : Deadline) : Option Loop :=
  match parse ⟨l.input.maxDepth, d⟩ l.input.text with
  | .error _ => none
  | .ok parsed =>
    let features := Features.ofTree parsed.tree
    let rules := e.book.rulesFor (detect features l.expression.domain l.memory).domain
    some ⟨e.config.rewrite.outputBudget features.text.size,
      rewrite rules e.config.rewrite d features.text⟩

/-- Speech that was computed with a loop, from which it is polished. -/
def Produced (e : Engine) (loop : Loop) (s : Speech) : Prop :=
  ∃ l d, e.loop? l d = some loop ∧ e.compute l.input l.expression l.memory d = .ok s

theorem loop?_of_compute {e : Engine} {l : Lookup} {d : Deadline} {s : Speech}
    (h : e.compute l.input l.expression l.memory d = .ok s) :
    ∃ loop, e.loop? l d = some loop ∧ s.text = polish l.expression.audience loop.result.text ∧
      ∀ elapsed, loop.result.ending ≠ .outOfTime elapsed := by
  unfold compute at h
  unfold loop?
  cases hparsed : parse ⟨l.input.maxDepth, d⟩ l.input.text with
  | error e =>
    rw [hparsed] at h
    cases h
  | ok parsed =>
    rw [hparsed] at h
    dsimp only at h ⊢
    split at h
    · cases h
    · next hending =>
      split at h
      · cases h
      · cases h
        exact ⟨_, rfl, rfl, hending⟩

theorem Produced.polished {e : Engine} {loop : Loop} {s : Speech} (h : e.Produced loop s) :
    ∃ audience, s.text = polish audience loop.result.text := by
  obtain ⟨l, d, hloop, hspeech⟩ := h
  obtain ⟨loop', hloop', htext, -⟩ := loop?_of_compute hspeech
  obtain rfl := Option.some.inj (hloop.symm.trans hloop')
  exact ⟨_, htext⟩

/-- The speech of an engine with the standard rules is free of signs, unless its loop was cut
off. -/
theorem Produced.unsigned {e : Engine} {loop : Loop} {s : Speech} (h : e.Produced loop s)
    (hbook : e.book = .standard) (hpasses : 1 ≤ e.config.rewrite.maxPasses)
    (huncut : ¬loop.CutOff) : s.text.Unsigned := by
  obtain ⟨l, d, hloop, hspeech⟩ := h
  obtain ⟨loop', hloop', htext, htime⟩ := loop?_of_compute hspeech
  obtain rfl := Option.some.inj (hloop.symm.trans hloop')
  rw [htext]
  apply unsigned_polish
  unfold loop? at hloop
  split at hloop
  · cases hloop
  · cases hloop
    obtain ⟨passes, hpasses⟩ := Nat.exists_eq_add_of_le' hpasses
    dsimp only [rewrite, Loop.CutOff] at htime huncut ⊢
    rw [hpasses] at htime huncut ⊢
    obtain ⟨t, ht⟩ := Rewriting.text_of_loop rfl htime huncut
    rw [ht, hbook]
    exact unsigned_rewriteThrough _ t

/-! ## The ledger -/

variable {ι : Type} {e : Engine}

/-- Keeps the loop of a call that computes its speech. -/
def record (e : Engine) (c : Call ι) (s : Service ι) (ledger : Ledger) : Ledger :=
  match e.lookup? c s with
  | none => ledger
  | some l =>
    match (lookup s.cache (e.keyOf l) c.now).1,
        e.compute l.input l.expression l.memory (e.deadline c) with
    | none, .ok _ => Function.update ledger (e.keyOf l) (e.loop? l (e.deadline c))
    | _, _ => ledger

/-- The ledger behind some calls. -/
def ledgerOf [DecidableEq ι] (e : Engine) : List (Call ι) → Service ι → Ledger → Ledger
  | [], _, ledger => ledger
  | c :: cs, s, ledger => e.ledgerOf cs (e.serve c s).2 (e.record c s ledger)

section Record

variable {c : Call ι} {s : Service ι} {ledger : Ledger} {input : SafeInput}
  {cache : Option SpeechCache}

theorem record_of_refused {v : Violation}
    (hcheck : Screening.check c.expression.text e.config.limits = .error v) :
    e.record c s ledger = ledger := by
  simp only [record, lookup?_of_refused hcheck]

theorem record_of_hit {speech : Speech}
    (hcheck : Screening.check c.expression.text e.config.limits = .ok input)
    (hlookup : lookup s.cache (e.key input c.expression (s.memories c.session)) c.now =
      (some speech, cache)) :
    e.record c s ledger = ledger := by
  simp only [record, lookup?_of_ok hcheck, keyOf, hlookup]

theorem record_of_failure {error : EngineError}
    (hcheck : Screening.check c.expression.text e.config.limits = .ok input)
    (hlookup : lookup s.cache (e.key input c.expression (s.memories c.session)) c.now =
      (none, cache))
    (hcompute : e.compute input c.expression (s.memories c.session) (e.deadline c) =
      .error error) :
    e.record c s ledger = ledger := by
  simp only [record, lookup?_of_ok hcheck, keyOf, hlookup, hcompute]

theorem record_of_computed {speech : Speech}
    (hcheck : Screening.check c.expression.text e.config.limits = .ok input)
    (hlookup : lookup s.cache (e.key input c.expression (s.memories c.session)) c.now =
      (none, cache))
    (hcompute : e.compute input c.expression (s.memories c.session) (e.deadline c) =
      .ok speech) :
    e.record c s ledger =
      Function.update ledger (e.key input c.expression (s.memories c.session))
        (e.loop? ⟨input, c.expression, s.memories c.session⟩ (e.deadline c)) := by
  simp only [record, lookup?_of_ok hcheck, keyOf, hlookup, hcompute]

end Record

/-- Every entry of a cache was produced by the loop that the ledger has for its key. -/
def Backed (e : Engine) (cache : Option SpeechCache) (ledger : Ledger) : Prop :=
  EveryEntry (fun k s => ∃ loop, ledger k = some loop ∧ e.Produced loop s) cache

/-- The loop behind the answer to a call, if it is a success. -/
def Named (e : Engine) (ledger : Ledger) (l? : Option Lookup) (r : Reply) : Prop :=
  ∀ o, r.answer = .ok o → ∃ l loop s, l? = some l ∧ ledger (e.keyOf l) = some loop ∧
    e.Produced loop s ∧ o.speech = s.text

/-- Speech is put in the cache and its loop in the ledger. -/
theorem Backed.insert {cache : Option SpeechCache} {ledger : Ledger} (h : e.Backed cache ledger)
    {loop : Loop} {s : Speech} (hs : e.Produced loop s) (k : Digest) (now : UInt64) :
    e.Backed (cache.map fun c => c.insert k s now) (Function.update ledger k (some loop)) := by
  refine EveryEntry.insert h ⟨loop, Function.update_self .., hs⟩ (fun j s' hne hj => ?_) now
  rwa [Function.update_of_ne hne]

/-- A call keeps the cache backed, and the ledger behind it names the loop of the answer. -/
theorem Backed.serve [DecidableEq ι] {s : Service ι} {ledger : Ledger}
    (h : e.Backed s.cache ledger) (c : Call ι) :
    e.Backed (e.serve c s).2.cache (e.record c s ledger) ∧
      e.Named (e.record c s ledger) (e.lookup? c s) (e.serve c s).1 := by
  cases hcheck : Screening.check c.expression.text e.config.limits with
  | error v =>
    rw [serve_of_refused hcheck, record_of_refused hcheck]
    exact ⟨h, fun o ho => nomatch ho⟩
  | ok input =>
    let l : Lookup := ⟨input, c.expression, s.memories c.session⟩
    have hlooked : e.Backed _ ledger := EveryEntry.lookup h (e.keyOf l) c.now
    cases hlookup : Engine.lookup s.cache (e.keyOf l) c.now with
    | mk found cache =>
    rw [hlookup] at hlooked
    cases found with
    | some speech =>
      obtain ⟨loop, hledger, hproduced⟩ := EveryEntry.found h (congrArg Prod.fst hlookup)
      rw [serve_of_hit hcheck hlookup, record_of_hit hcheck hlookup, lookup?_of_ok hcheck]
      refine ⟨hlooked, fun o ho => ⟨l, loop, speech, rfl, hledger, hproduced, ?_⟩⟩
      cases ho
      rfl
    | none =>
      cases hcompute : e.compute input c.expression (s.memories c.session) (e.deadline c) with
      | error error =>
        rw [serve_of_failure hcheck hlookup hcompute, record_of_failure hcheck hlookup
          hcompute]
        exact ⟨hlooked, fun o ho => nomatch ho⟩
      | ok speech =>
        obtain ⟨loop, hloop, -⟩ := loop?_of_compute (l := l) hcompute
        have hproduced : e.Produced loop speech := ⟨l, e.deadline c, hloop, hcompute⟩
        rw [serve_of_computed hcheck hlookup hcompute,
          record_of_computed hcheck hlookup hcompute, lookup?_of_ok hcheck]
        simp only [hloop, l]
        refine ⟨hlooked.insert hproduced _ _, fun o ho => ?_⟩
        refine ⟨l, loop, speech, rfl, Function.update_self .., hproduced, ?_⟩
        cases ho
        rfl

/-! ## Every run -/

theorem Backed.serveAll [DecidableEq ι] {s : Service ι} {ledger : Ledger}
    (h : e.Backed s.cache ledger) (calls : List (Call ι)) :
    e.Backed (e.serveAll calls s).2.cache (e.ledgerOf calls s ledger) := by
  induction calls generalizing s ledger with
  | nil => exact h
  | cons c calls ih => exact ih (h.serve c).1

theorem ledgerOf_concat [DecidableEq ι] (calls : List (Call ι)) (c : Call ι) (s : Service ι)
    (ledger : Ledger) :
    e.ledgerOf (calls ++ [c]) s ledger =
      e.record c (e.serveAll calls s).2 (e.ledgerOf calls s ledger) := by
  induction calls generalizing s ledger with
  | nil => rfl
  | cons d calls ih => exact ih _ _

/-- **The ledger of a run names the loop behind every successful answer.** -/
theorem named_of_run [DecidableEq ι] (e : Engine) (memories : ι → Memory) (calls : List (Call ι))
    (c : Call ι) (ledger : Ledger) :
    e.Named (e.ledgerOf (calls ++ [c]) (e.start memories) ledger)
      (e.lookup? c (e.serveAll calls (e.start memories)).2)
      (e.serve c (e.serveAll calls (e.start memories)).2).1 := by
  rw [ledgerOf_concat]
  have hfresh : e.Backed (e.start memories).cache ledger := everyEntry_freshCache _ e
  exact ((hfresh.serveAll calls).serve c).2

/-- **No sign is spoken.** With the standard rules and at least one pass, behind any calls from an
empty cache: a call that succeeds has its speech from the loop that the ledger names, and unless
that loop was cut off, the speech is free of signs. -/
theorem unsigned_of_answer [DecidableEq ι] (e : Engine) (hbook : e.book = .standard)
    (hpasses : 1 ≤ e.config.rewrite.maxPasses) (memories : ι → Memory) (calls : List (Call ι))
    (c : Call ι) (o : Outcome)
    (ho : (e.serve c (e.serveAll calls (e.start memories)).2).1.answer = .ok o) :
    ∃ l loop, e.lookup? c (e.serveAll calls (e.start memories)).2 = some l ∧
      e.ledgerOf (calls ++ [c]) (e.start memories) (fun _ => none) (e.keyOf l) = some loop ∧
      (∃ audience, o.speech = polish audience loop.result.text) ∧
      (¬loop.CutOff → Text.Unsigned o.speech) := by
  obtain ⟨l, loop, s, hl, hledger, hproduced, hspeech⟩ :=
    named_of_run e memories calls c (fun _ => none) o ho
  refine ⟨l, loop, hl, hledger, hspeech ▸ hproduced.polished, fun huncut => ?_⟩
  exact hspeech ▸ hproduced.unsigned hbook hpasses huncut

/-- A first call whose input is accepted and read succeeds, so there is speech to look at. -/
theorem unsigned_of_answer_first :
    let e : Engine := ⟨{}, .standard⟩
    let c : Call Unit := ⟨(), { text := r"x^2 + \alpha".toList }, fun _ => none, 0⟩
    ∃ o l loop, (e.serve c (e.start fun _ => {})).1.answer = .ok o ∧
      e.ledgerOf [c] (e.start fun _ => {}) (fun _ => none) (e.keyOf l) = some loop ∧
      (¬loop.CutOff → Text.Unsigned o.speech) := by
  intro e c
  have hcheck : Screening.check c.expression.text e.config.limits =
      .ok ⟨r"x^2 + \alpha".toList, [], 12, 48⟩ :=
    Screening.check_eq_ok_iff.mpr (by decide +kernel)
  have hread : (parse ⟨48, e.deadline c⟩ r"x^2 + \alpha".toList).isOk = true := by decide +kernel
  cases hparse : parse ⟨48, e.deadline c⟩ r"x^2 + \alpha".toList with
  | error error =>
    rw [hparse] at hread
    cases hread
  | ok parsed =>
  obtain ⟨s, hs⟩ := compute_of_parse (e := e) (d := e.deadline c)
    (l := ⟨⟨r"x^2 + \alpha".toList, [], 12, 48⟩, c.expression, {}⟩) (fun _ => rfl) hparse
  obtain ⟨o, ho⟩ := answer_of_compute (s := e.start fun _ => {}) hcheck hs
  obtain ⟨l, loop, -, hledger, -, hfree⟩ :=
    unsigned_of_answer e rfl (by decide) (fun _ => {}) [] c o ho
  exact ⟨o, l, loop, ho, hledger, hfree⟩

end Engine

end SpokenMath
