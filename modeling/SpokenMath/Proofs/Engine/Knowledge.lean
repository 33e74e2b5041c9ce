import SpokenMath.Proofs.Engine.SharedCache
import SpokenMath.Proofs.Markup.FixedPoint
import SpokenMath.Proofs.Markup.Notices
import SpokenMath.Proofs.Memory.References
import SpokenMath.Proofs.Memory.Symbols

/-!
# Symbols that stay known

Engines with any configurations serve calls on the same sessions and may share a cache, and now and
then a session is reset. The effects of a call are those of its speech (`spoken?`), which may have
been computed for another call, on another session, by another engine and under another deadline.
That call had the same text and a memory with the same view (`Computed.spoken`), so it knew the same
symbols.

**Theorem (`known_once_defined`).** What a call of a session defines is not reported as undefined in
a later one, until the session is reset, and a letter of this kind that stands alone in a later
expression, and is neither bound nor redefined there, counts one more use.
-/

namespace SpokenMath.Engine

variable {ι : Type}

/-! ## Runs with resets -/

/-- What happens to a service. -/
inductive Step (ι : Type)
  | call (r : SharedCall ι)
  /-- A session forgets everything. -/
  | reset (session : ι)

/-- The service behind a step. -/
def Step.act [DecidableEq ι] : Step ι → Service ι → Service ι
  | .call r, s => (r.engine.serve r.toCall s).2
  | .reset session, s => { s with memories := Function.update s.memories session {} }

/-- The lookup of a step, if it makes one. -/
def Step.lookups : Step ι → Service ι → List (Engine × Lookup)
  | .call r, s => ((r.engine.lookup? r.toCall s).map (r.engine, ·)).toList
  | .reset _, _ => []

/-- The service behind some steps. -/
def actAll [DecidableEq ι] (steps : List (Step ι)) (s : Service ι) : Service ι :=
  steps.foldl (fun s step => step.act s) s

/-- The lookups of a run. -/
def lookupsOf [DecidableEq ι] : List (Step ι) → Service ι → List (Engine × Lookup)
  | [], _ => []
  | step :: steps, s => step.lookups s ++ lookupsOf steps (step.act s)

theorem actAll_nil [DecidableEq ι] (s : Service ι) : actAll [] s = s := rfl

theorem actAll_cons [DecidableEq ι] (step : Step ι) (steps : List (Step ι)) (s : Service ι) :
    actAll (step :: steps) s = actAll steps (step.act s) := rfl

/-- A reset leaves the memories of other sessions alone. -/
theorem memories_reset_of_ne [DecidableEq ι] {session other : ι} (h : session ≠ other)
    (s : Service ι) : ((Step.reset other).act s).memories session = s.memories session :=
  Function.update_of_ne h _ _

theorem actAll_append [DecidableEq ι] (steps steps' : List (Step ι)) (s : Service ι) :
    actAll (steps ++ steps') s = actAll steps' (actAll steps s) :=
  List.foldl_append

theorem lookupsOf_append [DecidableEq ι] (steps steps' : List (Step ι)) (s : Service ι) :
    lookupsOf (steps ++ steps') s = lookupsOf steps s ++ lookupsOf steps' (actAll steps s) := by
  induction steps generalizing s with
  | nil => rfl
  | cons step steps ih => simp only [List.cons_append, lookupsOf, ih, actAll, List.foldl_cons,
      List.append_assoc]

/-- In these lookups no two different byte strings have the same digest, neither as keys nor as
fingerprints, and all of them are short enough for their lengths to be written. -/
structure NoCollisions (ls : List (Engine × Lookup)) : Prop extends DistinctKeys ls where
  fingerprints : ∀ l ∈ ls, ∀ l' ∈ ls, l.2.memory.fingerprint = l'.2.memory.fingerprint →
    l.2.memory.fingerprintBytes = l'.2.memory.fingerprintBytes
  short_fingerprints : ∀ l ∈ ls, l.2.memory.fingerprintBytes.length < UInt64.size

/-! ## What speech says of symbols -/

section

variable {e : Engine} {i : SafeInput} {x : Expression} {m : Memory} {d : Deadline} {s : Speech}
  {symbol : String}

/-- Effects and notices of speech come from the analysis of its tree. The only other effect is the
topic, unless the domain is the general one. -/
theorem analysis_of_compute (h : e.compute i x m d = .ok s) : ∃ p rewriting,
    let told := analyze p.tree p.notices m e.config.warnUndefinedSymbols
    let domain := (detect (Features.ofTree p.tree) x.domain m).domain
    parse ⟨i.maxDepth, d⟩ i.text = .ok p ∧
      s.effects = told.effects ++ (if domain.isGeneral then [] else [.topic domain]) ∧
      s.notices = collectNotices p rewriting told := by
  unfold compute at h
  split at h
  · cases h
  next p hp =>
  dsimp only at h
  split at h
  · cases h
  split at h
  · cases h
  cases h
  exact ⟨p, _, hp, rfl, rfl⟩

/-- Speech does not report a known symbol. -/
theorem undefinedSymbol_not_mem_notices (h : e.compute i x m d = .ok s)
    (hknown : m.isDefined symbol = true) : .undefinedSymbol symbol ∉ s.notices := by
  obtain ⟨p, rewriting, hp, -, hnotices⟩ := analysis_of_compute h
  rw [hnotices, collectNotices, List.mem_append, List.mem_append, not_or, not_or]
  refine ⟨⟨fun hmem => noted_of_parse hp _ (List.mem_filter.mp hmem).1, ?_⟩,
    Analysis.undefinedSymbol_not_mem_analyze hknown⟩
  split <;> simp

/-- Speech refers once to a known letter that is free in the expression. -/
theorem count_reference_effects (h : e.compute i x m d = .ok s)
    (hknown : m.isDefined symbol = true) {limits : ReadLimits} {p : Parsed}
    (hp : parse limits i.text = .ok p) (hfree : symbol ∈ Analysis.freeLetters p.tree) :
    s.effects.count (.reference symbol) = 1 := by
  obtain ⟨p', -, hp', heffects, -⟩ := analysis_of_compute h
  obtain rfl := Parsed.unique hp hp'
  rw [heffects, List.count_append, Analysis.count_reference_analyze hfree hknown]
  split <;> simp

end

/-! ## The speech of a call -/

section

variable {e : Engine} {c : Call ι} {s : Service ι} {speech : Speech}

/-- The speech whose effects a call commits, if it succeeds. -/
def spoken? (e : Engine) (c : Call ι) (s : Service ι) : Option Speech :=
  match Screening.check c.expression.text e.config.limits with
  | .error _ => none
  | .ok input =>
    match (lookup s.cache (e.key input c.expression (s.memories c.session)) c.now).1 with
    | some speech => some speech
    | none => (e.compute input c.expression (s.memories c.session) (e.deadline c)).toOption

/-- A call that finds nothing speaks what it computes. -/
theorem spoken?_of_miss {input : SafeInput}
    (hcheck : Screening.check c.expression.text e.config.limits = .ok input)
    (hmiss : (lookup s.cache (e.key input c.expression (s.memories c.session)) c.now).1 = none)
    (hcompute : e.compute input c.expression (s.memories c.session) (e.deadline c) =
      .ok speech) :
    e.spoken? c s = some speech := by
  simp only [spoken?, hcheck, hmiss, hcompute]
  rfl

/-- A call commits the effects of its speech, or it fails and changes no memory. -/
theorem serve_cases [DecidableEq ι] (e : Engine) (c : Call ι) (s : Service ι) :
    (e.spoken? c s = none ∧ (∃ error, (e.serve c s).1.answer = .error error) ∧
      (e.serve c s).2.memories = s.memories) ∨
    ∃ speech hit, e.spoken? c s = some speech ∧
      (e.serve c s).1 = speech.reply (s.memories c.session) hit ∧
      (e.serve c s).2.memories = Function.update s.memories c.session
        ((s.memories c.session).commit speech.effects).2 := by
  cases hcheck : Screening.check c.expression.text e.config.limits with
  | error v =>
    rw [serve_of_refused hcheck]
    exact .inl ⟨by simp only [spoken?, hcheck], ⟨_, rfl⟩, rfl⟩
  | ok input =>
    cases hlookup : lookup s.cache (e.key input c.expression (s.memories c.session)) c.now with
    | mk found cache =>
    cases found with
    | some speech =>
      rw [serve_of_hit hcheck hlookup]
      exact .inr ⟨speech, true, by simp only [spoken?, hcheck, hlookup], rfl, rfl⟩
    | none =>
      cases hcompute : e.compute input c.expression (s.memories c.session) (e.deadline c) with
      | error error =>
        rw [serve_of_failure hcheck hlookup hcompute]
        refine .inl ⟨?_, ⟨error, rfl⟩, rfl⟩
        simp only [spoken?, hcheck, hlookup, hcompute]
        rfl
      | ok speech =>
        rw [serve_of_computed hcheck hlookup hcompute]
        have hmiss := congrArg Prod.fst hlookup
        exact .inr ⟨speech, false, spoken?_of_miss hcheck hmiss hcompute, rfl, rfl⟩

/-- What a call speaks it commits. -/
theorem memories_of_spoken [DecidableEq ι] (h : e.spoken? c s = some speech) :
    (e.serve c s).2.memories = Function.update s.memories c.session
      ((s.memories c.session).commit speech.effects).2 := by
  rcases serve_cases e c s with ⟨hnone, -⟩ | ⟨speech', -, hspoken, -, hmemories⟩
  · rw [h] at hnone
    cases hnone
  · obtain rfl := Option.some.inj (h.symm.trans hspoken)
    exact hmemories

end

/-! ## Where speech comes from -/

/-- Every entry was computed for an earlier lookup on some engine, in whatever time it had, and
stands under the key of that lookup. -/
def Computed (past : List (Engine × Lookup)) : Option SpeechCache → Prop :=
  EveryEntry fun k s => ∃ l ∈ past, l.1.Screened l.2 ∧ l.1.keyOf l.2 = k ∧
    ∃ d, l.1.compute l.2.input l.2.expression l.2.memory d = .ok s

namespace Computed

variable {past : List (Engine × Lookup)} {s : Service ι}

theorem mono {past' : List (Engine × Lookup)} {cache : Option SpeechCache}
    (h : Computed past cache) (hsub : past ⊆ past') : Computed past' cache :=
  h.imp fun _ _ ⟨l, hl, hrest⟩ => ⟨l, hsub hl, hrest⟩

theorem act [DecidableEq ι] (h : Computed past s.cache) (step : Step ι) :
    Computed (past ++ step.lookups s) (step.act s).cache := by
  have hmore := h.mono (List.subset_append_left past (step.lookups s))
  cases step with
  | reset session => exact hmore
  | call r =>
    refine EveryEntry.serve hmore fun input speech hcheck hcompute => ?_
    let l : Lookup := ⟨input, r.expression, s.memories r.session⟩
    refine ⟨(r.engine, l), List.mem_append_right past ?_, ⟨r.expression.text, hcheck⟩, rfl, _,
      hcompute⟩
    rw [Step.lookups, lookup?_of_ok hcheck]
    exact List.mem_cons_self

theorem actAll [DecidableEq ι] (h : Computed past s.cache) (steps : List (Step ι)) :
    Computed (past ++ lookupsOf steps s) (actAll steps s).cache := by
  induction steps generalizing past s with
  | nil => rwa [lookupsOf, List.append_nil]
  | cons step steps ih =>
    rw [lookupsOf, ← List.append_assoc]
    exact ih (h.act step)

/-- **Speech was computed for the text and the view at hand**, now or in an earlier call. -/
theorem spoken [DecidableEq ι] (h : Computed past s.cache) {r : SharedCall ι}
    (hdistinct : NoCollisions (past ++ (Step.call r).lookups s)) {speech : Speech}
    (hspoken : r.engine.spoken? r.toCall s = some speech) :
    ∃ input, Screening.check r.expression.text r.engine.config.limits = .ok input ∧
      ∃ (e : Engine) (l : Lookup) (d : Deadline), l.input.text = input.text ∧
        l.memory.view = (s.memories r.session).view ∧
        e.compute l.input l.expression l.memory d = .ok speech := by
  cases hcheck : Screening.check r.expression.text r.engine.config.limits with
  | error v =>
    simp only [spoken?, hcheck] at hspoken
    cases hspoken
  | ok input =>
    let l : Lookup := ⟨input, r.expression, s.memories r.session⟩
    refine ⟨input, rfl, ?_⟩
    simp only [spoken?, hcheck] at hspoken
    split at hspoken
    · next found hfound =>
      obtain rfl := Option.some.inj hspoken
      obtain ⟨l', hl', hscreened', hkey, d, hcompute⟩ := EveryEntry.found h hfound
      have hmem : (r.engine, l) ∈ past ++ (Step.call r).lookups s := by
        rw [Step.lookups, lookup?_of_ok hcheck]
        exact List.mem_append_right past List.mem_cons_self
      have hmem' := List.mem_append_left ((Step.call r).lookups s) hl'
      have hmessage : r.engine.messageOf l = l'.1.messageOf l'.2 :=
        hdistinct.keys _ hmem _ hmem' hkey.symm
      have hshort := hdistinct.short _ hmem
      obtain ⟨-, -, -, hfingerprint, -⟩ := keyMessage_inj hshort hmessage
      have hview := Memory.view_eq_of_fingerprintBytes (hdistinct.short_fingerprints _ hmem)
        (hdistinct.fingerprints _ hmem _ hmem' hfingerprint)
      have htext := text_of_messageOf ⟨r.expression.text, hcheck⟩ hscreened' hshort hmessage
      exact ⟨l'.1, l'.2, d, htext.symm, hview.symm, hcompute⟩
    · cases hcompute : r.engine.compute input r.expression (s.memories r.session)
          (r.engine.deadline r.toCall) with
      | error error =>
        rw [hcompute] at hspoken
        cases hspoken
      | ok speech' =>
        rw [hcompute] at hspoken
        obtain rfl := Option.some.inj hspoken
        exact ⟨r.engine, l, _, rfl, rfl, hcompute⟩

end Computed

/-! ## Known symbols -/

section

variable [DecidableEq ι] {past : List (Engine × Lookup)} {s : Service ι} {symbol : String}

/-- A step leaves a known symbol known, unless its session is reset. -/
theorem isDefined_act {session : ι} (hknown : (s.memories session).isDefined symbol = true)
    {step : Step ι} (hreset : step ≠ .reset session) :
    ((step.act s).memories session).isDefined symbol = true := by
  cases step with
  | reset session' =>
    have hne : session ≠ session' := fun heq => hreset (heq ▸ rfl)
    rwa [memories_reset_of_ne hne]
  | call r =>
    rcases serve_cases r.engine r.toCall s with ⟨-, -, hsame⟩ | ⟨speech, -, -, -, hmemories⟩
    · simpa only [Step.act, hsame] using hknown
    · rw [Step.act, hmemories]
      by_cases hsession : session = r.session
      · subst hsession
        rw [Function.update_self]
        exact Memory.isDefined_commit hknown speech.effects
      · rwa [Function.update_of_ne hsession]

theorem isDefined_actAll {session : ι} (hknown : (s.memories session).isDefined symbol = true)
    {steps : List (Step ι)} (hreset : .reset session ∉ steps) :
    ((actAll steps s).memories session).isDefined symbol = true := by
  induction steps generalizing s with
  | nil => exact hknown
  | cons step steps ih =>
    obtain ⟨hstep, hsteps⟩ := not_or.mp (mt List.mem_cons.mpr hreset)
    exact ih (isDefined_act hknown (Ne.symm hstep)) hsteps

/-- A symbol that is known when a call is made is not reported, and counts one more use if it is a
letter that is free in the expression. -/
theorem Computed.known (h : Computed past s.cache) {r : SharedCall ι}
    (hdistinct : NoCollisions (past ++ (Step.call r).lookups s))
    (hknown : (s.memories r.session).isDefined symbol = true) {o : Outcome}
    (hanswer : (r.engine.serve r.toCall s).1.answer = .ok o) :
    .undefinedSymbol symbol ∉ o.warnings ∧
      ∀ input, Screening.check r.expression.text r.engine.config.limits = .ok input →
        ∀ limits p, parse limits input.text = .ok p → symbol ∈ Analysis.freeLetters p.tree →
          ∃ n, (s.memories r.session).refCount? symbol = some n ∧
            ((r.engine.serve r.toCall s).2.memories r.session).refCount? symbol =
              some (n + 1) := by
  rcases serve_cases r.engine r.toCall s with ⟨-, ⟨error, herror⟩, -⟩ |
    ⟨speech, hit, hspoken, hreply, hmemories⟩
  · rw [herror] at hanswer
    cases hanswer
  obtain ⟨input, hcheck, e, l, d, htext, hview, hcompute⟩ := h.spoken hdistinct hspoken
  have hknown' : l.memory.isDefined symbol = true := by rwa [isDefined_congr hview]
  rw [hreply] at hanswer
  cases hanswer
  constructor
  · rintro hmem
    rcases List.mem_append.mp hmem with hmem | hmem
    · exact undefinedSymbol_not_mem_notices hcompute hknown' hmem
    · exact Memory.undefinedSymbol_not_mem_commit _ _ _ hmem
  · intro input' hcheck' limits p hp hfree
    obtain rfl := Except.ok.inj (hcheck.symm.trans hcheck')
    obtain ⟨n, hn⟩ := Memory.isDefined_iff.mp hknown
    refine ⟨n, hn, ?_⟩
    rw [← htext] at hp
    rw [hmemories, Function.update_self, Memory.refCount?_commit hn,
      count_reference_effects hcompute hknown' hp hfree]

/-- **What a session defines it knows from then on.** Engines serve calls on any sessions, with a
cache that was empty at first or without one, and digests do not collide. A call has succeeded and
its effects have defined a symbol, and its session has not been reset since. Then no later call of
the session that succeeds reports the symbol as undefined. If the symbol is a letter other than `e`
and `i`, and stands alone in literal text of the later expression, outside of opaque commands, and
is neither bound nor redefined there, then the call counts one use of it, however often it stands
there. -/
theorem known_once_defined (memories : ι → Memory) (cache : Option SpeechCache)
    (hempty : ∀ c ∈ cache, c.entries = []) (before between : List (Step ι))
    (definer later : SharedCall ι) (hsession : later.session = definer.session)
    (hreset : .reset definer.session ∉ between)
    (hdistinct : NoCollisions
      (lookupsOf (before ++ .call definer :: between ++ [.call later]) ⟨memories, cache⟩))
    (speech : Speech)
    (hspoken : definer.engine.spoken? definer.toCall (actAll before ⟨memories, cache⟩) =
      some speech)
    (symbol meaning : String) (hdefine : .define symbol meaning ∈ speech.effects) (o : Outcome)
    (hanswer : (later.engine.serve later.toCall
      (actAll (before ++ .call definer :: between) ⟨memories, cache⟩)).1.answer = .ok o) :
    let s := actAll (before ++ .call definer :: between) ⟨memories, cache⟩
    .undefinedSymbol symbol ∉ o.warnings ∧
      ∀ letter : Char, symbol = String.singleton letter → letter.isAlpha = true → letter ≠ 'e' →
        letter ≠ 'i' → ∀ input,
        Screening.check later.expression.text later.engine.config.limits = .ok input →
        ∀ limits p, parse limits input.text = .ok p → p.tree.StandsAlone letter →
        symbol ∉ Analysis.boundLetters p.tree (Analysis.plainText p.tree) →
        (Analysis.definitions (Analysis.plainText p.tree)).lookup symbol = none →
        ∃ n, (s.memories later.session).refCount? symbol = some n ∧
          ((later.engine.serve later.toCall s).2.memories later.session).refCount? symbol =
            some (n + 1) := by
  intro s
  have hstart : Computed [] cache := by
    intro c hc k entry hmem
    rw [hempty c hc] at hmem
    cases hmem
  have hcomputed := hstart.actAll (s := ⟨memories, cache⟩) (before ++ .call definer :: between)
  rw [lookupsOf_append, lookupsOf, lookupsOf, List.append_nil] at hdistinct
  have hknown : (s.memories later.session).isDefined symbol = true := by
    rw [hsession]
    show ((actAll (before ++ .call definer :: between) _).memories _).isDefined symbol = true
    rw [actAll_append]
    refine isDefined_actAll (s := (Step.call definer).act _) ?_ hreset
    rw [Step.act, memories_of_spoken hspoken, Function.update_self]
    exact Memory.isDefined_commit_of_define _ hdefine
  obtain ⟨hwarnings, hcount⟩ := hcomputed.known hdistinct hknown hanswer
  refine ⟨hwarnings, ?_⟩
  rintro letter rfl hletter he hi input hcheck limits p hp halone hbound hfresh
  exact hcount input hcheck limits p hp (Analysis.mem_freeLetters.mpr
    ⟨Analysis.mem_letters halone hletter he hi, hfresh, hbound⟩)

/-! ## A letter that is assigned

Session `false` says "x:=5", session `true` is reset, and session `false` says "x+x". -/

/-- An engine without rules. -/
def ruleless : Engine := ⟨{}, .ofRules []⟩

/-- A call in the general domain on session `false`. -/
def remark (text : String) : SharedCall Bool :=
  ⟨⟨false, { text := text.toList, domain := some .general }, fun _ => none, 0⟩, ruleless⟩

theorem engine_remark (text : String) : (remark text).engine = ruleless := rfl

theorem session_remark (text : String) : (remark text).session = false := rfl

/-- What the screening makes of a remark. -/
def remarkInput (text : String) : SafeInput := ⟨text.toList, [], text.utf8ByteSize, 48⟩

/-- A memory in which `x` is 5. -/
def knowing : Memory := { symbols := [("x", ⟨"5", 0, 0⟩)], expressions := 1 }

/-- The service behind the assignment and the reset. -/
def afterAssignment : Service Bool :=
  actAll ([] ++ .call (remark "x:=5") :: [.reset true]) unused

/-- What is looked up for both remarks. -/
def remarkLookups : List (Engine × Lookup) :=
  [(ruleless, ⟨remarkInput "x:=5", (remark "x:=5").expression, {}⟩),
    (ruleless, ⟨remarkInput "x+x", (remark "x+x").expression, knowing⟩)]

/-- The text of a leaf in a group of its own. -/
def onlyLeaf? : Node → Option Text
  | .group [.leaf t] => some t
  | _ => none

theorem eq_of_onlyLeaf? {n : Node} {t : Text} (h : onlyLeaf? n = some t) :
    n = .group [.leaf t] := by
  unfold onlyLeaf? at h
  split at h
  · rw [Option.some.inj h]
  · cases h

theorem check_remark {text : String} (h : text = "x:=5" ∨ text = "x+x") :
    Screening.check (remark text).expression.text ruleless.config.limits =
      .ok (remarkInput text) := by
  rcases h with rfl | rfl <;> exact Screening.check_eq_ok_iff.mpr (by decide +kernel)

/-- A remark is one leaf. -/
theorem parse_remark {text : String} (h : text = "x:=5" ∨ text = "x+x") :
    parse ruleless.readLimits text.toList = .ok ⟨.group [.leaf text.toList], []⟩ := by
  have hread : (parse ruleless.readLimits text.toList).toOption.map
      (fun p => (onlyLeaf? p.tree, p.notices)) = some (some text.toList, []) := by
    rcases h with rfl | rfl <;> decide +kernel
  obtain ⟨⟨tree, notices⟩, hp, htold⟩ := exists_parse_of_map hread
  obtain ⟨hleaf, rfl⟩ := Prod.mk.inj htold
  obtain rfl : tree = .group [.leaf text.toList] := eq_of_onlyLeaf? hleaf
  exact hp

theorem plainText_remark {text : String} (h : text = "x:=5" ∨ text = "x+x") :
    Analysis.plainText (.group [.leaf text.toList]) = text.toList := by
  rcases h with rfl | rfl <;> decide +kernel

/-- The first remark defines `x`, and in the second one it stands alone. -/
theorem parse_remarks :
    (∃ p, parse ruleless.readLimits "x:=5".toList = .ok p ∧
      (analyze p.tree p.notices {} true).effects = [.define "x" "5"]) ∧
    ∃ p, parse ruleless.readLimits "x+x".toList = .ok p ∧
      p.tree = .group [.leaf "x+x".toList] ∧
      Analysis.definitions (Analysis.plainText p.tree) = [] ∧
      Analysis.boundLetters p.tree (Analysis.plainText p.tree) = [] := by
  refine ⟨⟨_, parse_remark (.inl rfl), ?_⟩, _, parse_remark (.inr rfl), rfl, ?_, ?_⟩
  · have hunknown : ∀ s, ({} : Memory).isDefined s = false := fun _ => rfl
    obtain ⟨⟨hdefinitions, -⟩, hstructures⟩ := Analysis.definitions_assignment
    rw [Analysis.effects_analyze, plainText_remark (.inl rfl), hdefinitions, hstructures,
      List.filter_eq_nil_iff.mpr fun s _ => by simp [hunknown s]]
    rfl
  · rw [plainText_remark (.inr rfl)]
    exact Analysis.definitions_assignment.1.2
  · rw [plainText_remark (.inr rfl)]
    decide +kernel

theorem spoken_assignment : ∃ speech,
    ruleless.spoken? (remark "x:=5").toCall unused = some speech ∧
      speech.effects = [.define "x" "5"] := by
  obtain ⟨⟨p, hp, htold⟩, -⟩ := parse_remarks
  obtain ⟨speech, hcompute⟩ := compute_of_parse (e := ruleless)
    (l := ⟨remarkInput "x:=5", (remark "x:=5").expression, {}⟩)
    (d := ruleless.deadline (remark "x:=5").toCall) (fun _ => rfl) hp
  refine ⟨speech, spoken?_of_miss (s := unused) (c := (remark "x:=5").toCall)
    (check_remark (.inl rfl)) rfl hcompute, ?_⟩
  obtain ⟨p', -, hp', heffects, -⟩ := analysis_of_compute hcompute
  obtain rfl := Parsed.unique hp hp'
  rw [heffects]
  show (analyze p.tree p.notices {} true).effects ++ [] = _
  rw [htold, List.append_nil]

theorem memory_afterAssignment : afterAssignment.memories false = knowing := by
  obtain ⟨speech, hspoken, heffects⟩ := spoken_assignment
  have hmemory : (unused.memories false).commit speech.effects = ([], knowing) := by
    rw [heffects]
    decide +kernel
  rw [afterAssignment, List.nil_append, actAll_cons, actAll_cons, actAll_nil,
    memories_reset_of_ne (by decide), Step.act, engine_remark, memories_of_spoken hspoken,
    session_remark, Function.update_self, hmemory]

theorem lookups_remarks :
    lookupsOf ([] ++ .call (remark "x:=5") :: [.reset true] ++ [.call (remark "x+x")]) unused =
      remarkLookups := by
  have hfirst := lookup?_of_ok (c := (remark "x:=5").toCall) (s := unused)
    (check_remark (.inl rfl))
  have hsecond := lookup?_of_ok (c := (remark "x+x").toCall) (s := afterAssignment)
    (check_remark (.inr rfl))
  rw [session_remark, memory_afterAssignment] at hsecond
  rw [lookupsOf_append, ← afterAssignment]
  simp only [List.nil_append, lookupsOf, Step.lookups, List.append_nil, engine_remark, hfirst,
    hsecond]
  rfl

theorem noCollisions_remarks : NoCollisions remarkLookups where
  keys := by decide +kernel
  short := by decide +kernel
  fingerprints := by decide +kernel
  short_fingerprints := by decide +kernel

/-- The letter counts as used once in "x+x". -/
theorem known_once_defined_assigned_letter : ∃ o,
    (ruleless.serve (remark "x+x").toCall afterAssignment).1.answer = .ok o ∧
      .undefinedSymbol "x" ∉ o.warnings ∧
      (afterAssignment.memories false).refCount? "x" = some 0 ∧
      ((ruleless.serve (remark "x+x").toCall afterAssignment).2.memories false).refCount? "x" =
        some 1 := by
  obtain ⟨speech, hspoken, heffects⟩ := spoken_assignment
  obtain ⟨-, q, hq, htree, hdefinitions, hbound⟩ := parse_remarks
  have hcheck : Screening.check (remark "x+x").expression.text ruleless.config.limits =
      .ok (remarkInput "x+x") := check_remark (.inr rfl)
  obtain ⟨later, hcompute⟩ := compute_of_parse (e := ruleless)
    (l := ⟨remarkInput "x+x", (remark "x+x").expression, afterAssignment.memories false⟩)
    (d := ruleless.deadline (remark "x+x").toCall) (fun _ => rfl) hq
  obtain ⟨o, hanswer⟩ := answer_of_compute (c := (remark "x+x").toCall) (s := afterAssignment)
    hcheck hcompute
  have halone : q.tree.StandsAlone 'x' := by
    rw [htree]
    refine .inside rfl List.mem_cons_self (.leaf ⟨[], ['+', 'x'], rfl, by simp, ?_⟩)
    rintro _ ⟨⟩
    decide
  obtain ⟨hwarnings, hcount⟩ := known_once_defined (fun _ => {}) (some (.new 8 3600000))
    (fun c hc => Option.some.inj hc ▸ rfl) [] [.reset true] (remark "x:=5") (remark "x+x") rfl
    (by simp [remark]) (lookups_remarks ▸ noCollisions_remarks) speech hspoken "x" "5"
    (heffects ▸ List.mem_cons_self) o hanswer
  obtain ⟨n, hbefore, hafter⟩ := hcount 'x' rfl (by decide) (by decide) (by decide) _ hcheck _ q hq
    halone (hbound ▸ List.not_mem_nil) (hdefinitions ▸ rfl)
  have hzero : (afterAssignment.memories false).refCount? "x" = some 0 := by
    rw [memory_afterAssignment]
    decide +kernel
  obtain rfl : 0 = n := Option.some.inj (hzero.symm.trans hbefore)
  exact ⟨o, hanswer, hwarnings, hzero, hafter⟩

end

end SpokenMath.Engine
