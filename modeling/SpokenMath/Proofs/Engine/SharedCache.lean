import SpokenMath.Proofs.Engine.CacheTransparency
import SpokenMath.Proofs.Markup.DepthLimit

/-!
# Engines that share a cache

Several engines, each with a configuration of its own, serve calls on the same sessions and share
one cache. What an engine finds there was computed for the same cleaned text, perhaps by another
engine (`Filled`). Every limit of an engine is held before it looks anything up, except for the
limit on nesting: the reader applies it once more, in a way of its own, and the reader is not asked
when the cache answers.

**Theorem (`accepts_alone_or_tooDeep`).** What an engine accepts with a shared cache it accepts
without one, or else its own reader refuses the expression for nesting too deep. In that case the
speech goes back to an earlier call on an engine with a higher limit on nesting.

Such expressions exist (`accepts_what_nests_too_deep`): the screening counts delimiters, while the
reader also counts commands that stand as arguments without braces.
-/

namespace SpokenMath

/-- A call on one of several engines. -/
structure SharedCall (ι : Type) extends Call ι where
  engine : Engine

namespace Engine

variable {ι : Type}

/-- Serves calls on engines that share the cache of the service. -/
def serveEach [DecidableEq ι] : List (SharedCall ι) → Service ι → List Reply × Service ι
  | [], s => ([], s)
  | r :: rs, s =>
    let (reply, s) := r.engine.serve r.toCall s
    let (replies, s) := serveEach rs s
    (reply :: replies, s)

/-- The lookups of such a run, each with its engine. -/
def lookupsEach [DecidableEq ι] : List (SharedCall ι) → Service ι → List (Engine × Lookup)
  | [], _ => []
  | r :: rs, s =>
    ((r.engine.lookup? r.toCall s).map (r.engine, ·)).toList ++
      lookupsEach rs (r.engine.serve r.toCall s).2

/-- In these lookups no two different messages have the same key, and all messages are short enough
for their lengths to be written. -/
structure DistinctKeys (ls : List (Engine × Lookup)) : Prop where
  keys : ∀ l ∈ ls, ∀ l' ∈ ls, l.1.keyOf l.2 = l'.1.keyOf l'.2 →
    l.1.messageOf l.2 = l'.1.messageOf l'.2
  short : ∀ l ∈ ls, (l.1.messageOf l.2).length < UInt64.size

theorem DistinctKeys.mono {ls ls' : List (Engine × Lookup)} (h : DistinctKeys ls')
    (hsub : ls ⊆ ls') : DistinctKeys ls where
  keys l hl l' hl' := h.keys l (hsub hl) l' (hsub hl')
  short l hl := h.short l (hsub hl)

/-! ## What a key says of two engines -/

/-- The key of a call has the cleaned text in it, whatever the engine. -/
theorem text_of_messageOf {e e' : Engine} {l l' : Lookup} (hl : e.Screened l)
    (hl' : e'.Screened l') (hshort : (e.messageOf l).length < UInt64.size)
    (h : e.messageOf l = e'.messageOf l') : l.input.text = l'.input.text := by
  obtain ⟨raw, hraw⟩ := hl
  obtain ⟨raw', hraw'⟩ := hl'
  have htext := (KeyPart.text_cons_inj hshort h).1
  rwa [Screening.collapse_text_of_check hraw, Screening.collapse_text_of_check hraw'] at htext

theorem maxDepth_of_screened {e : Engine} {l : Lookup} (h : e.Screened l) :
    l.input.maxDepth = e.config.limits.maxDepth := by
  obtain ⟨raw, hraw⟩ := h
  exact (Screening.text_of_check hraw).2

/-! ## What is in a shared cache -/

/-- Every entry is the speech of an earlier lookup on some engine, under the key of that lookup. -/
def Filled (past : List (Engine × Lookup)) : Option SpeechCache → Prop :=
  EveryEntry fun k s => ∃ l ∈ past, l.1.Screened l.2 ∧ l.1.keyOf l.2 = k ∧ l.1.speechOf l.2 = .ok s

theorem Filled.mono {past past' : List (Engine × Lookup)} {cache : Option SpeechCache}
    (h : Filled past cache) (hsub : past ⊆ past') : Filled past' cache :=
  h.imp fun _ _ ⟨l, hl, hrest⟩ => ⟨l, hsub hl, hrest⟩

/-- A call adds no entry but the speech of its own lookup. -/
theorem Filled.serve [DecidableEq ι] {past : List (Engine × Lookup)} {s : Service ι}
    (h : Filled past s.cache) {r : SharedCall ι} (hr : r.Timely) :
    Filled (past ++ ((r.engine.lookup? r.toCall s).map (r.engine, ·)).toList)
      (r.engine.serve r.toCall s).2.cache := by
  have hmore := h.mono (List.subset_append_left past
    ((r.engine.lookup? r.toCall s).map (r.engine, ·)).toList)
  refine EveryEntry.serve hmore fun input speech hcheck hcompute => ?_
  let l : Lookup := ⟨input, r.expression, s.memories r.session⟩
  have hspeech : r.engine.speechOf l = .ok speech := by rwa [speechOf, ← deadline_eq hr]
  rw [lookup?_of_ok hcheck]
  exact ⟨(r.engine, l), List.mem_append_right past List.mem_cons_self, ⟨r.expression.text, hcheck⟩,
    rfl, hspeech⟩

theorem Filled.serveEach [DecidableEq ι] {past : List (Engine × Lookup)} {s : Service ι}
    (h : Filled past s.cache) {rs : List (SharedCall ι)} (hrs : ∀ r ∈ rs, r.Timely) :
    Filled (past ++ lookupsEach rs s) (Engine.serveEach rs s).2.cache := by
  induction rs generalizing past s with
  | nil => rwa [lookupsEach, List.append_nil]
  | cons r rs ih =>
    rw [lookupsEach, ← List.append_assoc]
    exact ih (h.serve (hrs r List.mem_cons_self)) fun q hq => hrs q (List.mem_cons_of_mem r hq)

theorem lookupsEach_append [DecidableEq ι] (rs qs : List (SharedCall ι)) (s : Service ι) :
    lookupsEach (rs ++ qs) s = lookupsEach rs s ++ lookupsEach qs (serveEach rs s).2 := by
  induction rs generalizing s with
  | nil => rfl
  | cons r rs ih =>
    simp only [List.cons_append, lookupsEach, ih, Engine.serveEach, List.append_assoc]

/-- The engine of a lookup is the engine of a call. -/
theorem engine_of_mem_lookupsEach [DecidableEq ι] {rs : List (SharedCall ι)} {s : Service ι}
    {l : Engine × Lookup} (h : l ∈ lookupsEach rs s) : ∃ r ∈ rs, r.engine = l.1 := by
  induction rs generalizing s with
  | nil => cases h
  | cons r rs ih =>
    rcases List.mem_append.mp h with h | h
    · obtain ⟨l', -, rfl⟩ := Option.map_eq_some_iff.mp (Option.mem_toList.mp h)
      exact ⟨r, List.mem_cons_self, rfl⟩
    · obtain ⟨q, hq, heq⟩ := ih h
      exact ⟨q, List.mem_cons_of_mem r hq, heq⟩

/-! ## Accepting alone -/

/-- The limits under which an engine reads a lookup when time does not matter. -/
def readLimits (e : Engine) : ReadLimits :=
  ⟨e.config.limits.maxDepth, .never e.config.timeout⟩

theorem speechOf_of_parse {e : Engine} {l : Lookup} (hl : e.Screened l) {p : Parsed}
    (h : parse e.readLimits l.input.text = .ok p) : ∃ s, e.speechOf l = .ok s := by
  rw [readLimits, ← maxDepth_of_screened hl] at h
  exact compute_of_parse (fun _ => rfl) h

theorem speechOf_of_unread {e : Engine} {l : Lookup} (hl : e.Screened l) {error : ReadError}
    (h : parse e.readLimits l.input.text = .error error) :
    e.speechOf l = .error (.ofReadError e.config.timeout error) := by
  rw [readLimits, ← maxDepth_of_screened hl] at h
  simp only [speechOf, compute, h]
  rfl

/-- What one engine computes for a text another one computes as well, or refuses for nesting too
deep. -/
theorem speechOf_or_tooDeep {e e' : Engine} {l l' : Lookup} (hl : e.Screened l)
    (hl' : e'.Screened l') (htext : l.input.text = l'.input.text) {s : Speech}
    (hs : e'.speechOf l' = .ok s) :
    (∃ s', e.speechOf l = .ok s') ∨
      e.config.limits.maxDepth < e'.config.limits.maxDepth ∧
        e.speechOf l = .error (.refused
          (.tooDeep (e.config.limits.maxDepth + 1) e.config.limits.maxDepth)) := by
  cases hread' : parse e'.readLimits l'.input.text with
  | error error =>
    rw [speechOf_of_unread hl' hread'] at hs
    cases hs
  | ok p =>
    rw [← htext] at hread'
    by_cases hle : e'.config.limits.maxDepth ≤ e.config.limits.maxDepth
    · have hbelow : e'.readLimits.Below e.readLimits := ⟨hle, rfl⟩
      rcases parse_lowered hbelow l.input.text with heq | heq
      · exact .inl (speechOf_of_parse hl (heq.symm.trans hread'))
      · rw [hread'] at heq
        cases heq
    · have hlt := Nat.lt_of_not_le hle
      have hbelow : e.readLimits.Below e'.readLimits := ⟨hlt.le, rfl⟩
      rcases parse_lowered hbelow l.input.text with heq | heq
      · exact .inl (speechOf_of_parse hl (heq.trans hread'))
      · exact .inr ⟨hlt, speechOf_of_unread hl heq⟩

/-- What an engine without a cache answers is what it computes. -/
theorem process_alone {e : Engine} {x : Expression} {m : Memory} {d : Deadline} {now : UInt64}
    {input : SafeInput} (hcheck : Screening.check x.text e.config.limits = .ok input) :
    (e.process x d now m none).1 =
      (e.compute input x m d).map fun s => s.outcome (m.commit s.effects).1 false := by
  simp only [process, hcheck, lookup]
  cases e.compute input x m d <;> rfl

/-- What is found in a shared cache was computed for the same text, perhaps by another engine. -/
theorem Filled.found {past ls : List (Engine × Lookup)} {cache : Option SpeechCache} {e : Engine}
    {l : Lookup} {now : UInt64} {speech : Speech} (hfilled : Filled past cache)
    (hkeys : DistinctKeys ls) (hpast : past ⊆ ls) (hmem : (e, l) ∈ ls) (hl : e.Screened l)
    (h : (Engine.lookup cache (e.keyOf l) now).1 = some speech) :
    ∃ l' ∈ past, l'.1.Screened l'.2 ∧ l.input.text = l'.2.input.text ∧
      l'.1.speechOf l'.2 = .ok speech := by
  obtain ⟨l', hl', hscreened', hkey, hspeech'⟩ := EveryEntry.found hfilled h
  have hmessage : e.messageOf l = l'.1.messageOf l'.2 :=
    hkeys.keys (e, l) hmem l' (hpast hl') hkey.symm
  exact ⟨l', hl', hscreened', text_of_messageOf hl hscreened' (hkeys.short (e, l) hmem) hmessage,
    hspeech'⟩

/-- One call on a cache that is filled by earlier lookups. -/
theorem Filled.accepts_or_tooDeep [DecidableEq ι] {past : List (Engine × Lookup)}
    {s : Service ι} (hfilled : Filled past s.cache) {r : SharedCall ι} (hr : r.Timely)
    (hkeys : DistinctKeys (past ++ lookupsEach [r] s)) {o : Outcome}
    (hanswer : (r.engine.serve r.toCall s).1.answer = .ok o) :
    let alone := (r.engine.process r.expression (r.engine.deadline r.toCall) r.now
      (s.memories r.session) none).1
    let limit := r.engine.config.limits.maxDepth
    (∃ o', alone = .ok o') ∨
      alone = .error (.refused (.tooDeep (limit + 1) limit)) ∧
        ∃ l ∈ past, limit < l.1.config.limits.maxDepth := by
  intro alone limit
  cases hcheck : Screening.check r.expression.text r.engine.config.limits with
  | error v =>
    rw [serve_of_refused hcheck] at hanswer
    cases hanswer
  | ok input =>
    let l : Lookup := ⟨input, r.expression, s.memories r.session⟩
    have hscreened : r.engine.Screened l := ⟨r.expression.text, hcheck⟩
    have halone : alone = (r.engine.speechOf l).map fun speech =>
        speech.outcome (l.memory.commit speech.effects).1 false := by
      rw [speechOf, ← deadline_eq hr]
      exact process_alone hcheck
    have hmem : (r.engine, l) ∈ past ++ lookupsEach [r] s := by
      rw [lookupsEach, lookup?_of_ok hcheck]
      exact List.mem_append_right _ List.mem_cons_self
    rw [halone]
    cases hlookup : Engine.lookup s.cache (r.engine.keyOf l) r.now with
    | mk found cache =>
    cases found with
    | none =>
      cases hspeech : r.engine.speechOf l with
      | ok s => exact .inl ⟨_, rfl⟩
      | error error =>
        rw [serve_of_failure hcheck hlookup (by rw [deadline_eq hr]; exact hspeech)] at hanswer
        cases hanswer
    | some speech =>
      obtain ⟨l', hl', hscreened', htext, hspeech'⟩ := hfilled.found hkeys
        (List.subset_append_left past _) hmem hscreened (congrArg Prod.fst hlookup)
      rcases speechOf_or_tooDeep hscreened hscreened' htext hspeech' with ⟨s, hs⟩ | ⟨hlt, hs⟩
      · rw [hs]
        exact .inl ⟨_, rfl⟩
      · rw [hs]
        exact .inr ⟨rfl, l', hl', hlt⟩

theorem filled_new (capacity ttl : Nat) : Filled [] (some (.new capacity ttl)) := by
  intro c hc k entry hmem
  obtain rfl := Option.some.inj hc
  cases hmem

/-- **A shared cache lets an engine accept more only where its own reader nests too deep.** Engines
with any configurations and rule books serve calls on a cache that they share and that was empty at
first. If the next call succeeds, its engine without any cache accepts the same expression in the
same memory, or refuses it one level beyond its limit on nesting; and then an earlier call was
served by an engine with a higher limit. -/
theorem accepts_alone_or_tooDeep [DecidableEq ι] (capacity ttl : Nat) (memories : ι → Memory)
    (before : List (SharedCall ι)) (r : SharedCall ι)
    (htimely : ∀ q ∈ before ++ [r], q.Timely)
    (hkeys : DistinctKeys (lookupsEach (before ++ [r]) ⟨memories, some (.new capacity ttl)⟩))
    (o : Outcome)
    (hanswer : (r.engine.serve r.toCall
      (serveEach before ⟨memories, some (.new capacity ttl)⟩).2).1.answer = .ok o) :
    let m := (serveEach before ⟨memories, some (.new capacity ttl)⟩).2.memories r.session
    let alone := (r.engine.process r.expression (r.engine.deadline r.toCall) r.now m none).1
    let limit := r.engine.config.limits.maxDepth
    (∃ o', alone = .ok o') ∨
      alone = .error (.refused (.tooDeep (limit + 1) limit)) ∧
        ∃ q ∈ before, limit < q.engine.config.limits.maxDepth := by
  intro m alone limit
  have hfilled := (filled_new capacity ttl).serveEach (s := ⟨memories, _⟩)
    fun q hq => htimely q (List.mem_append_left [r] hq)
  have hr : r.Timely := htimely r (List.mem_append_right before List.mem_cons_self)
  rw [lookupsEach_append] at hkeys
  rcases hfilled.accepts_or_tooDeep hr hkeys hanswer with haccept | ⟨hdeep, l, hl, hlt⟩
  · exact .inl haccept
  · obtain ⟨q, hq, heq⟩ := engine_of_mem_lookupsEach hl
    exact .inr ⟨hdeep, q, hq, heq ▸ hlt⟩

theorem lookup_some (d : SpeechCache) (k : Digest) (now : UInt64) :
    lookup (some d) k now = ((d.get k now).1, some (d.get k now).2) := rfl

/-- What one engine computes another one finds, if their keys agree. -/
theorem answer_of_shared [DecidableEq ι] {e e' : Engine} {c c' : Call ι} {s : Service ι}
    {d : SpeechCache} {input input' : SafeInput} {speech : Speech} (hcache : s.cache = some d)
    (hmiss : (d.get (e.key input c.expression (s.memories c.session)) c.now).1 = none)
    (hcapacity : 0 < d.capacity) (httl : UInt64.ofNat d.ttl ≠ 0)
    (hcheck : Screening.check c.expression.text e.config.limits = .ok input)
    (hcompute : e.compute input c.expression (s.memories c.session) (e.deadline c) = .ok speech)
    (hcheck' : Screening.check c'.expression.text e'.config.limits = .ok input')
    (hkey : e'.key input' c'.expression (s.memories c'.session) =
      e.key input c.expression (s.memories c.session))
    (hsession : c'.session ≠ c.session) (hnow : c'.now = c.now) :
    ∃ o, (e'.serve c' (e.serve c s).2).1.answer = .ok o := by
  let k := e.key input c.expression (s.memories c.session)
  let d' := (d.get k c.now).2
  have hlookup : lookup s.cache k c.now = (none, some d') := by
    rw [hcache, lookup_some, hmiss]
  have hfound : ((d'.insert k speech c.now).get k c.now).1 = some speech := by
    apply Cache.get_insert
    · rw [Cache.capacity_get]
      exact hcapacity
    · rw [Cache.ttl_get]
      exact Entry.isExpired_at_insertion speech c.now httl
  have hmemory := memories_serve_of_ne (e := e) (s := s) hsession
  rw [serve_of_computed hcheck hlookup hcompute] at hmemory ⊢
  rw [← hmemory] at hkey
  rw [serve_of_hit hcheck' (by rw [hkey, hnow, Option.map_some, lookup_some, hfound])]
  exact ⟨_, rfl⟩

/-! ## An expression that nests too deep

There is no delimiter in "\\vec\\vec\\vec x", so the screening sees no nesting, while its reader goes
down two levels. -/

/-- Three accents without braces. -/
def accents : Expression := { text := "\\vec\\vec\\vec x".toList }

/-- An engine as it is configured by default. -/
def roomy : Engine := ⟨{}, .standard⟩

/-- An engine that lets nothing nest deeper than one level. -/
def narrow : Engine := ⟨{ limits := { maxDepth := 1 } }, .standard⟩

/-- A session of its own for each of the two engines. -/
def accentCall (e : Engine) (session : Bool) : SharedCall Bool :=
  ⟨⟨session, accents, fun _ => none, 0⟩, e⟩

/-- Two sessions that know nothing, and an empty cache. -/
def unused : Service Bool := ⟨fun _ => {}, some (.new 8 3600000)⟩

/-- The service behind the call on the roomy engine. -/
def afterRoomy : Service Bool := (serveEach [accentCall roomy false] unused).2

theorem check_accents {e : Engine} (h : e = roomy ∨ e = narrow) :
    Screening.check accents.text e.config.limits =
      .ok ⟨accents.text, [], 14, e.config.limits.maxDepth⟩ := by
  rcases h with rfl | rfl <;> exact Screening.check_eq_ok_iff.mpr (by decide +kernel)

theorem memory_afterRoomy : afterRoomy.memories true = {} :=
  memories_serve_of_ne (e := roomy) (c := (accentCall roomy false).toCall) (s := unused)
    (show true ≠ false by decide)

/-- The limit on nesting is not in the key. -/
theorem key_accents (m : Memory) : narrow.key ⟨accents.text, [], 14, 1⟩ accents m =
    roomy.key ⟨accents.text, [], 14, 48⟩ accents m :=
  congrArg KeyPart.key (show narrow.keyParts _ accents m = roomy.keyParts _ accents m from rfl)

/-- The narrow engine finds what the roomy one put in. -/
theorem serve_afterRoomy : ∃ o,
    (narrow.serve (accentCall narrow true).toCall afterRoomy).1.answer = .ok o := by
  have hread : (parse roomy.readLimits accents.text).toOption.isSome := by decide +kernel
  cases hparse : parse roomy.readLimits accents.text with
  | error error =>
    rw [hparse] at hread
    cases hread
  | ok p =>
    obtain ⟨speech, hspeech⟩ := compute_of_parse (e := roomy)
      (l := ⟨⟨accents.text, [], 14, 48⟩, accents, {}⟩) (fun _ => rfl) hparse
    have hcheck := check_accents (e := roomy) (.inl rfl)
    have hcheck' := check_accents (e := narrow) (.inr rfl)
    exact answer_of_shared (s := unused) (c := (accentCall roomy false).toCall) rfl
      (Cache.get_new 8 3600000) (by decide) (by decide) hcheck hspeech hcheck' (key_accents {})
      (by decide) rfl

/-- The narrow engine speaks the accents once the roomy one has, and refuses them without a
cache. -/
theorem accepts_what_nests_too_deep :
    (∃ o, (narrow.serve (accentCall narrow true).toCall afterRoomy).1.answer = .ok o) ∧
      (narrow.process accents (.never 2000) 0 (afterRoomy.memories true) none).1 =
        .error (.refused (.tooDeep 2 1)) := by
  have hcheck : Screening.check accents.text narrow.config.limits = .ok ⟨accents.text, [], 14, 1⟩ :=
    check_accents (.inr rfl)
  have hread : (parse narrow.readLimits accents.text).map (fun _ => ()) =
      .error (.tooDeep 2 1) := by decide +kernel
  refine ⟨serve_afterRoomy, ?_⟩
  rw [process_alone hcheck]
  cases hparse : parse narrow.readLimits accents.text with
  | ok p =>
    rw [hparse] at hread
    cases hread
  | error error =>
    rw [hparse] at hread
    obtain rfl := Except.error.inj hread
    have hunread := speechOf_of_unread
      (l := ⟨⟨accents.text, [], 14, 1⟩, accents, afterRoomy.memories true⟩)
      ⟨accents.text, hcheck⟩ hparse
    exact congrArg (Except.map _) hunread

/-- Both calls look the same message up, as the second session knows as little as the first. -/
theorem distinctKeys_accents :
    DistinctKeys (lookupsEach ([accentCall roomy false] ++ [accentCall narrow true]) unused) := by
  have hroomy := lookup?_of_ok (c := (accentCall roomy false).toCall) (s := unused)
    (check_accents (.inl rfl))
  have hnarrow := lookup?_of_ok (c := (accentCall narrow true).toCall) (s := afterRoomy)
    (check_accents (.inr rfl))
  have hmessage : ∀ l ∈ lookupsEach ([accentCall roomy false] ++ [accentCall narrow true]) unused,
      l.1.messageOf l.2 = roomy.messageOf ⟨⟨accents.text, [], 14, 48⟩, accents, {}⟩ := by
    intro l hl
    rw [lookupsEach_append] at hl
    rcases List.mem_append.mp hl with hl | hl
    · rw [lookupsEach, lookupsEach, List.append_nil] at hl
      obtain ⟨l', hl', rfl⟩ := Option.map_eq_some_iff.mp (Option.mem_toList.mp hl)
      obtain rfl := Option.some.inj (hroomy.symm.trans hl')
      rfl
    · rw [lookupsEach, lookupsEach, List.append_nil] at hl
      obtain ⟨l', hl', rfl⟩ := Option.map_eq_some_iff.mp (Option.mem_toList.mp hl)
      obtain rfl := Option.some.inj (hnarrow.symm.trans hl')
      rw [show (accentCall narrow true).session = true from rfl, memory_afterRoomy]
      rfl
  constructor
  · intro l hl l' hl' _
    rw [hmessage l hl, hmessage l' hl']
  · intro l hl
    rw [hmessage l hl]
    simp only [messageOf, keyMessage, keyParts, KeyPart.encode, List.flatMap_cons,
      List.flatMap_nil, List.length_append, length_lengthPrefixed, length_littleEndian64,
      length_bigEndian64]
    decide +kernel

theorem accepts_alone_or_tooDeep_accents :
    (∀ q ∈ [accentCall roomy false] ++ [accentCall narrow true], q.Timely) ∧
      DistinctKeys (lookupsEach ([accentCall roomy false] ++ [accentCall narrow true]) unused) ∧
      ∃ o, (narrow.serve (accentCall narrow true).toCall afterRoomy).1.answer = .ok o ∧
        let alone := (narrow.process accents (narrow.deadline (accentCall narrow true).toCall) 0
          (afterRoomy.memories true) none).1
        (∃ o', alone = .ok o') ∨
          alone = .error (.refused (.tooDeep 2 1)) ∧
            ∃ q ∈ [accentCall roomy false], 1 < q.engine.config.limits.maxDepth := by
  have htimely : ∀ q ∈ [accentCall roomy false] ++ [accentCall narrow true], q.Timely := by
    intro q hq
    simp only [List.cons_append, List.nil_append, List.mem_cons, List.not_mem_nil, or_false] at hq
    rcases hq with rfl | rfl <;> exact fun _ => rfl
  obtain ⟨o, ho⟩ := serve_afterRoomy
  exact ⟨htimely, distinctKeys_accents, o, ho,
    accepts_alone_or_tooDeep 8 3600000 (fun _ => {}) [accentCall roomy false]
      (accentCall narrow true) htimely distinctKeys_accents o ho⟩

end Engine

end SpokenMath
