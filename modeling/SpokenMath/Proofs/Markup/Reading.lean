import SpokenMath.Proofs.Markup.Course
import SpokenMath.Proofs.Markup.DepthLimit

/-!
# The reader follows the grammar

**Theorem (`reads_of_parse`).** What the reader makes of a legible text is what the grammar says.

**Theorem (`exists_parse_of_reads`).** What the grammar says of a text the reader makes of it, if
nesting has no limit that matters and time does not run out. The supply of steps that is computed
from the tokens is enough, as every part takes steps in proportion to the weight that it reads.
-/

namespace SpokenMath

namespace Reading

theorem bind_eq_ok {ε α β : Type} {x : Except ε α} {f : α → Except ε β} {b : β} :
    (x >>= f) = .ok b ↔ ∃ a, x = .ok a ∧ f a = .ok b := by
  cases x with
  | error e => exact ⟨nofun, nofun⟩
  | ok a => exact ⟨fun h => ⟨a, rfl, h⟩, fun ⟨_, ha, h⟩ => Except.ok.inj ha ▸ h⟩

theorem ok_bind {ε α β : Type} (a : α) (f : α → Except ε β) : (Except.ok a >>= f) = f a := rfl

variable {limits : ReadLimits} {supply depth levels : Nat} {s s' : Reading}

/-! ## The reader is sound -/

/-- What the grammar says of a task, unless an environment is read. -/
def Task.Says : Task → List Token → List Node → List Token → Prop
  | nodes stop acc, ts, ns, rest => stop ≠ .atCell → Reads (.nodes stop acc) ts ns rest
  | group, ts, ns, rest => Reads .group ts ns rest
  | argument, ts, ns, rest => Reads .argument ts ns rest
  | optional allowed, ts, ns, rest => Reads (.optional allowed) ts ns rest
  | command name, ts, ns, rest =>
    name ≠ "begin" → name ≠ "end" → Reads (.command name) ts ns rest
  | arguments n, ts, ns, rest => Reads (.arguments n) ts ns rest
  | rows _ _ _, _, _, _ => True
  | scripts base sub sup, ts, ns, rest => Reads (.scripts base sub sup) ts ns rest

/-- On tidy tokens the course is that of the grammar. -/
theorem Course.says {task : Task} {ts rest : List Token} {ns : List Node} {said : List Notice}
    (h : Course levels task ts ns rest said) (hts : ∀ tok ∈ ts, tok.Tidy) :
    task.Says ts ns rest := by
  induction h with
  | atEnd => exact fun _ => .atEnd
  | closed hcloses =>
    obtain ⟨rfl, rfl⟩ | ⟨rfl, rfl⟩ := hcloses
    · exact fun _ => .closeBrace
    · exact fun _ => .closeBracket
  | cellEnd => exact fun hcell => absurd rfl hcell
  | strayBrace hbrace hcell _ ih =>
    exact fun _ => .strayBrace hbrace hcell (ih (List.forall_mem_cons.mp hts).2 hcell)
  | literal hrun _ ih =>
    exact fun hcell => .literal hrun (ih (List.forall_mem_cons.mp hts).2 hcell)
  | braces _ _ ih ih' =>
    have hgroup := ih (List.forall_mem_cons.mp hts).2
    exact fun hcell =>
      .braces hgroup (ih' (hgroup.tidy (List.forall_mem_cons.mp hts).2) hcell)
  | sign _ ih => exact fun hcell => .sign (ih (List.forall_mem_cons.mp hts).2 hcell)
  | word _ _ _ ih ih' =>
    obtain ⟨hname, hts⟩ := List.forall_mem_cons.mp hts
    have hword := ih hts hname.2.1 hname.2.2
    exact fun hcell => .word hword (ih' (hword.tidy hts) hcell)
  | marks hmark _ _ ih ih' =>
    have hscripts := ih hts
    exact fun hcell => .marks hmark hscripts (ih' (hscripts.tidy hts) hcell)
  | group _ ih => exact .group (ih hts (by decide))
  | argBlank hblank _ ih => exact .argBlank hblank (ih (List.forall_mem_cons.mp hts).2)
  | argChar hrun => exact .argChar hrun
  | argGroup _ ih => exact .argGroup (ih (List.forall_mem_cons.mp hts).2)
  | argWord hend _ ih =>
    obtain ⟨hname, hts⟩ := List.forall_mem_cons.mp hts
    have hargument := Reads.argWord (ih hts hname.2.1 hend)
    rwa [Option.head?_toList] at hargument
  | argSign => exact .argSign
  | argMissing hmissing =>
    refine .argMissing (hmissing.resolve_right fun hhead => ?_)
    exact (hts _ (List.mem_of_head? hhead)).2.2 rfl
  | brackets hopen _ ih =>
    refine .brackets hopen (ih (fun tok htok => hts tok ?_) (by decide))
    exact (skipBlank_suffix _).subset (hopen ▸ List.mem_cons_of_mem _ htok)
  | noBrackets hopen => exact .noBrackets hopen
  | environment => exact fun hbegin => absurd rfl hbegin
  | strayEnd => exact fun _ hend => absurd rfl hend
  | sizer hname => exact fun _ _ => .sizer hname
  | known hname hshape _ _ ih ih' =>
    have hoptional := ih hts
    have hknown := Reads.known hname hshape hoptional (ih' (hoptional.tidy hts))
    rw [Option.head?_toList] at hknown
    exact fun _ _ => hknown
  | unknownBraces hname hshape _ ih =>
    exact fun _ _ => .unknownBraces hname hshape (ih (List.forall_mem_cons.mp hts).2)
  | unknownBare hname hshape hopen => exact fun _ _ => .unknownBare hname hshape hopen
  | noArguments => exact .noArguments
  | moreArguments _ _ ih ih' =>
    have harg := ih hts
    exact .moreArguments harg (ih' (harg.tidy hts))
  | nextCell | nextRow | lastCell | unclosed => trivial
  | subscript _ _ ih ih' =>
    have harg := ih (List.forall_mem_cons.mp hts).2
    exact .subscript harg (ih' (harg.tidy (List.forall_mem_cons.mp hts).2))
  | superscript _ _ ih ih' =>
    have harg := ih (List.forall_mem_cons.mp hts).2
    exact .superscript harg (ih' (harg.tidy (List.forall_mem_cons.mp hts).2))
  | scripted hmark => exact .scripted hmark

/-! ## The reader is complete -/

/-- What the reader does for a part. -/
def Part.read (limits : ReadLimits) (supply depth : Nat) :
    Part → Reading → Except ReadError (List Node × Reading)
  | nodes stop acc, s => readNodes limits supply depth stop acc s
  | group, s => do
    let (n, s) ← readGroup limits supply depth s
    .ok ([n], s)
  | argument, s => do
    let (n, s) ← readArgument limits supply depth s
    .ok ([n], s)
  | optional true, s => do
    let (n, s) ← readOptional limits supply depth s
    .ok (n.toList, s)
  | optional false, s => .ok ([], s)
  | command name, s => do
    let (n, s) ← readCommand limits supply depth name s
    .ok (n.toList, s)
  | arguments n, s => times (readArgument limits supply depth) n s
  | scripts base sub sup, s => do
    let (n, s) ← readScripts limits supply depth base sub sup s
    .ok ([n], s)

theorem singleton_eq_ok {x : Except ReadError (Node × Reading)} {n : Node} :
    (do let (m, s) ← x; .ok ([m], s)) = .ok ([n], s') ↔ x = .ok (n, s') := by
  rw [bind_eq_ok]
  refine ⟨?_, fun h => ⟨(n, s'), h, rfl⟩⟩
  rintro ⟨⟨m, t⟩, hx, h⟩
  cases h
  exact hx

theorem toList_eq_ok {x : Except ReadError (Option Node × Reading)} {ns : List Node} :
    (do let (o, s) ← x; .ok (o.toList, s)) = .ok (ns, s') ↔
      ∃ o, o.toList = ns ∧ x = .ok (o, s') := by
  rw [bind_eq_ok]
  constructor
  · rintro ⟨⟨o, t⟩, hx, h⟩
    cases h
    exact ⟨o, rfl, hx⟩
  · rintro ⟨o, rfl, hx⟩
    exact ⟨(o, s'), hx, rfl⟩

/-- The steps that a part may take beyond those for the weight that it reads. -/
def Part.cost : Part → Nat
  | nodes _ _ | command _ => 2
  | group => 3
  | argument | optional _ | arguments _ | scripts _ _ _ => 1

theorem tick_of_patient (h : Patient limits) (s : Reading) :
    ∃ t, s.tick limits = .ok t ∧ t.tokens = s.tokens := by
  unfold Patient at h
  simp only [tick, h]
  split <;> exact ⟨_, rfl, rfl⟩

theorem deeper_of_lt (h : depth + 1 ≤ limits.maxDepth) : deeper limits depth = .ok (depth + 1) :=
  if_neg (Nat.not_lt.mpr h)

/-- Under some limits on nesting, the reader gives the nodes for a part and leaves the rest. -/
def Readable (part : Part) (ts : List Token) (ns : List Node) (rest : List Token) : Prop :=
  ∃ extra, ∀ limits supply depth s, Patient limits → s.tokens = ts →
    depth + extra ≤ limits.maxDepth → 8 * weigh ts + part.cost ≤ supply + 8 * weigh rest →
    ∃ s', part.read limits supply depth s = .ok (ns, s') ∧ s'.tokens = rest

namespace Readable

variable {part : Part} {ts ts' rest : List Token} {ns : List Node}

/-- There is always one step to take. -/
theorem intro (extra : Nat) (hle : weigh rest ≤ weigh ts) (hcost : 0 < part.cost)
    (h : ∀ limits supply depth s, Patient limits → s.tokens = ts →
      depth + extra ≤ limits.maxDepth → 8 * weigh ts + part.cost ≤ supply + 1 + 8 * weigh rest →
      ∃ s', part.read limits (supply + 1) depth s = .ok (ns, s') ∧ s'.tokens = rest) :
    Readable part ts ns rest := by
  refine ⟨extra, fun limits supply depth s hlimits hs hdepth hsupply => ?_⟩
  obtain ⟨supply, rfl⟩ : ∃ n, supply = n + 1 := Nat.exists_eq_add_one.mpr (by omega)
  exact h limits supply depth s hlimits hs hdepth hsupply

/-- A part that looks at the clock first. -/
theorem ticked (extra : Nat) (hle : weigh rest ≤ weigh ts) (hcost : 0 < part.cost)
    (h : ∀ limits supply depth s t, Patient limits → s.tick limits = .ok t → t.tokens = ts →
      depth + extra ≤ limits.maxDepth → 8 * weigh ts + part.cost ≤ supply + 1 + 8 * weigh rest →
      ∃ s', part.read limits (supply + 1) depth s = .ok (ns, s') ∧ s'.tokens = rest) :
    Readable part ts ns rest := by
  refine intro extra hle hcost fun limits supply depth s hlimits hs hdepth hsupply => ?_
  obtain ⟨t, htick, ht⟩ := tick_of_patient hlimits s
  exact h limits supply depth s t hlimits htick (ht.trans hs) hdepth hsupply

theorem atEnd {stop : Stop} {acc : List Node} : Readable (.nodes stop acc) [] acc.reverse [] := by
  refine ticked 0 (Nat.le_refl _) Nat.zero_lt_two
    fun limits supply depth s t hlimits htick ht hdepth hsupply => ?_
  simp only [Part.read, readNodes, htick, ok_bind, ht]
  split
  · exact ⟨_, rfl, by rw [tokens_noteOnce, ht]⟩
  · exact ⟨_, rfl, ht⟩

theorem closeBrace {acc : List Node} :
    Readable (.nodes .atBrace acc) (.closeBrace :: ts) acc.reverse ts := by
  refine ticked 0 (Nat.le_add_left _ _) Nat.zero_lt_two
    fun limits supply depth s t hlimits htick ht hdepth hsupply => ?_
  simp only [Part.read, readNodes, htick, ok_bind, ht, if_true]
  exact ⟨_, rfl, rfl⟩

theorem closeBracket {acc : List Node} :
    Readable (.nodes .atBracket acc) (.closeBracket :: ts) acc.reverse ts := by
  refine ticked 0 (Nat.le_add_left _ _) Nat.zero_lt_two
    fun limits supply depth s t hlimits htick ht hdepth hsupply => ?_
  simp only [Part.read, readNodes, htick, ok_bind, ht, if_true]
  exact ⟨_, rfl, rfl⟩

theorem strayBrace {stop : Stop} {acc : List Node} (hbrace : stop ≠ .atBrace)
    (hcell : stop ≠ .atCell) (hle : weigh rest ≤ weigh ts)
    (h : Readable (.nodes stop acc) ts ns rest) :
    Readable (.nodes stop acc) (.closeBrace :: ts) ns rest := by
  obtain ⟨extra, h⟩ := h
  refine ticked extra (hle.trans (Nat.le_add_left _ _)) Nat.zero_lt_two
    fun limits supply depth s t hlimits htick ht hdepth hsupply => ?_
  simp only [Part.read, readNodes, htick, ok_bind, ht, if_neg hbrace, if_neg hcell]
  simp only [weigh_cons, weight, Part.cost] at hsupply
  exact h limits supply depth _ hlimits (tokens_noteOnce _ _) hdepth
    (by simp only [Part.cost]; omega)

theorem literal {stop : Stop} {acc : List Node} {tok : Token} {run : Text}
    (hrun : literal? stop tok = some run) (hle : weigh rest ≤ weigh ts)
    (h : Readable (.nodes stop (pushText run acc)) ts ns rest) :
    Readable (.nodes stop acc) (tok :: ts) ns rest := by
  obtain ⟨extra, h⟩ := h
  refine ticked extra (hle.trans (Nat.le_add_left _ _)) Nat.zero_lt_two
    fun limits supply depth s t hlimits htick ht hdepth hsupply => ?_
  have hpos := weight_pos tok
  rw [weigh_cons] at hsupply
  have hread := h limits supply depth (t.at' ts) hlimits rfl hdepth
    (by simp only [Part.cost] at hsupply ⊢; omega)
  simp only [Part.read, readNodes, htick, ok_bind] at hread ⊢
  rcases literal_cases hrun with rfl | ⟨rfl, rfl⟩ | ⟨⟨rfl, hstop⟩, rfl⟩ |
    ⟨⟨rfl | rfl, hstop⟩, rfl⟩
  · simpa only [ht] using hread
  · simpa only [ht] using hread
  · simpa only [ht, if_neg hstop] using hread
  · simpa only [ht, if_neg hstop] using hread
  · simpa only [ht, if_neg hstop] using hread

theorem sign {stop : Stop} {acc : List Node} {c : Char} (hle : weigh rest ≤ weigh ts)
    (h : Readable (.nodes stop (.bare (String.singleton c) :: acc)) ts ns rest) :
    Readable (.nodes stop acc) (.escaped c :: ts) ns rest := by
  obtain ⟨extra, h⟩ := h
  refine ticked extra (hle.trans (Nat.le_add_left _ _)) Nat.zero_lt_two
    fun limits supply depth s t hlimits htick ht hdepth hsupply => ?_
  simp only [Part.read, readNodes, htick, ok_bind, ht]
  simp only [weigh_cons, weight, Part.cost] at hsupply
  exact h limits supply depth _ hlimits rfl hdepth (by simp only [Part.cost]; omega)

theorem group (hle : weigh rest ≤ weigh ts) (h : Readable (.nodes .atBrace []) ts ns rest) :
    Readable .group ts [.group ns] rest := by
  obtain ⟨extra, h⟩ := h
  refine intro (extra + 1) hle (Nat.zero_lt_succ 2)
    fun limits supply depth s hlimits hs hdepth hsupply => ?_
  simp only [Part.cost] at h hsupply
  obtain ⟨s', hread, hs'⟩ := h limits supply (depth + 1) s hlimits hs (by omega) (by omega)
  refine ⟨s', ?_, hs'⟩
  rw [Part.read] at hread
  simp only [Part.read, readGroup, deeper_of_lt (show depth + 1 ≤ limits.maxDepth by omega),
    hread, ok_bind]

theorem braces {stop : Stop} {acc : List Node} {n : Node} (hle : weigh ts' ≤ weigh ts)
    (hle' : weigh rest ≤ weigh ts') (h : Readable .group ts [n] ts')
    (h' : Readable (.nodes stop (n :: acc)) ts' ns rest) :
    Readable (.nodes stop acc) (.openBrace :: ts) ns rest := by
  obtain ⟨extra, h⟩ := h
  obtain ⟨extra', h'⟩ := h'
  refine ticked (max extra extra') ((hle'.trans hle).trans (Nat.le_add_left _ _)) Nat.zero_lt_two
    fun limits supply depth s t hlimits htick ht hdepth hsupply => ?_
  simp only [weigh_cons, weight, Part.cost] at h h' hsupply
  obtain ⟨u, hgroup, hu⟩ := h limits supply depth (t.at' ts) hlimits rfl (by omega) (by omega)
  rw [Part.read, singleton_eq_ok] at hgroup
  simp only [Part.read, readNodes, htick, ok_bind, ht, hgroup]
  exact h' limits supply depth u hlimits hu (by omega) (by omega)

theorem word {stop : Stop} {acc ms : List Node} {name : String} (hend : name ≠ "end")
    (hle : weigh ts' ≤ weigh ts) (hle' : weigh rest ≤ weigh ts')
    (h : Readable (.command name) ts ms ts') (h' : Readable (.nodes stop (ms ++ acc)) ts' ns rest) :
    Readable (.nodes stop acc) (.command name :: ts) ns rest := by
  obtain ⟨extra, h⟩ := h
  obtain ⟨extra', h'⟩ := h'
  refine ticked (max extra extra') ((hle'.trans hle).trans (Nat.le_add_left _ _)) Nat.zero_lt_two
    fun limits supply depth s t hlimits htick ht hdepth hsupply => ?_
  simp only [weigh_cons, weight, Part.cost] at h h' hsupply
  obtain ⟨u, hword, hu⟩ := h limits supply depth (t.at' ts) hlimits rfl (by omega) (by omega)
  rw [Part.read, toList_eq_ok] at hword
  obtain ⟨o, rfl, hword⟩ := hword
  simp only [Part.read, readNodes, htick, ok_bind, ht, hend, and_false, if_false, hword]
  exact h' limits supply depth u hlimits hu (by omega) (by omega)

theorem marks {stop : Stop} {acc : List Node} {tok : Token} {n : Node}
    (hmark : tok = .sub ∨ tok = .sup) (hlt : weigh ts' < weigh (tok :: ts))
    (hle : weigh rest ≤ weigh ts')
    (h : Readable (.scripts (popBase acc).1 none none) (tok :: ts) [n] ts')
    (h' : Readable (.nodes stop (n :: (popBase acc).2)) ts' ns rest) :
    Readable (.nodes stop acc) (tok :: ts) ns rest := by
  obtain ⟨extra, h⟩ := h
  obtain ⟨extra', h'⟩ := h'
  refine ticked (max extra extra') (hle.trans hlt.le) Nat.zero_lt_two
    fun limits supply depth s t hlimits htick ht hdepth hsupply => ?_
  simp only [Part.cost] at h h' hsupply
  obtain ⟨u, hscripts, hu⟩ := h limits supply depth t hlimits ht (by omega) (by omega)
  rw [Part.read, singleton_eq_ok] at hscripts
  have hrest := h' limits supply depth u hlimits hu (by omega) (by omega)
  rcases hmark with rfl | rfl
  · simp only [Part.read, readNodes, htick, ok_bind, ht, hscripts]
    exact hrest
  · simp only [Part.read, readNodes, htick, ok_bind, ht, hscripts]
    exact hrest

theorem argBlank {run : Text} (hrun : run.trimStart = []) (hle : weigh rest ≤ weigh ts)
    (h : Readable .argument ts ns rest) : Readable .argument (.text run :: ts) ns rest := by
  obtain ⟨extra, h⟩ := h
  refine ticked extra (hle.trans (Nat.le_add_left _ _)) Nat.zero_lt_one
    fun limits supply depth s t hlimits htick ht hdepth hsupply => ?_
  simp only [weigh_cons, weight, Part.cost] at h hsupply
  simp only [Part.read, readArgument, htick, ok_bind, ht, hrun]
  exact h limits supply depth _ hlimits rfl hdepth (by omega)

theorem argChar {run run' : Text} {c : Char} (hrun : run.trimStart = c :: run')
    (hle : weigh (if run'.isEmpty then ts else .text run' :: ts) ≤ weigh (.text run :: ts)) :
    Readable .argument (.text run :: ts) [.leaf [c]]
      (if run'.isEmpty then ts else .text run' :: ts) := by
  refine ticked 0 hle Nat.zero_lt_one fun limits supply depth s t hlimits htick ht hdepth hsupply => ?_
  simp only [Part.read, readArgument, htick, ok_bind, ht, hrun]
  exact ⟨_, rfl, rfl⟩

theorem argGroup {n : Node} (hle : weigh rest ≤ weigh ts) (h : Readable .group ts [n] rest) :
    Readable .argument (.openBrace :: ts) [n] rest := by
  obtain ⟨extra, h⟩ := h
  refine ticked extra (hle.trans (Nat.le_add_left _ _)) Nat.zero_lt_one
    fun limits supply depth s t hlimits htick ht hdepth hsupply => ?_
  simp only [weigh_cons, weight, Part.cost] at h hsupply
  simp only [Part.read, readArgument, htick, ok_bind, ht]
  exact h limits supply depth _ hlimits rfl hdepth (by omega)

theorem argWord {name : String} (hend : name ≠ "end") (hle : weigh rest ≤ weigh ts)
    (h : Readable (.command name) ts ns rest) :
    Readable .argument (.command name :: ts) [ns.head?.getD (.group [])] rest := by
  obtain ⟨extra, h⟩ := h
  refine ticked (extra + 1) (hle.trans (Nat.le_add_left _ _)) Nat.zero_lt_one
    fun limits supply depth s t hlimits htick ht hdepth hsupply => ?_
  simp only [weigh_cons, weight, Part.cost] at h hsupply
  obtain ⟨u, hword, hu⟩ := h limits supply (depth + 1) (t.at' ts) hlimits rfl (by omega) (by omega)
  rw [Part.read, toList_eq_ok] at hword
  obtain ⟨o, rfl, hword⟩ := hword
  simp only [Part.read, readArgument, htick, ok_bind, ht, if_neg hend,
    deeper_of_lt (show depth + 1 ≤ limits.maxDepth by omega), hword, Option.head?_toList]
  exact ⟨_, rfl, hu⟩

theorem argSign {c : Char} :
    Readable .argument (.escaped c :: ts) [.bare (String.singleton c)] ts := by
  refine ticked 0 (Nat.le_add_left _ _) Nat.zero_lt_one
    fun limits supply depth s t hlimits htick ht hdepth hsupply => ?_
  simp only [Part.read, readArgument, htick, ok_bind, ht]
  exact ⟨_, rfl, rfl⟩

theorem argMissing (hmissing : startsArgument ts = false) :
    Readable .argument ts [.group []] ts := by
  refine ticked 0 (Nat.le_refl _) Nat.zero_lt_one
    fun limits supply depth s t hlimits htick ht hdepth hsupply => ?_
  simp only [Part.read, readArgument, htick, ok_bind, ht]
  split
  · cases hmissing
  · cases hmissing
  · cases hmissing
  · cases hmissing
  · exact ⟨_, rfl, ht⟩

theorem brackets (hopen : skipBlank ts = .openBracket :: ts') (hle : weigh rest ≤ weigh ts')
    (h : Readable (.nodes .atBracket []) ts' ns rest) :
    Readable (.optional true) ts [.group ns] rest := by
  have hskip := weigh_skipBlank_le ts
  simp only [hopen, weigh_cons, weight] at hskip
  obtain ⟨extra, h⟩ := h
  refine intro (extra + 1) (by omega) Nat.zero_lt_one
    fun limits supply depth s hlimits hs hdepth hsupply => ?_
  simp only [Part.cost] at h hsupply
  obtain ⟨u, hnodes, hu⟩ := h limits supply (depth + 1) (s.at' ts') hlimits rfl (by omega) (by omega)
  rw [Part.read] at hnodes
  simp only [Part.read, readOptional, hs, hopen, ok_bind,
    deeper_of_lt (show depth + 1 ≤ limits.maxDepth by omega), hnodes]
  exact ⟨_, rfl, hu⟩

theorem noBrackets {allowed : Bool}
    (hopen : allowed = true → (skipBlank ts).head? ≠ some .openBracket) :
    Readable (.optional allowed) ts [] ts := by
  refine intro 0 (Nat.le_refl _) Nat.zero_lt_one
    fun limits supply depth s hlimits hs hdepth hsupply => ?_
  cases allowed with
  | false => exact ⟨s, rfl, hs⟩
  | true =>
    simp only [Part.read, readOptional, hs]
    split
    · next htokens =>
      rw [htokens] at hopen
      exact absurd rfl (hopen rfl)
    · exact ⟨s, rfl, hs⟩

theorem sizer {name : String} (hname : IsSizer name) :
    Readable (.command name) ts [] (skipPoint ts) := by
  obtain ⟨hbegin, hend⟩ := hname.ne_environment
  refine intro 0 (weigh_skipPoint_le ts) Nat.zero_lt_two
    fun limits supply depth s hlimits hs hdepth hsupply => ?_
  simp only [Part.read, readCommand, if_neg hbegin, if_neg hend,
    if_pos (show name = "left" ∨ name = "right" ∨ name = "middle" from hname), hs]
  exact ⟨_, rfl, rfl⟩

theorem unknownBraces {name : String} {n : Node} (hname : IsOrdinary name)
    (hshape : Shape.ofCommand? name = none) (hle : weigh rest ≤ weigh ts)
    (h : Readable .group ts [n] rest) :
    Readable (.command name) (.openBrace :: ts) [.command name [n] none] rest := by
  obtain ⟨hbegin, hend, hsizer⟩ := hname
  obtain ⟨extra, h⟩ := h
  refine intro extra (hle.trans (Nat.le_add_left _ _)) Nat.zero_lt_two
    fun limits supply depth s hlimits hs hdepth hsupply => ?_
  simp only [weigh_cons, weight, Part.cost] at h hsupply
  obtain ⟨u, hgroup, hu⟩ := h limits supply depth ((s.noteOnce (.unknownCommand name)).at' ts)
    hlimits rfl (by omega) (by omega)
  rw [Part.read, singleton_eq_ok] at hgroup
  simp only [Part.read, readCommand, if_neg hbegin, if_neg hend,
    if_neg (show ¬(name = "left" ∨ name = "right" ∨ name = "middle") from hsizer), hshape,
    tokens_noteOnce, hs, hgroup, ok_bind]
  exact ⟨_, rfl, hu⟩

theorem unknownBare {name : String} (hname : IsOrdinary name)
    (hshape : Shape.ofCommand? name = none) (hopen : ts.head? ≠ some .openBrace) :
    Readable (.command name) ts [.bare name] ts := by
  obtain ⟨hbegin, hend, hsizer⟩ := hname
  refine intro 0 (Nat.le_refl _) Nat.zero_lt_two
    fun limits supply depth s hlimits hs hdepth hsupply => ?_
  simp only [Part.read, readCommand, if_neg hbegin, if_neg hend,
    if_neg (show ¬(name = "left" ∨ name = "right" ∨ name = "middle") from hsizer), hshape,
    tokens_noteOnce, hs]
  split
  · exact absurd rfl hopen
  · exact ⟨_, rfl, by rw [tokens_noteOnce, hs]⟩

theorem noArguments : Readable (.arguments 0) ts [] ts :=
  ⟨0, fun _ _ _ s _ hs _ _ => ⟨s, rfl, hs⟩⟩

theorem moreArguments {n : Nat} {x : Node} {xs : List Node} (hle : weigh ts' ≤ weigh ts)
    (hle' : weigh rest ≤ weigh ts') (h : Readable .argument ts [x] ts')
    (h' : Readable (.arguments n) ts' xs rest) :
    Readable (.arguments (n + 1)) ts (x :: xs) rest := by
  obtain ⟨extra, h⟩ := h
  obtain ⟨extra', h'⟩ := h'
  refine ⟨max extra extra', fun limits supply depth s hlimits hs hdepth hsupply => ?_⟩
  simp only [Part.cost] at h h' hsupply
  obtain ⟨u, harg, hu⟩ := h limits supply depth s hlimits hs (by omega) (by omega)
  obtain ⟨v, hargs, hv⟩ := h' limits supply depth u hlimits hu (by omega) (by omega)
  rw [Part.read, singleton_eq_ok] at harg
  rw [Part.read] at hargs
  simp only [Part.read, times, harg, ok_bind, hargs]
  exact ⟨v, rfl, hv⟩

theorem known {name : String} {shape : Shape} {os args : List Node} (hname : IsOrdinary name)
    (hshape : Shape.ofCommand? name = some shape) (hle : weigh ts' ≤ weigh ts)
    (hle' : weigh rest ≤ weigh ts') (h : Readable (.optional shape.optional) ts os ts')
    (h' : Readable (.arguments shape.args) ts' args rest) :
    Readable (.command name) ts [.command name args os.head?] rest := by
  obtain ⟨hbegin, hend, hsizer⟩ := hname
  obtain ⟨extra, h⟩ := h
  obtain ⟨extra', h'⟩ := h'
  refine intro (max extra extra') (hle'.trans hle) Nat.zero_lt_two
    fun limits supply depth s hlimits hs hdepth hsupply => ?_
  simp only [Part.cost] at h h' hsupply
  obtain ⟨u, hoptional, hu⟩ := h limits supply depth s hlimits hs (by omega) (by omega)
  obtain ⟨v, hargs, hv⟩ := h' limits supply depth u hlimits hu (by omega) (by omega)
  rw [Part.read] at hargs
  simp only [Part.read, readCommand, if_neg hbegin, if_neg hend,
    if_neg (show ¬(name = "left" ∨ name = "right" ∨ name = "middle") from hsizer), hshape]
  cases hallowed : shape.optional with
  | true =>
    rw [hallowed, Part.read, toList_eq_ok] at hoptional
    obtain ⟨o, rfl, hoptional⟩ := hoptional
    simp only [if_true, hoptional, ok_bind, hargs, Option.head?_toList]
    exact ⟨v, rfl, hv⟩
  | false =>
    rw [hallowed, Part.read] at hoptional
    obtain ⟨rfl, rfl⟩ := Prod.mk.inj (Except.ok.inj hoptional)
    simp only [Bool.false_eq_true, if_false, ok_bind, hargs]
    exact ⟨v, rfl, hv⟩

theorem subscript {base x : Node} {sup : Option Node} (hle : weigh ts' ≤ weigh ts)
    (hle' : weigh rest ≤ weigh ts') (h : Readable .argument ts [x] ts')
    (h' : Readable (.scripts base (some x) sup) ts' ns rest) :
    Readable (.scripts base none sup) (.sub :: ts) ns rest := by
  obtain ⟨extra, h⟩ := h
  obtain ⟨extra', h'⟩ := h'
  refine intro (max extra extra') ((hle'.trans hle).trans (Nat.le_add_left _ _)) Nat.zero_lt_one
    fun limits supply depth s hlimits hs hdepth hsupply => ?_
  simp only [weigh_cons, weight, Part.cost] at h h' hsupply
  obtain ⟨u, harg, hu⟩ := h limits supply depth (s.at' ts) hlimits rfl (by omega) (by omega)
  rw [Part.read, singleton_eq_ok] at harg
  have hrest := h' limits supply depth u hlimits hu (by omega) (by omega)
  simp only [Part.read] at hrest ⊢
  unfold readScripts
  simp only [hs, harg, ok_bind]
  exact hrest

theorem superscript {base x : Node} {sub : Option Node} (hle : weigh ts' ≤ weigh ts)
    (hle' : weigh rest ≤ weigh ts') (h : Readable .argument ts [x] ts')
    (h' : Readable (.scripts base sub (some x)) ts' ns rest) :
    Readable (.scripts base sub none) (.sup :: ts) ns rest := by
  obtain ⟨extra, h⟩ := h
  obtain ⟨extra', h'⟩ := h'
  refine intro (max extra extra') ((hle'.trans hle).trans (Nat.le_add_left _ _)) Nat.zero_lt_one
    fun limits supply depth s hlimits hs hdepth hsupply => ?_
  simp only [weigh_cons, weight, Part.cost] at h h' hsupply
  obtain ⟨u, harg, hu⟩ := h limits supply depth (s.at' ts) hlimits rfl (by omega) (by omega)
  rw [Part.read, singleton_eq_ok] at harg
  have hrest := h' limits supply depth u hlimits hu (by omega) (by omega)
  simp only [Part.read] at hrest ⊢
  unfold readScripts
  simp only [hs, harg, ok_bind]
  exact hrest

theorem scripted {base : Node} {sub sup : Option Node} (hmark : ¬startsScript ts sub sup) :
    Readable (.scripts base sub sup) ts [.script base sub sup] ts := by
  refine intro 0 (Nat.le_refl _) Nat.zero_lt_one
    fun limits supply depth s hlimits hs hdepth hsupply => ?_
  simp only [Part.read]
  unfold readScripts
  split
  · next htokens =>
    exact absurd (.inl ⟨by rw [← hs, htokens]; rfl, rfl⟩) hmark
  · next htokens =>
    exact absurd (.inr ⟨by rw [← hs, htokens]; rfl, rfl⟩) hmark
  · exact ⟨s, rfl, hs⟩

end Readable

/-- What the grammar reads the reader reads. -/
theorem Reads.readable {part : Part} {ts rest : List Token} {ns : List Node}
    (h : Reads part ts ns rest) : Readable part ts ns rest := by
  induction h with
  | atEnd => exact .atEnd
  | closeBrace => exact .closeBrace
  | closeBracket => exact .closeBracket
  | strayBrace hbrace hcell hrest ih => exact .strayBrace hbrace hcell hrest.weigh_le ih
  | literal hrun hrest ih => exact .literal hrun hrest.weigh_le ih
  | braces hgroup hrest ih ih' => exact .braces hgroup.weigh_le hrest.weigh_le ih ih'
  | sign hrest ih => exact .sign hrest.weigh_le ih
  | word hword hrest ih ih' => exact .word hword.name_ne_end hword.weigh_le hrest.weigh_le ih ih'
  | marks hmark hscripts hrest ih ih' =>
    exact .marks hmark (hscripts.weigh_lt_of_marks hmark) hrest.weigh_le ih ih'
  | group hnodes ih => exact .group hnodes.weigh_le ih
  | argBlank hblank hrest ih => exact .argBlank hblank hrest.weigh_le ih
  | argChar hrun => exact .argChar hrun (Reads.argChar hrun).weigh_le
  | argGroup hgroup ih =>
    obtain ⟨cs, rfl⟩ := hgroup.eq_group
    exact .argGroup hgroup.weigh_le ih
  | argWord hword ih => exact .argWord hword.name_ne_end hword.weigh_le ih
  | argSign => exact .argSign
  | argMissing hmissing => exact .argMissing hmissing
  | brackets hopen hnodes ih => exact .brackets hopen hnodes.weigh_le ih
  | noBrackets hopen => exact .noBrackets hopen
  | sizer hname => exact .sizer hname
  | known hname hshape hoptional hargs ih ih' =>
    exact .known hname hshape hoptional.weigh_le hargs.weigh_le ih ih'
  | unknownBraces hname hshape hgroup ih => exact .unknownBraces hname hshape hgroup.weigh_le ih
  | unknownBare hname hshape hopen => exact .unknownBare hname hshape hopen
  | noArguments => exact .noArguments
  | moreArguments harg hargs ih ih' => exact .moreArguments harg.weigh_le hargs.weigh_le ih ih'
  | subscript harg hrest ih ih' => exact .subscript harg.weigh_le hrest.weigh_le ih ih'
  | superscript harg hrest ih ih' => exact .superscript harg.weigh_le hrest.weigh_le ih ih'
  | scripted hmark => exact .scripted hmark

end Reading

open Reading

/-- **What the reader makes of a legible text is what the grammar says.** -/
theorem reads_of_parse {limits : ReadLimits} {t : Text} {p : Parsed} (h : parse limits t = .ok p)
    (ht : Legible t) : ∃ ns rest, p.tree = .group ns ∧ Reads (.nodes .atEnd []) (tokenize t) ns rest := by
  obtain ⟨ns, rest, said, htree, -, hcourse⟩ := course_of_parse h
  exact ⟨ns, rest, htree, hcourse.says ht.tidy (by decide)⟩

/-- **What the grammar says of a text the reader makes of it**, from some limit on nesting on. -/
theorem exists_parse_of_reads {t : Text} {ns : List Node} {rest : List Token}
    (h : Reads (.nodes .atEnd []) (tokenize t) ns rest) :
    ∃ depth, ∀ limits, Patient limits → depth ≤ limits.maxDepth →
      ∃ notices, parse limits t = .ok ⟨.group ns, notices⟩ := by
  obtain ⟨depth, hread⟩ := h.readable
  refine ⟨depth, fun limits hlimits hdepth => ?_⟩
  obtain ⟨s, hs, -⟩ := hread limits (readingSupply (tokenize t)) 0 ⟨tokenize t, 0, []⟩ hlimits rfl
    (by omega) (by rw [readingSupply_eq, Part.cost]; omega)
  rw [Part.read] at hs
  simp only [parse, hlimits .beforeReading, hs]
  exact ⟨s.notices, rfl⟩

end SpokenMath
