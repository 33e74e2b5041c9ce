import SpokenMath.Proofs.Markup.Grammar

/-!
# The course of a reading

Every way in which a reading can go, environments and notices included, said without the supply of
steps and the clock. `Course levels task ts ns rest said` says that with so many levels of nesting
left `task` reads the nodes `ns` off the tokens `ts`, leaves `rest` and reports the findings
`said`, in order and as often as they are made.

**Theorem (`course_of_parse`).** Every tree that the reader gives has a course, and what the reader
has noted is what was reported on it. So what holds of all trees is proved by induction on the
course, one case for each thing that a reader can do.
-/

namespace SpokenMath

/-! ## What holds of a result -/

/-- Something holds of the result, if there is one. -/
def Always {ε α : Type} (Q : α → Prop) (x : Except ε α) : Prop := ∀ a, x = .ok a → Q a

namespace Always

variable {ε α β : Type} {Q Q' : α → Prop} {R : β → Prop} {x : Except ε α} {f : α → Except ε β}

theorem ok {a : α} (h : Q a) : Always Q (.ok a : Except ε α) := by
  rintro _ ⟨⟩
  exact h

theorem error (e : ε) : Always Q (.error e : Except ε α) := nofun

theorem imp (h : Always Q x) (hQ : ∀ a, Q a → Q' a) : Always Q' x := fun a ha => hQ a (h a ha)

theorem bind (h : Always Q x) (hf : ∀ a, Q a → Always R (f a)) : Always R (x >>= f) := by
  cases x with
  | error e => exact error e
  | ok a => exact hf a (h a rfl)

end Always

/-! ## Reports -/

/-- A finding that is noted at most once. -/
def Notice.isNotedOnce : Notice → Bool
  | unknownCommand _ | unbalancedDelimiter => true
  | _ => false

/-- What has been noted once one more finding is reported. -/
def Notice.noted (notices : List Notice) (n : Notice) : List Notice :=
  if n.isNotedOnce = true ∧ n ∈ notices then notices else notices ++ [n]

namespace Reading

variable {limits : ReadLimits} {supply depth levels : Nat} {s s' : Reading}

@[simp] theorem tokens_at' (s : Reading) (ts : List Token) : (s.at' ts).tokens = ts := rfl

@[simp] theorem tokens_note (s : Reading) (n : Notice) : (s.note n).tokens = s.tokens := rfl

@[simp] theorem tokens_noteOnce (s : Reading) (n : Notice) :
    (s.noteOnce n).tokens = s.tokens := by
  unfold noteOnce
  split <;> rfl

theorem notices_note {n : Notice} (h : n.isNotedOnce = false) (s : Reading) :
    (s.note n).notices = Notice.noted s.notices n := by
  rw [Notice.noted, if_neg (by simp [h])]
  rfl

theorem notices_noteOnce {n : Notice} (h : n.isNotedOnce = true) (s : Reading) :
    (s.noteOnce n).notices = Notice.noted s.notices n := by
  by_cases hmem : n ∈ s.notices
  · rw [noteOnce, if_pos hmem, Notice.noted, if_pos ⟨h, hmem⟩]
  · rw [noteOnce, if_neg hmem, Notice.noted, if_neg fun hnoted => hmem hnoted.2]
    rfl

/-! ## The course -/

/-- What a reader does at a time. -/
inductive Task
  /-- Nodes up to `stop`, behind those read already, the last one of which comes first. -/
  | nodes (stop : Stop) (before : List Node)
  /-- A group behind its opening brace. -/
  | group
  | argument
  /-- A bracketed argument, if one may come and there is one. -/
  | optional (allowed : Bool)
  /-- What belongs to a control word. -/
  | command (name : String)
  | arguments (n : Nat)
  /-- The rest of an environment of which some rows are read, and some cells of the next one. -/
  | rows (name : String) (rows : List (List Node)) (row : List Node)
  /-- The scripts of a base that has some already. -/
  | scripts (base : Node) (sub sup : Option Node)

/-- The closer that takes a sequence of nodes to its end. -/
def Closes (stop : Stop) (tok : Token) : Prop :=
  stop = .atBrace ∧ tok = .closeBrace ∨ stop = .atBracket ∧ tok = .closeBracket

/-- A cell ends in front of these tokens. -/
def endsCell : List Token → Bool
  | [] | .closeBrace :: _ | .align :: _ | .rowSep :: _ | .command "end" :: _ => true
  | _ => false

/-- Whether there is a closer to be missed at the end of the input. -/
def Stop.missing : Stop → List Notice
  | .atBrace | .atBracket => [.unbalancedDelimiter]
  | _ => []

/-- The cell made of the nodes that were read. -/
def cell (nodes : List Node) : Node := .group (if isBlankCell nodes then [] else nodes)

/-- The environment made of the rows that were read, the last one first. -/
def table (name : String) (rows : List (List Node)) : Node :=
  .environment name (dropEmptyRows rows).reverse

theorem mem_of_mem_dropEmptyRows {r : List Node} {rows : List (List Node)}
    (h : r ∈ dropEmptyRows rows) : r ∈ rows := by
  fun_induction dropEmptyRows rows with
  | case1 row before rows hempty ih => exact List.mem_cons_of_mem row (ih h)
  | case2 => exact h
  | case3 => exact h

/-- A task reads nodes off the front of some tokens, leaves the rest, and reports. -/
inductive Course : Nat → Task → List Token → List Node → List Token → List Notice → Prop
  | atEnd {l stop acc} : Course l (.nodes stop acc) [] acc.reverse [] stop.missing
  | closed {l stop acc tok ts} (hcloses : Closes stop tok) :
      Course l (.nodes stop acc) (tok :: ts) acc.reverse ts []
  | cellEnd {l acc ts} (hend : endsCell ts = true) :
      Course l (.nodes .atCell acc) ts acc.reverse ts []
  | strayBrace {l stop acc ts out rest said} (hbrace : stop ≠ .atBrace) (hcell : stop ≠ .atCell)
      (hrest : Course l (.nodes stop acc) ts out rest said) :
      Course l (.nodes stop acc) (.closeBrace :: ts) out rest (.unbalancedDelimiter :: said)
  | literal {l stop acc tok run ts out rest said} (hrun : literal? stop tok = some run)
      (hrest : Course l (.nodes stop (pushText run acc)) ts out rest said) :
      Course l (.nodes stop acc) (tok :: ts) out rest said
  | braces {l stop acc ts n ts' out rest said said'} (hgroup : Course l .group ts [n] ts' said)
      (hrest : Course l (.nodes stop (n :: acc)) ts' out rest said') :
      Course l (.nodes stop acc) (.openBrace :: ts) out rest (said ++ said')
  | sign {l stop acc c ts out rest said}
      (hrest : Course l (.nodes stop (.bare (String.singleton c) :: acc)) ts out rest said) :
      Course l (.nodes stop acc) (.escaped c :: ts) out rest said
  | word {l stop acc name ts ts' out rest said said'} {o : Option Node}
      (hinside : ¬(stop = .atCell ∧ name = "end"))
      (hword : Course l (.command name) ts o.toList ts' said)
      (hrest : Course l (.nodes stop (o.toList ++ acc)) ts' out rest said') :
      Course l (.nodes stop acc) (.command name :: ts) out rest (said ++ said')
  | marks {l stop acc tok ts n ts' out rest said said'} (hmark : tok = .sub ∨ tok = .sup)
      (hscripts : Course l (.scripts (popBase acc).1 none none) (tok :: ts) [n] ts' said)
      (hrest : Course l (.nodes stop (n :: (popBase acc).2)) ts' out rest said') :
      Course l (.nodes stop acc) (tok :: ts) out rest (said ++ said')
  | group {l ts out rest said} (hnodes : Course l (.nodes .atBrace []) ts out rest said) :
      Course (l + 1) .group ts [.group out] rest said
  | argBlank {l run ts ns rest said} (hblank : Text.trimStart run = [])
      (hrest : Course l .argument ts ns rest said) :
      Course l .argument (.text run :: ts) ns rest said
  | argChar {l run c run' ts} (hrun : Text.trimStart run = c :: run') :
      Course l .argument (.text run :: ts) [.leaf [c]]
        (if run'.isEmpty then ts else .text run' :: ts) []
  | argGroup {l ts n rest said} (hgroup : Course l .group ts [n] rest said) :
      Course l .argument (.openBrace :: ts) [n] rest said
  | argWord {l name ts rest said} {o : Option Node} (hname : name ≠ "end")
      (hword : Course l (.command name) ts o.toList rest said) :
      Course (l + 1) .argument (.command name :: ts) [o.getD (.group [])] rest said
  | argSign {l c ts} : Course l .argument (.escaped c :: ts) [.bare (String.singleton c)] ts []
  | argMissing {l ts}
      (hmissing : startsArgument ts = false ∨ ts.head? = some (.command "end")) :
      Course l .argument ts [.group []] ts []
  | brackets {l ts ts' out rest said} (hopen : skipBlank ts = .openBracket :: ts')
      (hnodes : Course l (.nodes .atBracket []) ts' out rest said) :
      Course (l + 1) (.optional true) ts [.group out] rest said
  | noBrackets {l allowed ts}
      (hopen : allowed = true → (skipBlank ts).head? ≠ some .openBracket) :
      Course l (.optional allowed) ts [] ts []
  | environment {l ts o ts₁ args ts₂ ns rest said said₁ said₂}
      (hoptional : Course l (.optional (isStatementEnvironment (bracedName ts).1))
        (bracedName ts).2 o ts₁ said)
      (hargs : Course l (.arguments (environmentArgs (bracedName ts).1)) ts₁ args ts₂ said₁)
      (hrows : Course l (.rows (bracedName ts).1 [] []) ts₂ ns rest said₂) :
      Course (l + 1) (.command "begin") ts ns rest (said ++ (said₁ ++ said₂))
  | strayEnd {l ts} : Course l (.command "end") ts
      [.command "end" [.leaf (bracedName ts).1.toList] none] (bracedName ts).2
      [.strayEnd (bracedName ts).1]
  | sizer {l name ts} (hname : IsSizer name) : Course l (.command name) ts [] (skipPoint ts) []
  | known {l name shape ts ts' args rest said said'} {o : Option Node} (hname : IsOrdinary name)
      (hshape : Shape.ofCommand? name = some shape)
      (hoptional : Course l (.optional shape.optional) ts o.toList ts' said)
      (hargs : Course l (.arguments shape.args) ts' args rest said') :
      Course l (.command name) ts [.command name args o] rest (said ++ said')
  | unknownBraces {l name ts n rest said} (hname : IsOrdinary name)
      (hshape : Shape.ofCommand? name = none) (hgroup : Course l .group ts [n] rest said) :
      Course l (.command name) (.openBrace :: ts) [.command name [n] none] rest
        (.unknownCommand name :: said)
  | unknownBare {l name ts} (hname : IsOrdinary name) (hshape : Shape.ofCommand? name = none)
      (hopen : ts.head? ≠ some .openBrace) :
      Course l (.command name) ts [.bare name] ts [.unknownCommand name]
  | noArguments {l ts} : Course l (.arguments 0) ts [] ts []
  | moreArguments {l n ts x ts' xs rest said said'} (harg : Course l .argument ts [x] ts' said)
      (hargs : Course l (.arguments n) ts' xs rest said') :
      Course l (.arguments (n + 1)) ts (x :: xs) rest (said ++ said')
  | nextCell {l name rows row ts out ts' ns rest said said'}
      (hcell : Course l (.nodes .atCell []) ts out (.align :: ts') said)
      (hrest : Course l (.rows name rows (cell out :: row)) ts' ns rest said') :
      Course l (.rows name rows row) ts ns rest (said ++ said')
  | nextRow {l name rows row ts out ts' ns rest said said'}
      (hcell : Course l (.nodes .atCell []) ts out (.rowSep :: ts') said)
      (hrest : Course l (.rows name ((cell out :: row).reverse :: rows) []) ts' ns rest said') :
      Course l (.rows name rows row) ts ns rest (said ++ said')
  | lastCell {l ts out ts' said} (name : String) (rows : List (List Node)) (row : List Node)
      (hcell : Course l (.nodes .atCell []) ts out (.command "end" :: ts') said) :
      Course l (.rows name rows row) ts [table name ((cell out :: row).reverse :: rows)]
        (bracedName ts').2
        (said ++ if (bracedName ts').1 = name then [] else [.unterminatedEnvironment name])
  | unclosed {l name rows row ts out rest said}
      (hcell : Course l (.nodes .atCell []) ts out rest said)
      (hend : rest.head? ≠ some .align ∧ rest.head? ≠ some .rowSep ∧
        rest.head? ≠ some (.command "end")) :
      Course l (.rows name rows row) ts [table name ((cell out :: row).reverse :: rows)] rest
        (said ++ [.unterminatedEnvironment name])
  | subscript {l base sup ts x ts' ns rest said said'}
      (harg : Course l .argument ts [x] ts' said)
      (hrest : Course l (.scripts base (some x) sup) ts' ns rest said') :
      Course l (.scripts base none sup) (.sub :: ts) ns rest (said ++ said')
  | superscript {l base sub ts x ts' ns rest said said'}
      (harg : Course l .argument ts [x] ts' said)
      (hrest : Course l (.scripts base sub (some x)) ts' ns rest said') :
      Course l (.scripts base sub none) (.sup :: ts) ns rest (said ++ said')
  | scripted {l base sub sup ts} (hmark : ¬startsScript ts sub sup) :
      Course l (.scripts base sub sup) ts [.script base sub sup] ts []

/-- What holds of tokens, whatever is left of a run, holds of those that a task leaves. -/
theorem Course.forall_rest {P : Token → Prop} {task : Task} {ts rest : List Token} {ns : List Node}
    {said : List Notice} (hlasting : Token.Lasting P) (h : Course levels task ts ns rest said)
    (hts : ∀ tok ∈ ts, P tok) : ∀ tok ∈ rest, P tok := by
  have hnamed : ∀ ts : List Token, (∀ tok ∈ ts, P tok) → ∀ tok ∈ (bracedName ts).2, P tok :=
    fun ts hts tok htok => hts tok ((bracedName_suffix ts).subset htok)
  induction h with
  | atEnd | cellEnd | argMissing | noBrackets | unknownBare | noArguments | scripted => exact hts
  | closed | argSign => exact (List.forall_mem_cons.mp hts).2
  | strayBrace _ _ _ ih | literal _ _ ih | sign _ ih | argBlank _ _ ih | argGroup _ ih
  | argWord _ _ ih | unknownBraces _ _ _ ih => exact ih (List.forall_mem_cons.mp hts).2
  | braces _ _ ih ih' | word _ _ _ ih ih' | subscript _ _ ih ih' | superscript _ _ ih ih' =>
    exact ih' (ih (List.forall_mem_cons.mp hts).2)
  | marks _ _ _ ih ih' | moreArguments _ _ ih ih' | known _ _ _ _ ih ih' => exact ih' (ih hts)
  | group _ ih | unclosed _ _ ih => exact ih hts
  | argChar hrun => exact forall_behind hlasting hrun hts
  | brackets hopen _ ih =>
    refine ih fun tok htok => hts tok ((skipBlank_suffix _).subset ?_)
    rw [hopen]
    exact List.mem_cons_of_mem _ htok
  | environment _ _ _ ih ih' ih'' => exact ih'' (ih' (ih (hnamed _ hts)))
  | strayEnd => exact hnamed _ hts
  | sizer => exact forall_skipPoint hlasting hts
  | nextCell _ _ ih ih' | nextRow _ _ ih ih' => exact ih' (List.forall_mem_cons.mp (ih hts)).2
  | lastCell _ _ _ _ ih => exact hnamed _ (List.forall_mem_cons.mp (ih hts)).2

/-! ## The reader keeps to the course -/

/-- A task leads a reading from one state to another. -/
def Leads (levels : Nat) (task : Task) (s : Reading) (ns : List Node) (s' : Reading) : Prop :=
  ∃ said, Course levels task s.tokens ns s'.tokens said ∧
    s'.notices = said.foldl Notice.noted s.notices

namespace Leads

variable {l l' l'' : Nat} {task task' task'' : Task} {t u v : Reading} {ns ns' ns'' : List Node}

/-- Nothing is reported. -/
theorem quiet (hnotices : s'.notices = s.notices) (h : Course l task s.tokens ns s'.tokens []) :
    Leads l task s ns s' :=
  ⟨[], h, hnotices⟩

/-- One finding is reported, and nothing else. -/
theorem single {n : Notice} (hnotices : s'.notices = Notice.noted s.notices n)
    (h : Course l task s.tokens ns s'.tokens [n]) : Leads l task s ns s' :=
  ⟨[n], h, hnotices⟩

/-- One task is all of another one. -/
theorem lift (h : Leads l task t ns s') (hnotices : t.notices = s.notices)
    (hcourse : ∀ said, Course l task t.tokens ns s'.tokens said →
      Course l' task' s.tokens ns' s'.tokens said) : Leads l' task' s ns' s' := by
  obtain ⟨said, hsaid, hs'⟩ := h
  exact ⟨said, hcourse said hsaid, hnotices ▸ hs'⟩

/-- One finding is reported before another task is begun. -/
theorem report {n : Notice} (h : Leads l task t ns s')
    (hnotices : t.notices = Notice.noted s.notices n)
    (hcourse : ∀ said, Course l task t.tokens ns s'.tokens said →
      Course l' task' s.tokens ns' s'.tokens (n :: said)) : Leads l' task' s ns' s' := by
  obtain ⟨said, hsaid, hs'⟩ := h
  exact ⟨n :: said, hcourse said hsaid, by rw [List.foldl_cons, ← hnotices, hs']⟩

/-- Two tasks, one after the other, make up a third one. -/
theorem join (h : Leads l task t ns u) (h' : Leads l' task' v ns' s')
    (hnotices : t.notices = s.notices) (hnotices' : v.notices = u.notices)
    (hcourse : ∀ said said', Course l task t.tokens ns u.tokens said →
      Course l' task' v.tokens ns' s'.tokens said' →
        Course l'' task'' s.tokens ns'' s'.tokens (said ++ said')) :
    Leads l'' task'' s ns'' s' := by
  obtain ⟨said, hsaid, hu⟩ := h
  obtain ⟨said', hsaid', hs'⟩ := h'
  exact ⟨said ++ said', hcourse said said' hsaid hsaid',
    by rw [List.foldl_append, ← hnotices, ← hu, ← hnotices', hs']⟩

end Leads

/-- A look at the clock changes neither the tokens nor the notices. -/
theorem always_tick (limits : ReadLimits) (s : Reading) :
    Always (fun t => t.tokens = s.tokens ∧ t.notices = s.notices) (s.tick limits) := by
  unfold tick
  dsimp only
  split
  · split
    · exact .error _
    · exact .ok ⟨rfl, rfl⟩
  · exact .ok ⟨rfl, rfl⟩

/-- What a task does behind a look at the clock. -/
theorem always_of_tick {α : Type} {task : Task} {f : Reading → Except ReadError α}
    {nodes : α → List Node} {next : α → Reading}
    (h : ∀ t, t.tokens = s.tokens →
      Always (fun r => Leads levels task t (nodes r) (next r)) (f t)) :
    Always (fun r => Leads levels task s (nodes r) (next r)) (s.tick limits >>= f) := by
  refine (always_tick limits s).bind fun t ⟨htokens, hnotices⟩ => (h t htokens).imp fun r hr => ?_
  exact hr.lift hnotices fun said hsaid => htokens ▸ hsaid

/-- Going deeper takes one of the levels that are left. -/
theorem always_deeper (h : depth + levels = limits.maxDepth) :
    Always (fun inner => ∃ left, levels = left + 1 ∧ inner + left = limits.maxDepth)
      (deeper limits depth) := by
  unfold deeper
  split
  · exact .error _
  · exact .ok ⟨levels - 1, by omega, by omega⟩

/-- With so much supply, all parts of the reader keep to the course. -/
structure KeepsWith (limits : ReadLimits) (supply : Nat) : Prop where
  nodes : ∀ {depth levels}, depth + levels = limits.maxDepth → ∀ stop acc s,
    Always (fun r => Leads levels (.nodes stop acc) s r.1 r.2)
      (readNodes limits supply depth stop acc s)
  group : ∀ {depth levels}, depth + levels = limits.maxDepth → ∀ s,
    Always (fun r => Leads levels .group s [r.1] r.2) (readGroup limits supply depth s)
  argument : ∀ {depth levels}, depth + levels = limits.maxDepth → ∀ s,
    Always (fun r => Leads levels .argument s [r.1] r.2) (readArgument limits supply depth s)
  optional : ∀ {depth levels}, depth + levels = limits.maxDepth → ∀ s,
    Always (fun r => Leads levels (.optional true) s r.1.toList r.2)
      (readOptional limits supply depth s)
  command : ∀ {depth levels}, depth + levels = limits.maxDepth → ∀ name s,
    Always (fun r => Leads levels (.command name) s r.1.toList r.2)
      (readCommand limits supply depth name s)
  environment : ∀ {depth levels}, depth + levels = limits.maxDepth → ∀ s,
    Always (fun r => Leads levels (.command "begin") s [r.1] r.2)
      (readEnvironment limits supply depth s)
  rows : ∀ {depth levels}, depth + levels = limits.maxDepth → ∀ name rows row s,
    Always (fun r => Leads levels (.rows name rows row) s [table name r.1] r.2)
      (readRows limits supply depth name rows row s)
  scripts : ∀ {depth levels}, depth + levels = limits.maxDepth → ∀ base sub sup s,
    Always (fun r => Leads levels (.scripts base sub sup) s [r.1] r.2)
      (readScripts limits supply depth base sub sup s)

namespace KeepsWith

theorem zero : KeepsWith limits 0 := by
  constructor <;> intros
  · simp only [readNodes]; exact .error _
  · simp only [readGroup]; exact .error _
  · simp only [readArgument]; exact .error _
  · simp only [readOptional]; exact .error _
  · simp only [readCommand]; exact .error _
  · simp only [readEnvironment]; exact .error _
  · simp only [readRows]; exact .error _
  · simp only [readScripts]; exact .error _

variable (ih : KeepsWith limits supply) (h : depth + levels = limits.maxDepth)

include ih h

theorem nodes_succ (stop : Stop) (acc : List Node) (s : Reading) :
    Always (fun r => Leads levels (.nodes stop acc) s r.1 r.2)
      (readNodes limits (supply + 1) depth stop acc s) := by
  simp only [readNodes]
  refine always_of_tick fun t _ => ?_
  have hliteral : ∀ {tok run ts}, t.tokens = tok :: ts → literal? stop tok = some run →
      Always (fun r => Leads levels (.nodes stop acc) t r.1 r.2)
        (readNodes limits supply depth stop (pushText run acc) (t.at' ts)) :=
    fun htokens hrun => (ih.nodes h _ _ _).imp fun r hr =>
      hr.lift rfl fun said hsaid => htokens ▸ .literal hrun hsaid
  have hmarks : ∀ {tok ts}, t.tokens = tok :: ts → (tok = .sub ∨ tok = .sup) →
      Always (fun r => Leads levels (.nodes stop acc) t r.1 r.2)
        (readScripts limits supply depth (popBase acc).1 none none t >>= fun r =>
          readNodes limits supply depth stop (r.1 :: (popBase acc).2) r.2) :=
    fun htokens hmark => (ih.scripts h _ _ _ _).bind fun r hr =>
      (ih.nodes h _ _ _).imp fun r' hr' => hr.join hr' rfl rfl fun said said' hsaid hsaid' =>
        htokens ▸ .marks hmark (htokens ▸ hsaid) hsaid'
  have hends : endsCell t.tokens = true → stop = .atCell →
      Always (fun r => Leads levels (.nodes stop acc) t r.1 r.2)
        (.ok (acc.reverse, t) : Except ReadError _) := by
    rintro hend rfl
    exact .ok (.quiet rfl (.cellEnd hend))
  have hcloses : ∀ {tok ts}, t.tokens = tok :: ts → Closes stop tok →
      Always (fun r => Leads levels (.nodes stop acc) t r.1 r.2)
        (.ok (acc.reverse, t.at' ts) : Except ReadError _) :=
    fun htokens hcloses => .ok (.quiet rfl (htokens ▸ .closed hcloses))
  split
  · next htokens =>
    have hend : Course levels (.nodes stop acc) t.tokens acc.reverse t.tokens stop.missing :=
      htokens ▸ .atEnd
    refine .ok ?_
    cases stop with
    | atBrace | atBracket =>
      exact .single (notices_noteOnce rfl t) ((tokens_noteOnce t .unbalancedDelimiter).symm ▸ hend)
    | atEnd | atCell => exact .quiet rfl hend
  · next ts htokens =>
    split
    · next hstop => exact hcloses htokens (.inl ⟨hstop, rfl⟩)
    · next hbrace =>
      split
      · next hcell => exact hends (by rw [htokens]; rfl) hcell
      · next hcell =>
        refine (ih.nodes h _ _ _).imp fun r hr => ?_
        refine hr.report (notices_noteOnce rfl (t.at' ts)) fun said hsaid => ?_
        rw [tokens_noteOnce] at hsaid
        exact htokens ▸ .strayBrace hbrace hcell hsaid
  · next ts htokens =>
    split
    · next hstop => exact hcloses htokens (.inr ⟨hstop, rfl⟩)
    · next hstop => exact hliteral htokens (if_neg hstop)
  · next ts htokens => exact hliteral htokens rfl
  · next ts htokens =>
    exact (ih.group h _).bind fun r hr => (ih.nodes h _ _ _).imp fun r' hr' =>
      hr.join hr' rfl rfl fun said said' hsaid hsaid' => htokens ▸ .braces hsaid hsaid'
  · next run ts htokens => exact hliteral htokens rfl
  · next c ts htokens =>
    exact (ih.nodes h _ _ _).imp fun r hr => hr.lift rfl fun said hsaid => htokens ▸ .sign hsaid
  · next name ts htokens =>
    split
    · next hend => exact hends (by rw [htokens, hend.2]; rfl) hend.1
    · next hinside =>
      exact (ih.command h _ _).bind fun r hr => (ih.nodes h _ _ _).imp fun r' hr' =>
        hr.join hr' rfl rfl fun said said' hsaid hsaid' => htokens ▸ .word hinside hsaid hsaid'
  · next ts htokens => exact hmarks htokens (.inl rfl)
  · next ts htokens => exact hmarks htokens (.inr rfl)
  · next ts htokens =>
    split
    · next hcell => exact hends (by rw [htokens]; rfl) hcell
    · next hcell => exact hliteral htokens (if_neg hcell)
  · next ts htokens =>
    split
    · next hcell => exact hends (by rw [htokens]; rfl) hcell
    · next hcell => exact hliteral htokens (if_neg hcell)

theorem group_succ (s : Reading) :
    Always (fun r => Leads levels .group s [r.1] r.2) (readGroup limits (supply + 1) depth s) := by
  simp only [readGroup]
  refine (always_deeper h).bind ?_
  rintro inner ⟨left, rfl, hinner⟩
  exact (ih.nodes hinner _ _ _).bind fun r hr => .ok (hr.lift rfl fun said hsaid => .group hsaid)

theorem argument_succ (s : Reading) :
    Always (fun r => Leads levels .argument s [r.1] r.2)
      (readArgument limits (supply + 1) depth s) := by
  simp only [readArgument]
  refine always_of_tick fun t _ => ?_
  split
  · next run ts htokens =>
    split
    · next hblank =>
      exact (ih.argument h _).imp fun r hr =>
        hr.lift rfl fun said hsaid => htokens ▸ .argBlank hblank hsaid
    · next c run' hrun => exact .ok (.quiet rfl (htokens ▸ .argChar hrun))
  · next ts htokens =>
    exact (ih.group h _).imp fun r hr => hr.lift rfl fun said hsaid => htokens ▸ .argGroup hsaid
  · next name ts htokens =>
    split
    · next hend =>
      exact .ok (.quiet rfl (.argMissing (.inr (by rw [htokens, hend]; rfl))))
    · next hend =>
      refine (always_deeper h).bind ?_
      rintro inner ⟨left, rfl, hinner⟩
      exact (ih.command hinner _ _).bind fun r hr =>
        .ok (hr.lift rfl fun said hsaid => htokens ▸ .argWord hend hsaid)
  · next c ts htokens => exact .ok (.quiet rfl (htokens ▸ .argSign))
  · next htext hbrace hword hsign =>
    refine .ok (.quiet rfl (.argMissing (.inl ?_)))
    unfold startsArgument
    split
    · next htokens => exact absurd htokens (htext _ _)
    · next htokens => exact absurd htokens (hbrace _)
    · next htokens => exact absurd htokens (hword _ _)
    · next htokens => exact absurd htokens (hsign _ _)
    · rfl

theorem optional_succ (s : Reading) :
    Always (fun r => Leads levels (.optional true) s r.1.toList r.2)
      (readOptional limits (supply + 1) depth s) := by
  simp only [readOptional]
  split
  · next ts hopen =>
    refine (always_deeper h).bind ?_
    rintro inner ⟨left, rfl, hinner⟩
    exact (ih.nodes hinner _ _ _).bind fun r hr =>
      .ok (hr.lift rfl fun said hsaid => .brackets hopen hsaid)
  · next hopen =>
    refine .ok (.quiet rfl (.noBrackets fun _ hhead => ?_))
    obtain ⟨ts, hts⟩ := List.head?_eq_some_iff.mp hhead
    exact hopen ts hts

theorem arguments (n : Nat) (s : Reading) :
    Always (fun r => Leads levels (.arguments n) s r.1 r.2)
      (times (readArgument limits supply depth) n s) := by
  induction n generalizing s with
  | zero => exact .ok (.quiet rfl .noArguments)
  | succ n ihn =>
    exact (ih.argument h s).bind fun r hr => (ihn r.2).bind fun r' hr' =>
      .ok (hr.join hr' rfl rfl fun said said' hsaid hsaid' => .moreArguments hsaid hsaid')

theorem command_succ (name : String) (s : Reading) :
    Always (fun r => Leads levels (.command name) s r.1.toList r.2)
      (readCommand limits (supply + 1) depth name s) := by
  simp only [readCommand]
  split
  · next hbegin =>
    subst hbegin
    exact (ih.environment h s).bind fun r hr => .ok hr
  next hbegin =>
  split
  · next hend =>
    subst hend
    exact .ok (.single (notices_note rfl (s.at' _)) .strayEnd)
  next hend =>
  split
  · next hsizer => exact .ok (.quiet rfl (.sizer hsizer))
  next hsizer =>
  have hname : IsOrdinary name := ⟨hbegin, hend, hsizer⟩
  split
  · next shape hshape =>
    have hrest : ∀ r : Option Node × Reading,
        Leads levels (.optional shape.optional) s r.1.toList r.2 →
          Always (fun r => Leads levels (.command name) s r.1.toList r.2)
            (times (readArgument limits supply depth) shape.args r.2 >>= fun r' =>
              .ok (some (.command name r'.1 r.1), r'.2)) :=
      fun r hr => (ih.arguments h _ _).bind fun r' hr' =>
        .ok (hr.join hr' rfl rfl fun said said' hsaid hsaid' => .known hname hshape hsaid hsaid')
    split
    · next hallowed => exact (ih.optional h s).bind fun r hr => hrest r (hallowed.symm ▸ hr)
    · next hallowed =>
      exact hrest (none, s) (.quiet rfl (.noBrackets fun hallowed' => absurd hallowed' hallowed))
  · next hshape =>
    have hnoted := notices_noteOnce (n := .unknownCommand name) rfl s
    split
    · next ts htokens =>
      rw [tokens_noteOnce] at htokens
      exact (ih.group h _).bind fun r hr => .ok (hr.report hnoted fun said hsaid =>
        htokens ▸ .unknownBraces hname hshape hsaid)
    · next hopen =>
      refine .ok (.single hnoted ?_)
      rw [tokens_noteOnce] at hopen ⊢
      refine .unknownBare hname hshape fun hhead => ?_
      obtain ⟨ts, hts⟩ := List.head?_eq_some_iff.mp hhead
      exact hopen ts hts

theorem environment_succ (s : Reading) :
    Always (fun r => Leads levels (.command "begin") s [r.1] r.2)
      (readEnvironment limits (supply + 1) depth s) := by
  simp only [readEnvironment]
  refine (always_deeper h).bind ?_
  rintro inner ⟨left, rfl, hinner⟩
  have hrest : ∀ r : Option Node × Reading,
      Leads left (.optional (isStatementEnvironment (bracedName s.tokens).1))
        (s.at' (bracedName s.tokens).2) r.1.toList r.2 →
      Always (fun r => Leads (left + 1) (.command "begin") s [r.1] r.2)
        (times (readArgument limits supply inner)
            (environmentArgs (bracedName s.tokens).1) r.2 >>= fun r₁ =>
          readRows limits supply inner (bracedName s.tokens).1 [] [] r₁.2 >>= fun r₂ =>
            .ok (table (bracedName s.tokens).1 r₂.1, r₂.2)) := by
    rintro r ⟨said, hsaid, hnotices⟩
    refine (ih.arguments hinner _ _).bind fun r₁ hr₁ => ?_
    refine (ih.rows hinner _ _ _ _).bind fun r₂ hr₂ => .ok ?_
    obtain ⟨said₁, hsaid₁, hnotices₁⟩ := hr₁
    obtain ⟨said₂, hsaid₂, hnotices₂⟩ := hr₂
    refine ⟨said ++ (said₁ ++ said₂), .environment hsaid hsaid₁ hsaid₂, ?_⟩
    rw [List.foldl_append, List.foldl_append, hnotices₂, hnotices₁, hnotices]
    rfl
  split
  · next hallowed =>
    exact (ih.optional hinner _).bind fun r hr => hrest r (hallowed.symm ▸ hr)
  · next hallowed =>
    exact hrest (none, s.at' _)
      (.quiet rfl (.noBrackets fun hallowed' => absurd hallowed' hallowed))

theorem rows_succ (name : String) (rows : List (List Node)) (row : List Node) (s : Reading) :
    Always (fun r => Leads levels (.rows name rows row) s [table name r.1] r.2)
      (readRows limits (supply + 1) depth name rows row s) := by
  simp only [readRows]
  refine (ih.nodes h _ _ _).bind fun r hr => ?_
  split
  · next ts htokens =>
    exact (ih.rows h _ _ _ _).imp fun r' hr' => hr.join hr' rfl rfl fun said said' hsaid hsaid' =>
      .nextCell (htokens ▸ hsaid) hsaid'
  · next ts htokens =>
    exact (ih.rows h _ _ _ _).imp fun r' hr' => hr.join hr' rfl rfl fun said said' hsaid hsaid' =>
      .nextRow (htokens ▸ hsaid) hsaid'
  · next ts htokens =>
    obtain ⟨said, hsaid, hnotices⟩ := hr
    rw [htokens] at hsaid
    have hlast := hsaid.lastCell name rows row
    refine .ok ?_
    show Leads levels (.rows name rows row) s [table name ((cell r.1 :: row).reverse :: rows)]
      (if (bracedName ts).1 = name then _ else _)
    split
    · next hname =>
      rw [if_pos hname, List.append_nil] at hlast
      exact ⟨said, hlast, hnotices⟩
    · next hname =>
      rw [if_neg hname] at hlast
      refine ⟨_, hlast, ?_⟩
      rw [List.foldl_append, ← hnotices]
      exact notices_note rfl _
  · next halign hrowSep hend =>
    obtain ⟨said, hsaid, hnotices⟩ := hr
    refine .ok ⟨said ++ [.unterminatedEnvironment name], .unclosed hsaid ⟨?_, ?_, ?_⟩, ?_⟩
    · intro hhead
      obtain ⟨ts, hts⟩ := List.head?_eq_some_iff.mp hhead
      exact halign ts hts
    · intro hhead
      obtain ⟨ts, hts⟩ := List.head?_eq_some_iff.mp hhead
      exact hrowSep ts hts
    · intro hhead
      obtain ⟨ts, hts⟩ := List.head?_eq_some_iff.mp hhead
      exact hend ts hts
    · rw [List.foldl_append, ← hnotices]
      exact notices_note rfl _

theorem scripts_succ (base : Node) (sub sup : Option Node) (s : Reading) :
    Always (fun r => Leads levels (.scripts base sub sup) s [r.1] r.2)
      (readScripts limits (supply + 1) depth base sub sup s) := by
  unfold readScripts
  split
  · next ts htokens =>
    exact (ih.argument h _).bind fun r hr => (ih.scripts h _ _ _ _).imp fun r' hr' =>
      hr.join hr' rfl rfl fun said said' hsaid hsaid' => htokens ▸ .subscript hsaid hsaid'
  · next ts htokens =>
    exact (ih.argument h _).bind fun r hr => (ih.scripts h _ _ _ _).imp fun r' hr' =>
      hr.join hr' rfl rfl fun said said' hsaid hsaid' => htokens ▸ .superscript hsaid hsaid'
  · next hsub hsup =>
    refine .ok (.quiet rfl (.scripted ?_))
    rintro (⟨hhead, rfl⟩ | ⟨hhead, rfl⟩)
    · obtain ⟨ts, hts⟩ := List.head?_eq_some_iff.mp hhead
      exact hsub ts hts rfl
    · obtain ⟨ts, hts⟩ := List.head?_eq_some_iff.mp hhead
      exact hsup ts hts rfl

end KeepsWith

theorem keepsWith (limits : ReadLimits) (supply : Nat) : KeepsWith limits supply := by
  induction supply with
  | zero => exact .zero
  | succ supply ih => exact {
      nodes := ih.nodes_succ
      group := ih.group_succ
      argument := ih.argument_succ
      optional := ih.optional_succ
      command := ih.command_succ
      environment := ih.environment_succ
      rows := ih.rows_succ
      scripts := ih.scripts_succ }

end Reading

open Reading

/-- **Every tree has a course**, on which just those findings are reported that have been noted. -/
theorem course_of_parse {limits : ReadLimits} {t : Text} {p : Parsed} (h : parse limits t = .ok p) :
    ∃ ns rest said, p.tree = .group ns ∧ p.notices = said.foldl Notice.noted [] ∧
      Course limits.maxDepth (.nodes .atEnd []) (tokenize t) ns rest said := by
  simp only [parse] at h
  split at h
  · cases h
  · split at h
    · cases h
    · next ns s hread =>
      obtain rfl := Except.ok.inj h
      obtain ⟨said, hsaid, hnotices⟩ :=
        (keepsWith limits _).nodes (Nat.zero_add _) _ _ _ _ hread
      exact ⟨ns, s.tokens, said, rfl, hnotices, hsaid⟩

end SpokenMath
