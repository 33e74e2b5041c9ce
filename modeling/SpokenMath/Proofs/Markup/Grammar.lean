import SpokenMath.Markup.Reader
import SpokenMath.Proofs.Markup.Tokens

/-!
# The grammar of the markup

What the reader makes of tokens, said without the supply of steps, the limit on nesting, the clock
and the notices: `Reads part ts ns rest` says that `part` reads the nodes `ns` off the tokens `ts`
and leaves `rest`. Environments are left out, so the words `\begin` and `\end` have no place in it.

A part gives a list of nodes, also where it gives one node or none, such as a bracketed argument
that may be missing or a word that sizes a delimiter.
-/

namespace SpokenMath

namespace Reading

/-! ## The grammar -/

/-- The parts of a reading. -/
inductive Part
  /-- Nodes up to `stop`, behind those read already, the last one of which comes first. -/
  | nodes (stop : Stop) (before : List Node)
  /-- A group behind its opening brace. -/
  | group
  | argument
  /-- A bracketed argument, if one may come and there is one. -/
  | optional (allowed : Bool)
  /-- What belongs to a control word. -/
  | command (name : String)
  | arguments (n : Nat)
  /-- The scripts of a base that has some already. -/
  | scripts (base : Node) (sub sup : Option Node)

/-- The text that a token adds to nodes that go on to `stop`. -/
def literal? (stop : Stop) : Token → Option Text
  | .text run => some run
  | .openBracket => some ['[']
  | .closeBracket => if stop = .atBracket then none else some [']']
  | .align | .rowSep => if stop = .atCell then none else some [' ']
  | _ => none

/-- What a token is that adds text. -/
theorem literal_cases {stop : Stop} {tok : Token} {run : Text} (h : literal? stop tok = some run) :
    tok = .text run ∨ tok = .openBracket ∧ run = ['['] ∨
      (tok = .closeBracket ∧ stop ≠ .atBracket) ∧ run = [']'] ∨
      ((tok = .align ∨ tok = .rowSep) ∧ stop ≠ .atCell) ∧ run = [' '] := by
  unfold literal? at h
  split at h
  · exact .inl (congrArg Token.text (Option.some.inj h))
  · exact .inr (.inl ⟨rfl, (Option.some.inj h).symm⟩)
  · split at h
    · cases h
    · next hstop => exact .inr (.inr (.inl ⟨⟨rfl, hstop⟩, (Option.some.inj h).symm⟩))
  · split at h
    · cases h
    · next hstop => exact .inr (.inr (.inr ⟨⟨.inl rfl, hstop⟩, (Option.some.inj h).symm⟩))
  · split at h
    · cases h
    · next hstop => exact .inr (.inr (.inr ⟨⟨.inr rfl, hstop⟩, (Option.some.inj h).symm⟩))
  · cases h

/-- Control words that size the delimiter behind them. -/
def IsSizer (name : String) : Prop := name = "left" ∨ name = "right" ∨ name = "middle"

/-- Control words that have a node of their own. -/
def IsOrdinary (name : String) : Prop := name ≠ "begin" ∧ name ≠ "end" ∧ ¬IsSizer name

theorem IsSizer.ne_environment {name : String} (h : IsSizer name) :
    name ≠ "begin" ∧ name ≠ "end" := by
  rcases h with rfl | rfl | rfl <;> decide

/-- An argument stands at the front of these tokens. -/
def startsArgument : List Token → Bool
  | .text _ :: _ | .openBrace :: _ | .command _ :: _ | .escaped _ :: _ => true
  | _ => false

/-- A mark stands at the front of the tokens that can still be hung on a base with these scripts. -/
def startsScript (ts : List Token) (sub sup : Option Node) : Prop :=
  ts.head? = some .sub ∧ sub = none ∨ ts.head? = some .sup ∧ sup = none

/-- A part reads nodes off the front of some tokens and leaves the rest. -/
inductive Reads : Part → List Token → List Node → List Token → Prop
  | atEnd {stop acc} : Reads (.nodes stop acc) [] acc.reverse []
  | closeBrace {acc ts} : Reads (.nodes .atBrace acc) (.closeBrace :: ts) acc.reverse ts
  | closeBracket {acc ts} : Reads (.nodes .atBracket acc) (.closeBracket :: ts) acc.reverse ts
  | strayBrace {stop acc ts out rest} (hbrace : stop ≠ .atBrace) (hcell : stop ≠ .atCell)
      (hrest : Reads (.nodes stop acc) ts out rest) :
      Reads (.nodes stop acc) (.closeBrace :: ts) out rest
  | literal {stop acc tok run ts out rest} (hrun : literal? stop tok = some run)
      (hrest : Reads (.nodes stop (pushText run acc)) ts out rest) :
      Reads (.nodes stop acc) (tok :: ts) out rest
  | braces {stop acc ts n ts' out rest} (hgroup : Reads .group ts [n] ts')
      (hrest : Reads (.nodes stop (n :: acc)) ts' out rest) :
      Reads (.nodes stop acc) (.openBrace :: ts) out rest
  | sign {stop acc c ts out rest}
      (hrest : Reads (.nodes stop (.bare (String.singleton c) :: acc)) ts out rest) :
      Reads (.nodes stop acc) (.escaped c :: ts) out rest
  | word {stop acc name ts ns ts' out rest} (hword : Reads (.command name) ts ns ts')
      (hrest : Reads (.nodes stop (ns ++ acc)) ts' out rest) :
      Reads (.nodes stop acc) (.command name :: ts) out rest
  | marks {stop acc tok ts n ts' out rest} (hmark : tok = .sub ∨ tok = .sup)
      (hscripts : Reads (.scripts (popBase acc).1 none none) (tok :: ts) [n] ts')
      (hrest : Reads (.nodes stop (n :: (popBase acc).2)) ts' out rest) :
      Reads (.nodes stop acc) (tok :: ts) out rest
  | group {ts out rest} (hnodes : Reads (.nodes .atBrace []) ts out rest) :
      Reads .group ts [.group out] rest
  | argBlank {run ts ns rest} (hblank : Text.trimStart run = [])
      (hrest : Reads .argument ts ns rest) : Reads .argument (.text run :: ts) ns rest
  | argChar {run c run' ts} (hrun : Text.trimStart run = c :: run') :
      Reads .argument (.text run :: ts) [.leaf [c]]
        (if run'.isEmpty then ts else .text run' :: ts)
  | argGroup {ts ns rest} (hgroup : Reads .group ts ns rest) :
      Reads .argument (.openBrace :: ts) ns rest
  | argWord {name ts ns rest} (hword : Reads (.command name) ts ns rest) :
      Reads .argument (.command name :: ts) [ns.head?.getD (.group [])] rest
  | argSign {c ts} : Reads .argument (.escaped c :: ts) [.bare (String.singleton c)] ts
  | argMissing {ts} (hmissing : startsArgument ts = false) : Reads .argument ts [.group []] ts
  | brackets {ts ts' out rest} (hopen : skipBlank ts = .openBracket :: ts')
      (hnodes : Reads (.nodes .atBracket []) ts' out rest) :
      Reads (.optional true) ts [.group out] rest
  | noBrackets {allowed ts}
      (hopen : allowed = true → (skipBlank ts).head? ≠ some .openBracket) :
      Reads (.optional allowed) ts [] ts
  | sizer {name ts} (hname : IsSizer name) : Reads (.command name) ts [] (skipPoint ts)
  | known {name shape ts o ts' args rest} (hname : IsOrdinary name)
      (hshape : Shape.ofCommand? name = some shape)
      (hoptional : Reads (.optional shape.optional) ts o ts')
      (hargs : Reads (.arguments shape.args) ts' args rest) :
      Reads (.command name) ts [.command name args o.head?] rest
  | unknownBraces {name ts n rest} (hname : IsOrdinary name)
      (hshape : Shape.ofCommand? name = none) (hgroup : Reads .group ts [n] rest) :
      Reads (.command name) (.openBrace :: ts) [.command name [n] none] rest
  | unknownBare {name ts} (hname : IsOrdinary name) (hshape : Shape.ofCommand? name = none)
      (hopen : ts.head? ≠ some .openBrace) : Reads (.command name) ts [.bare name] ts
  | noArguments {ts} : Reads (.arguments 0) ts [] ts
  | moreArguments {n ts x ts' xs rest} (harg : Reads .argument ts [x] ts')
      (hargs : Reads (.arguments n) ts' xs rest) :
      Reads (.arguments (n + 1)) ts (x :: xs) rest
  | subscript {base sup ts x ts' ns rest} (harg : Reads .argument ts [x] ts')
      (hrest : Reads (.scripts base (some x) sup) ts' ns rest) :
      Reads (.scripts base none sup) (.sub :: ts) ns rest
  | superscript {base sub ts x ts' ns rest} (harg : Reads .argument ts [x] ts')
      (hrest : Reads (.scripts base sub (some x)) ts' ns rest) :
      Reads (.scripts base sub none) (.sup :: ts) ns rest
  | scripted {base sub sup ts} (hmark : ¬startsScript ts sub sup) :
      Reads (.scripts base sub sup) ts [.script base sub sup] ts

/-- A word is read unless it belongs to an environment. -/
theorem Reads.name_ne_end {name : String} {ts rest : List Token} {ns : List Node}
    (h : Reads (.command name) ts ns rest) : name ≠ "end" := by
  cases h with
  | sizer hname => exact hname.ne_environment.2
  | known hname | unknownBraces hname | unknownBare hname => exact hname.2.1

/-- A group is one node. -/
theorem Reads.eq_group {ts rest : List Token} {ns : List Node} (h : Reads .group ts ns rest) :
    ∃ cs, ns = [.group cs] := by
  cases h with
  | group => exact ⟨_, rfl⟩

/-! ## What is left over -/

theorem skipBlank_suffix (ts : List Token) : skipBlank ts <:+ ts := by
  unfold skipBlank
  split
  · split
    · exact List.suffix_cons _ _
    · exact List.suffix_refl _
  · exact List.suffix_refl _

theorem nameAndRest_suffix (ts : List Token) : (nameAndRest ts).2 <:+ ts := by
  fun_induction nameAndRest ts with
  | case1 => exact List.suffix_refl _
  | case2 rest => exact List.suffix_cons _ _
  | case3 _ _ _ _ hrest ih | case4 _ _ _ _ hrest ih | case5 _ _ _ _ hrest ih =>
    rw [hrest] at ih
    exact ih.trans (List.suffix_cons _ _)
  | case6 _ _ _ _ _ _ ih => exact ih.trans (List.suffix_cons _ _)

theorem bracedName_suffix (ts : List Token) : (bracedName ts).2 <:+ ts := by
  unfold bracedName
  split
  · next rest htokens =>
    have hskip := skipBlank_suffix ts
    rw [htokens] at hskip
    exact (nameAndRest_suffix rest).trans ((List.suffix_cons _ _).trans hskip)
  · exact skipBlank_suffix ts

section

variable {P : Token → Prop} {ts : List Token}

theorem forall_skipPoint (hlasting : Token.Lasting P) (h : ∀ tok ∈ ts, P tok) :
    ∀ tok ∈ skipPoint ts, P tok := by
  unfold skipPoint
  split
  · next run ts =>
    obtain ⟨hrun, hts⟩ := List.forall_mem_cons.mp h
    split
    · exact hts
    · next hne =>
      exact List.forall_mem_cons.mpr
        ⟨hlasting _ _ hrun (List.suffix_cons _ _) (by simpa using hne), hts⟩
  · exact h

/-- A character is taken off a run. -/
theorem forall_behind {run run' : Text} {c : Char} (hlasting : Token.Lasting P)
    (hrun : run.trimStart = c :: run') (h : ∀ tok ∈ Token.text run :: ts, P tok) :
    ∀ tok ∈ if run'.isEmpty then ts else .text run' :: ts, P tok := by
  obtain ⟨htext, hts⟩ := List.forall_mem_cons.mp h
  split
  · exact hts
  · next hne =>
    have hsuffix : c :: run' <:+ run := hrun ▸ List.dropWhile_suffix isBlank
    exact List.forall_mem_cons.mpr
      ⟨hlasting _ _ htext ((List.suffix_cons c run').trans hsuffix) (by simpa using hne), hts⟩

end

/-- The tokens left over are tidy if those before were. -/
theorem Reads.tidy {part : Part} {ts : List Token} {ns : List Node} {rest : List Token}
    (h : Reads part ts ns rest) (hts : ∀ tok ∈ ts, tok.Tidy) : ∀ tok ∈ rest, tok.Tidy := by
  induction h with
  | atEnd => exact hts
  | closeBrace | closeBracket | argSign => exact (List.forall_mem_cons.mp hts).2
  | strayBrace _ _ _ ih | literal _ _ ih | sign _ ih | argBlank _ _ ih | argGroup _ ih
  | argWord _ ih | unknownBraces _ _ _ ih => exact ih (List.forall_mem_cons.mp hts).2
  | braces _ _ ih₁ ih₂ | word _ _ ih₁ ih₂ | subscript _ _ ih₁ ih₂ | superscript _ _ ih₁ ih₂ =>
    exact ih₂ (ih₁ (List.forall_mem_cons.mp hts).2)
  | marks _ _ _ ih₁ ih₂ => exact ih₂ (ih₁ hts)
  | moreArguments _ _ ih₁ ih₂ | known _ _ _ _ ih₁ ih₂ => exact ih₂ (ih₁ hts)
  | group _ ih => exact ih hts
  | argChar hrun => exact forall_behind Token.lasting_tidy hrun hts
  | brackets hopen _ ih =>
    refine ih fun tok htok => hts tok ((skipBlank_suffix _).subset ?_)
    rw [hopen]
    exact List.mem_cons_of_mem _ htok
  | sizer => exact forall_skipPoint Token.lasting_tidy hts
  | argMissing | noBrackets | unknownBare | noArguments | scripted => exact hts

/-! ## Weights -/

/-- The weight of tokens bounds the steps that a reading of them takes. -/
def weigh : List Token → Nat
  | [] => 0
  | tok :: ts => weight tok + weigh ts

@[simp] theorem weigh_nil : weigh [] = 0 := rfl

@[simp] theorem weigh_cons (tok : Token) (ts : List Token) :
    weigh (tok :: ts) = weight tok + weigh ts := rfl

theorem weight_pos (tok : Token) : 0 < weight tok := by
  cases tok <;> simp [weight]

theorem foldl_weight (n : Nat) (ts : List Token) :
    ts.foldl (fun n tok => n + weight tok) n = n + weigh ts := by
  induction ts generalizing n with
  | nil => rfl
  | cons tok ts ih => rw [List.foldl_cons, ih, weigh_cons, Nat.add_assoc]

theorem readingSupply_eq (ts : List Token) : readingSupply ts = 8 * weigh ts + 16 := by
  rw [readingSupply, foldl_weight, Nat.zero_add]

theorem weigh_le_of_suffix {ts ts' : List Token} (h : ts' <:+ ts) : weigh ts' ≤ weigh ts := by
  obtain ⟨front, rfl⟩ := h
  induction front with
  | nil => exact Nat.le_refl _
  | cons tok front ih => exact ih.trans (Nat.le_add_left _ _)

theorem weigh_skipBlank_le (ts : List Token) : weigh (skipBlank ts) ≤ weigh ts :=
  weigh_le_of_suffix (skipBlank_suffix ts)

theorem weigh_skipPoint_le (ts : List Token) : weigh (skipPoint ts) ≤ weigh ts := by
  unfold skipPoint
  split
  · split
    · simp
    · simp [weight]
  · exact Nat.le_refl _

theorem length_trimStart_le (t : Text) : t.trimStart.length ≤ t.length :=
  length_dropWhile_le isBlank t

/-- A part adds no weight. -/
theorem Reads.weigh_le {part : Part} {ts : List Token} {ns : List Node} {rest : List Token}
    (h : Reads part ts ns rest) : weigh rest ≤ weigh ts := by
  induction h with
  | atEnd | argMissing | noBrackets | unknownBare | noArguments | scripted => exact Nat.le_refl _
  | closeBrace | closeBracket | argSign => exact Nat.le_add_left _ _
  | strayBrace _ _ _ ih | literal _ _ ih | sign _ ih | argBlank _ _ ih | argGroup _ ih
  | argWord _ ih | unknownBraces _ _ _ ih => exact ih.trans (Nat.le_add_left _ _)
  | braces _ _ ih₁ ih₂ | word _ _ ih₁ ih₂ | subscript _ _ ih₁ ih₂ | superscript _ _ ih₁ ih₂ =>
    exact (ih₂.trans ih₁).trans (Nat.le_add_left _ _)
  | marks _ _ _ ih₁ ih₂ | moreArguments _ _ ih₁ ih₂ | known _ _ _ _ ih₁ ih₂ => exact ih₂.trans ih₁
  | group _ ih => exact ih
  | @argChar run c run' ts hrun =>
    have hlength := length_trimStart_le run
    rw [hrun, List.length_cons] at hlength
    simp only [weigh_cons, weight]
    split
    · omega
    · simp only [weigh_cons, weight]
      omega
  | @brackets ts _ _ _ hopen _ ih =>
    have hskip := weigh_skipBlank_le ts
    rw [hopen, weigh_cons] at hskip
    omega
  | sizer => exact weigh_skipPoint_le _

/-- The first mark is hung on a base that has no scripts yet. -/
theorem Reads.weigh_lt_of_marks {base : Node} {tok : Token} {ts : List Token} {ns : List Node}
    {rest : List Token} (h : Reads (.scripts base none none) (tok :: ts) ns rest)
    (hmark : tok = .sub ∨ tok = .sup) : weigh rest < weigh (tok :: ts) := by
  cases h with
  | subscript harg hrest | superscript harg hrest =>
    have hle := hrest.weigh_le.trans harg.weigh_le
    have hpos := weight_pos .sub
    simp only [weigh_cons, weight] at hpos ⊢
    omega
  | scripted hnone =>
    refine absurd ?_ hnone
    rcases hmark with rfl | rfl
    · exact .inl ⟨rfl, rfl⟩
    · exact .inr ⟨rfl, rfl⟩

end Reading

end SpokenMath
