import SpokenMath.Proofs.Markup.DepthLimit
import SpokenMath.Proofs.Markup.Notices

/-!
# When braces are found unbalanced

Braces are opened by groups, by arguments and behind words that are not known, and each of them is
read up to its closer by a task of its own. What a task reports says how it leaves the braces
(`Settles`): without a report those that it had to close are closed and all others are as they were,
and with one the end of the text was met while a brace was open. A closer that closes nothing is met
at the outermost level only, as every other level takes it for its own.

**Theorem (`unbalanced_of_parse`).** Where no bracket is opened and no environment stands in a text,
the reader notes that delimiters do not balance exactly if the braces are not well nested, and it
notes this once.
-/

namespace SpokenMath

/-! ## Braces that are open -/

/-- How many braces are open behind the tokens where `k` are open in front of them. A closer has to
find one that is open. -/
def openBehind : Nat → List Token → Option Nat
  | k, [] => some k
  | k, .openBrace :: ts => openBehind (k + 1) ts
  | 0, .closeBrace :: _ => none
  | k + 1, .closeBrace :: ts => openBehind k ts
  | k, _ :: ts => openBehind k ts

/-- Nowhere have more braces been closed than opened, and in the end as many have been. -/
def WellNested (ts : List Token) : Prop :=
  (∀ front, front <+: ts → front.count .closeBrace ≤ front.count .openBrace) ∧
    ts.count .closeBrace = ts.count .openBrace

/-- The token is no brace. -/
def Token.IsApart (tok : Token) : Prop := tok ≠ .openBrace ∧ tok ≠ .closeBrace

/-- The token opens no bracket and has nothing to do with an environment. -/
def Token.IsLoose (tok : Token) : Prop :=
  tok ≠ .openBracket ∧ tok ≠ .command "begin" ∧ tok ≠ .command "end"

theorem Token.lasting_isLoose : Token.Lasting Token.IsLoose := fun _ _ _ _ _ => by
  simp [IsLoose]

section

variable {k j : Nat} {tok : Token} {ts : List Token}

@[simp] theorem openBehind_nil : openBehind k [] = some k := by simp [openBehind]

@[simp] theorem openBehind_openBrace : openBehind k (.openBrace :: ts) = openBehind (k + 1) ts := by
  simp [openBehind]

@[simp] theorem openBehind_closeBrace :
    openBehind (k + 1) (.closeBrace :: ts) = openBehind k ts := rfl

theorem openBehind_of_isApart (h : tok.IsApart) : openBehind k (tok :: ts) = openBehind k ts := by
  cases tok with
  | openBrace => exact absurd rfl h.1
  | closeBrace => exact absurd rfl h.2
  | _ => simp [openBehind]

@[simp] theorem openBehind_text {run : Text} :
    openBehind k (.text run :: ts) = openBehind k ts := openBehind_of_isApart ⟨nofun, nofun⟩

/-- What holds of all prefixes, one token at a time. -/
theorem forall_prefix_cons {P : List Token → Prop} (hnil : P []) :
    (∀ front, front <+: tok :: ts → P front) ↔ ∀ front, front <+: ts → P (tok :: front) := by
  refine ⟨fun h front hfront => h _ ((List.prefix_cons_inj tok).mpr hfront),
    fun h front hfront => ?_⟩
  rcases List.prefix_cons_iff.mp hfront with rfl | ⟨front, rfl, hts⟩
  · exact hnil
  · exact h front hts

/-- The number of open braces, found by counting. -/
theorem openBehind_eq_some_iff : openBehind k ts = some j ↔
    (∀ front, front <+: ts → front.count .closeBrace ≤ k + front.count .openBrace) ∧
      j + ts.count .closeBrace = k + ts.count .openBrace := by
  induction ts generalizing k with
  | nil => simp [eq_comm]
  | cons tok ts ih =>
    rw [forall_prefix_cons (Nat.zero_le _)]
    by_cases hopen : tok = .openBrace
    · subst hopen
      rw [openBehind_openBrace]
      refine ih.trans (and_congr (forall₂_congr fun front _ => ?_) ?_) <;>
        simp only [List.count_cons_self, List.count_cons_of_ne, ne_eq, reduceCtorEq,
          not_false_eq_true] <;> omega
    by_cases hclose : tok = .closeBrace
    · subst hclose
      cases k with
      | zero =>
        -- The closer is a prefix that has closed one more than was open.
        refine iff_of_false nofun fun h => ?_
        simpa using h.1 [] List.nil_prefix
      | succ k =>
        rw [openBehind_closeBrace]
        refine ih.trans (and_congr (forall₂_congr fun front _ => ?_) ?_) <;>
          simp only [List.count_cons_self, List.count_cons_of_ne, ne_eq, reduceCtorEq,
            not_false_eq_true] <;> omega
    · rw [openBehind_of_isApart ⟨hopen, hclose⟩]
      simp only [List.count_cons_of_ne hopen, List.count_cons_of_ne hclose]
      exact ih

/-- Braces are well nested if none is open in the end. -/
theorem openBehind_eq_zero_iff : openBehind 0 ts = some 0 ↔ WellNested ts := by
  simp only [openBehind_eq_some_iff, WellNested, Nat.zero_add]

end

instance (ts : List Token) : Decidable (WellNested ts) :=
  decidable_of_iff _ openBehind_eq_zero_iff

namespace Reading

variable {owed owed' k : Nat} {tok : Token} {ts ts' rest : List Token} {said said' : List Notice}

/-! ## What a task does to the braces -/

/-- What leaves `rest` of the tokens has closed `owed` braces more than it has opened, and has
reported nothing; or it has reported that a brace is open at the end. -/
structure Settles (owed : Nat) (ts rest : List Token) (said : List Notice) : Prop where
  closed : .unbalancedDelimiter ∉ said → ∀ k, openBehind (k + owed) ts = openBehind k rest
  unclosed : .unbalancedDelimiter ∈ said → ∀ k, ∃ j, k < j ∧ openBehind (k + owed) ts = some j

namespace Settles

theorem refl (ts : List Token) : Settles 0 ts ts [] := ⟨fun _ _ => rfl, nofun⟩

/-- One thing after the other. -/
theorem trans (h : Settles owed ts ts' said) (h' : Settles owed' ts' rest said') :
    Settles (owed' + owed) ts rest (said ++ said') where
  closed hsaid k := by
    rw [List.mem_append, not_or] at hsaid
    rw [← Nat.add_assoc, h.closed hsaid.1, h'.closed hsaid.2]
  unclosed hsaid k := by
    rw [← Nat.add_assoc]
    by_cases hfirst : .unbalancedDelimiter ∈ said
    · obtain ⟨j, hj, hopen⟩ := h.unclosed hfirst (k + owed')
      exact ⟨j, Nat.lt_of_le_of_lt (Nat.le_add_right k owed') hj, hopen⟩
    · obtain ⟨j, hj, hopen⟩ :=
        h'.unclosed ((List.mem_append.mp hsaid).resolve_left hfirst) k
      exact ⟨j, hj, (h.closed hfirst _).trans hopen⟩

/-- Tokens with as many open braces may stand in for others. -/
theorem of_eq (h : Settles owed ts rest said)
    (heq : ∀ k, openBehind (k + owed') ts' = openBehind (k + owed) ts) :
    Settles owed' ts' rest said where
  closed hsaid k := (heq k).trans (h.closed hsaid k)
  unclosed hsaid k := (h.unclosed hsaid k).imp fun _ hj => ⟨hj.1, (heq k).trans hj.2⟩

theorem apart (h : Settles owed ts rest said) (htok : tok.IsApart) :
    Settles owed (tok :: ts) rest said :=
  h.of_eq fun _ => openBehind_of_isApart htok

theorem openBrace (h : Settles (owed + 1) ts rest said) :
    Settles owed (.openBrace :: ts) rest said :=
  h.of_eq fun _ => openBehind_openBrace

/-- A report that is not about delimiters makes no difference. -/
theorem report {n : Notice} (h : Settles owed ts rest said) (hn : n ≠ .unbalancedDelimiter) :
    Settles owed ts rest (n :: said) where
  closed hsaid := h.closed fun hmem => hsaid (List.mem_cons_of_mem n hmem)
  unclosed hsaid := h.unclosed ((List.mem_cons.mp hsaid).resolve_left hn.symm)

end Settles

/-! ## Along the course -/

/-- What a task does to the braces, if it has to do with braces only. Nodes at the outermost level
are read up to the end of the text, and whatever goes wrong is reported there. -/
def Task.Settles : Task → List Token → List Token → List Notice → Prop
  | nodes .atEnd _, ts, _, said => .unbalancedDelimiter ∈ said ↔ openBehind 0 ts ≠ some 0
  | nodes .atBrace _, ts, rest, said | group, ts, rest, said => Reading.Settles 1 ts rest said
  | command name, ts, rest, said =>
    name ≠ "begin" → name ≠ "end" → Reading.Settles 0 ts rest said
  | argument, ts, rest, said | optional _, ts, rest, said | arguments _, ts, rest, said
  | scripts _ _ _, ts, rest, said => Reading.Settles 0 ts rest said
  | nodes _ _, _, _, _ | rows _ _ _, _, _, _ => True

/-- Something is read in front of the other nodes. -/
theorem Settles.nodes {stop : Stop} {acc acc' : List Node} (h : Settles 0 ts ts' said)
    (hrest : (Task.nodes stop acc').Settles ts' rest said') :
    (Task.nodes stop acc).Settles ts rest (said ++ said') := by
  cases stop with
  | atEnd =>
    show _ ∈ said ++ said' ↔ _
    rw [List.mem_append]
    by_cases hsaid : .unbalancedDelimiter ∈ said
    · obtain ⟨j, hj, hopen⟩ := h.unclosed hsaid 0
      refine iff_of_true (.inl hsaid) fun hzero => ?_
      rw [hopen] at hzero
      exact Nat.ne_of_gt hj (Option.some.inj hzero)
    · rw [or_iff_right hsaid, h.closed hsaid 0]
      exact hrest
  | atBrace => exact h.trans hrest
  | atBracket | atCell => trivial

/-- A token that is no brace is read in front of the other nodes. -/
theorem Settles.nodes_cons {stop : Stop} {acc acc' : List Node} (htok : tok.IsApart)
    (hrest : (Task.nodes stop acc').Settles ts rest said) :
    (Task.nodes stop acc).Settles (tok :: ts) rest said :=
  ((refl ts).apart htok).nodes hrest

theorem isApart_of_literal {stop : Stop} {run : Text} (h : literal? stop tok = some run) :
    tok.IsApart := by
  rcases literal_cases h with rfl | ⟨rfl, -⟩ | ⟨⟨rfl, -⟩, -⟩ | ⟨⟨rfl | rfl, -⟩, -⟩ <;>
    exact ⟨nofun, nofun⟩

/-- Blanks in front of a bracket are no braces. -/
theorem skipBlank_eq_of_head {ts' : List Token} (h : skipBlank ts = tok :: ts') : tok ∈ ts :=
  (skipBlank_suffix ts).subset (h ▸ List.mem_cons_self)

/-- Without environments and brackets, every task settles what it has to do with braces. -/
theorem Course.settles {levels : Nat} {task : Task} {ns : List Node}
    (h : Course levels task ts ns rest said) (hts : ∀ tok ∈ ts, tok.IsLoose) :
    task.Settles ts rest said := by
  have hword {name : String} : (Token.command name).IsApart := ⟨nofun, nofun⟩
  induction h with
  | @atEnd _ stop _ =>
    cases stop with
    | atEnd => exact iff_of_false nofun (not_not_intro openBehind_nil)
    | atBrace =>
      exact ⟨fun hsaid => absurd (List.mem_singleton_self _) hsaid,
        fun _ k => ⟨k + 1, Nat.lt_succ_self k, openBehind_nil⟩⟩
    | atBracket | atCell => trivial
  | closed hcloses =>
    obtain ⟨rfl, rfl⟩ | ⟨rfl, rfl⟩ := hcloses
    · exact (Settles.refl _).of_eq fun _ => openBehind_closeBrace
    · trivial
  | cellEnd => trivial
  | @strayBrace _ stop _ _ _ _ _ hbrace hcell =>
    cases stop with
    | atEnd => exact iff_of_true List.mem_cons_self nofun
    | atBrace => exact absurd rfl hbrace
    | atBracket | atCell => trivial
  | literal hrun _ ih =>
    exact Settles.nodes_cons (isApart_of_literal hrun) (ih (List.forall_mem_cons.mp hts).2)
  | braces hgroup _ ih ih' =>
    have hts := (List.forall_mem_cons.mp hts).2
    exact (Settles.openBrace (ih hts)).nodes (ih' (hgroup.forall_rest Token.lasting_isLoose hts))
  | sign _ ih => exact Settles.nodes_cons ⟨nofun, nofun⟩ (ih (List.forall_mem_cons.mp hts).2)
  | word _ hcommand _ ih ih' =>
    obtain ⟨⟨-, hbegin, hend⟩, hts⟩ := List.forall_mem_cons.mp hts
    have hcommand := hcommand.forall_rest Token.lasting_isLoose hts
    have hsettles := ih hts (fun heq => hbegin (congrArg _ heq)) fun heq => hend (congrArg _ heq)
    exact (hsettles.apart hword).nodes (ih' hcommand)
  | marks _ hscripts _ ih ih' =>
    exact Settles.nodes (ih hts) (ih' (hscripts.forall_rest Token.lasting_isLoose hts))
  | group _ ih => exact ih hts
  | argBlank _ _ ih => exact (ih (List.forall_mem_cons.mp hts).2).apart ⟨nofun, nofun⟩
  | argChar hrun =>
    refine (Settles.refl _).of_eq fun k => ?_
    split <;> simp only [openBehind_text]
  | argGroup _ ih => exact (ih (List.forall_mem_cons.mp hts).2).openBrace
  | argWord hname _ ih =>
    obtain ⟨⟨-, hbegin, -⟩, hts⟩ := List.forall_mem_cons.mp hts
    exact (ih hts (fun heq => hbegin (congrArg _ heq)) hname).apart hword
  | argSign => exact (Settles.refl _).apart ⟨nofun, nofun⟩
  | argMissing | noBrackets | noArguments | scripted => exact .refl _
  | brackets hopen => exact absurd rfl (hts _ (skipBlank_eq_of_head hopen)).1
  | environment => exact fun hbegin _ => absurd rfl hbegin
  | strayEnd => exact fun _ hend => absurd rfl hend
  | @sizer _ _ ts =>
    intro _ _
    refine (Settles.refl _).of_eq fun k => ?_
    unfold skipPoint
    split
    · split <;> simp only [openBehind_text]
    · rfl
  | known _ _ hoptional _ ih ih' =>
    exact fun _ _ => (ih hts).trans (ih' (hoptional.forall_rest Token.lasting_isLoose hts))
  | unknownBraces _ _ _ ih =>
    exact fun _ _ => ((ih (List.forall_mem_cons.mp hts).2).openBrace).report nofun
  | unknownBare => exact fun _ _ => (Settles.refl _).report nofun
  | moreArguments harg _ ih ih' =>
    exact (ih hts).trans (ih' (harg.forall_rest Token.lasting_isLoose hts))
  | nextCell | nextRow | lastCell | unclosed => trivial
  | subscript harg _ ih ih' | superscript harg _ ih ih' =>
    have hts := (List.forall_mem_cons.mp hts).2
    have hsettles : Reading.Settles 0 _ _ _ :=
      Settles.trans (ih hts) (ih' (harg.forall_rest Token.lasting_isLoose hts))
    exact hsettles.apart ⟨nofun, nofun⟩

end Reading

open Reading

/-- **Braces are found unbalanced exactly if they are**, and this is noted once. The text opens no
bracket and has no word for an environment. -/
theorem unbalanced_of_parse {limits : ReadLimits} {t : Text} {p : Parsed}
    (hbracket : .openBracket ∉ tokenize t) (hbegin : .command "begin" ∉ tokenize t)
    (hend : .command "end" ∉ tokenize t) (h : parse limits t = .ok p) :
    (.unbalancedDelimiter ∈ p.notices ↔ ¬WellNested (tokenize t)) ∧
      p.notices.count .unbalancedDelimiter ≤ 1 := by
  obtain ⟨ns, rest, said, -, hnotices, hcourse⟩ := course_of_parse h
  have hloose : ∀ tok ∈ tokenize t, tok.IsLoose := fun tok htok =>
    ⟨fun heq => hbracket (heq ▸ htok), fun heq => hbegin (heq ▸ htok),
      fun heq => hend (heq ▸ htok)⟩
  have hsettles : .unbalancedDelimiter ∈ said ↔ openBehind 0 (tokenize t) ≠ some 0 :=
    hcourse.settles hloose
  rw [hnotices]
  refine ⟨?_, Notice.count_foldl_noted_le_one rfl (Nat.zero_le 1)⟩
  rw [Notice.mem_foldl_noted_iff, or_iff_right List.not_mem_nil, hsettles, ne_eq,
    openBehind_eq_zero_iff]

/-- As many braces are closed as are opened, but the first one is closed too early. -/
theorem unbalanced_of_parse_crossed :
    ∃ p, parse (.untimed 8) "\\vec\x7d\\frac\x7ba\x7d\\q\x7bb".toList = .ok p ∧
      .openBracket ∉ tokenize "\\vec\x7d\\frac\x7ba\x7d\\q\x7bb".toList ∧
      .command "begin" ∉ tokenize "\\vec\x7d\\frac\x7ba\x7d\\q\x7bb".toList ∧
      .command "end" ∉ tokenize "\\vec\x7d\\frac\x7ba\x7d\\q\x7bb".toList ∧
      (.unbalancedDelimiter ∈ p.notices ↔
        ¬WellNested (tokenize "\\vec\x7d\\frac\x7ba\x7d\\q\x7bb".toList)) ∧
      p.notices.count .unbalancedDelimiter ≤ 1 := by
  have hread : (parse (.untimed 8) "\\vec\x7d\\frac\x7ba\x7d\\q\x7bb".toList).toOption.map
      (·.notices) = some [.unbalancedDelimiter, .unknownCommand "q"] := by decide +kernel
  obtain ⟨p, hparse, -⟩ := exists_parse_of_map hread
  have hloose : .openBracket ∉ tokenize "\\vec\x7d\\frac\x7ba\x7d\\q\x7bb".toList ∧
      .command "begin" ∉ tokenize "\\vec\x7d\\frac\x7ba\x7d\\q\x7bb".toList ∧
      .command "end" ∉ tokenize "\\vec\x7d\\frac\x7ba\x7d\\q\x7bb".toList := by decide +kernel
  obtain ⟨hbracket, hbegin, hend⟩ := hloose
  exact ⟨p, hparse, hbracket, hbegin, hend, unbalanced_of_parse hbracket hbegin hend hparse⟩

end SpokenMath
