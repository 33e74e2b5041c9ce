import SpokenMath.Proofs.Markup.Course
import SpokenMath.Proofs.Markup.DepthLimit
import SpokenMath.Proofs.Markup.Reading

/-!
# Reading always ends

The reader recurs on a supply of steps that is computed from the tokens. Each of its parts takes
tokens away, or hands them to a part that does, so eight steps for each unit of weight and a few
more are enough (`EndsWith`), whatever the input. What is left can fail only where nesting goes one
level beyond the limit.

**Theorem (`parse_ends`).** Without a deadline a text has a tree, or it nests too deep by one; and
the tree that it has under one limit it has under all higher ones.
-/

namespace SpokenMath

/-! ## What holds of an error -/

/-- Something holds of the error, if there is one. -/
def Fails {ε α : Type} (P : ε → Prop) (x : Except ε α) : Prop := ∀ e, x = .error e → P e

namespace Fails

variable {ε α β : Type} {P : ε → Prop} {x : Except ε α} {f : α → Except ε β}

theorem ok (a : α) : Fails P (.ok a : Except ε α) := nofun

theorem error {e : ε} (h : P e) : Fails P (.error e : Except ε α) := by
  rintro _ ⟨⟩
  exact h

theorem bind (h : Fails P x) (hf : ∀ a, x = .ok a → Fails P (f a)) : Fails P (x >>= f) := by
  cases x with
  | error e => exact error (h e rfl)
  | ok a => exact hf a rfl

end Fails

namespace Reading

variable {limits : ReadLimits} {supply depth : Nat} {s s' : Reading}

/-! ## Weights along the course -/

/-- What stands behind a token weighs less. -/
theorem weigh_lt_of_eq_cons {tok : Token} {ts ts' : List Token} (h : ts = tok :: ts') :
    weigh ts' < weigh ts := by
  have hpos := weight_pos tok
  rw [h, weigh_cons]
  omega

theorem weigh_bracedName_le (ts : List Token) : weigh (bracedName ts).2 ≤ weigh ts :=
  weigh_le_of_suffix (bracedName_suffix ts)

/-- A task adds no weight. -/
theorem Course.weigh_le {levels : Nat} {task : Task} {ts rest : List Token} {ns : List Node}
    {said : List Notice} (h : Course levels task ts ns rest said) : weigh rest ≤ weigh ts := by
  induction h with
  | atEnd | cellEnd | argMissing | noBrackets | unknownBare | noArguments | scripted =>
    exact Nat.le_refl _
  | closed | argSign => exact Nat.le_add_left _ _
  | strayBrace _ _ _ ih | literal _ _ ih | sign _ ih | argBlank _ _ ih | argGroup _ ih
  | argWord _ _ ih | unknownBraces _ _ _ ih => exact ih.trans (Nat.le_add_left _ _)
  | braces _ _ ih ih' | word _ _ _ ih ih' | subscript _ _ ih ih' | superscript _ _ ih ih' =>
    exact (ih'.trans ih).trans (Nat.le_add_left _ _)
  | marks _ _ _ ih ih' | moreArguments _ _ ih ih' | known _ _ _ _ ih ih' => exact ih'.trans ih
  | group _ ih | unclosed _ _ ih => exact ih
  | argChar hrun => exact (Reads.argChar hrun).weigh_le
  | @brackets _ ts _ _ _ _ hopen _ ih =>
    have hskip := weigh_skipBlank_le ts
    rw [hopen, weigh_cons] at hskip
    omega
  | environment _ _ _ ih ih' ih'' =>
    exact (ih''.trans (ih'.trans ih)).trans (weigh_bracedName_le _)
  | strayEnd => exact weigh_bracedName_le _
  | sizer => exact weigh_skipPoint_le _
  | nextCell _ _ ih ih' | nextRow _ _ ih ih' =>
    exact ih'.trans ((Nat.le_add_left _ _).trans ih)
  | lastCell _ _ _ _ ih =>
    exact (weigh_bracedName_le _).trans ((Nat.le_add_left _ _).trans ih)

/-- The first mark is hung on a base that has no scripts yet. -/
theorem Course.weigh_lt_of_marks {levels : Nat} {base : Node} {tok : Token} {ts rest : List Token}
    {ns : List Node} {said : List Notice} (hmark : tok = .sub ∨ tok = .sup)
    (h : Course levels (.scripts base none none) (tok :: ts) ns rest said) :
    weigh rest < weigh (tok :: ts) := by
  cases h with
  | subscript harg hrest | superscript harg hrest =>
    have hle := hrest.weigh_le.trans harg.weigh_le
    simp only [weigh_cons, weight]
    omega
  | scripted hnone =>
    refine absurd ?_ hnone
    exact hmark.imp (fun h => ⟨congrArg some h, rfl⟩) fun h => ⟨congrArg some h, rfl⟩

theorem Leads.weigh_le {levels : Nat} {task : Task} {ns : List Node}
    (h : Leads levels task s ns s') : weigh s'.tokens ≤ weigh s.tokens :=
  let ⟨_, hcourse, _⟩ := h
  hcourse.weigh_le

/-! ## The supply is enough -/

/-- What is done behind a look at a clock that never runs out. -/
theorem fails_tick {α : Type} {P : ReadError → Prop} {f : Reading → Except ReadError α}
    (hlimits : Patient limits) (h : ∀ t, t.tokens = s.tokens → Fails P (f t)) :
    Fails P (s.tick limits >>= f) := by
  obtain ⟨t, htick, ht⟩ := tick_of_patient hlimits s
  rw [htick]
  exact h t ht

/-- Going deeper fails one level beyond the limit. -/
theorem fails_deeper {α : Type} {f : Nat → Except ReadError α} (hdepth : depth ≤ limits.maxDepth)
    (h : ∀ inner ≤ limits.maxDepth, Fails (· = limits.tooDeep) (f inner)) :
    Fails (· = limits.tooDeep) (deeper limits depth >>= f) := by
  unfold deeper
  split
  · next hdeep =>
    have hlast : depth = limits.maxDepth := by omega
    exact .error (by rw [hlast]; rfl)
  · next hdeep => exact h (depth + 1) (by omega)

/-- With so much supply for the weight of the tokens, every part can fail only for nesting. -/
structure EndsWith (limits : ReadLimits) (supply : Nat) : Prop where
  nodes : ∀ depth ≤ limits.maxDepth, ∀ stop acc s, 8 * weigh s.tokens + 2 ≤ supply →
    Fails (· = limits.tooDeep) (readNodes limits supply depth stop acc s)
  group : ∀ depth ≤ limits.maxDepth, ∀ s, 8 * weigh s.tokens + 3 ≤ supply →
    Fails (· = limits.tooDeep) (readGroup limits supply depth s)
  argument : ∀ depth ≤ limits.maxDepth, ∀ s, 8 * weigh s.tokens + 1 ≤ supply →
    Fails (· = limits.tooDeep) (readArgument limits supply depth s)
  optional : ∀ depth ≤ limits.maxDepth, ∀ s, 8 * weigh s.tokens + 1 ≤ supply →
    Fails (· = limits.tooDeep) (readOptional limits supply depth s)
  command : ∀ depth ≤ limits.maxDepth, ∀ name s, 8 * weigh s.tokens + 5 ≤ supply →
    Fails (· = limits.tooDeep) (readCommand limits supply depth name s)
  environment : ∀ depth ≤ limits.maxDepth, ∀ s, 8 * weigh s.tokens + 4 ≤ supply →
    Fails (· = limits.tooDeep) (readEnvironment limits supply depth s)
  rows : ∀ depth ≤ limits.maxDepth, ∀ name rows row s, 8 * weigh s.tokens + 3 ≤ supply →
    Fails (· = limits.tooDeep) (readRows limits supply depth name rows row s)
  scripts : ∀ depth ≤ limits.maxDepth, ∀ base sub sup s, 8 * weigh s.tokens + 1 ≤ supply →
    Fails (· = limits.tooDeep) (readScripts limits supply depth base sub sup s)

namespace EndsWith

theorem zero : EndsWith limits 0 := by
  constructor <;> intros <;> omega

variable (ih : EndsWith limits supply) (hlimits : Patient limits) (hdepth : depth ≤ limits.maxDepth)

include ih hdepth

theorem arguments (n : Nat) (s : Reading) (hsupply : 8 * weigh s.tokens + 1 ≤ supply) :
    Fails (· = limits.tooDeep) (times (readArgument limits supply depth) n s) := by
  induction n generalizing s with
  | zero => exact .ok _
  | succ n ihn =>
    refine (ih.argument depth hdepth s hsupply).bind fun r hr => ?_
    have hle := ((keepsWith limits supply).argument (Nat.add_sub_cancel' hdepth) s r hr).weigh_le
    exact (ihn r.2 (by omega)).bind fun _ _ => .ok _

theorem command_succ (name : String) (s : Reading) (hsupply : 8 * weigh s.tokens + 4 ≤ supply) :
    Fails (· = limits.tooDeep) (readCommand limits (supply + 1) depth name s) := by
  simp only [readCommand]
  split
  · exact (ih.environment depth hdepth s hsupply).bind fun _ _ => .ok _
  split
  · exact .ok _
  split
  · exact .ok _
  split
  · next shape _ =>
    have hargs : ∀ t : Reading, weigh t.tokens ≤ weigh s.tokens →
        Fails (· = limits.tooDeep) (times (readArgument limits supply depth) shape.args t) :=
      fun t ht => ih.arguments hdepth _ t (by omega)
    split
    · refine (ih.optional depth hdepth s (by omega)).bind fun r hr => ?_
      have hle := ((keepsWith limits supply).optional (Nat.add_sub_cancel' hdepth) s r hr).weigh_le
      exact (hargs r.2 hle).bind fun _ _ => .ok _
    · exact (hargs s (Nat.le_refl _)).bind fun _ _ => .ok _
  · split
    · next ts htokens =>
      rw [tokens_noteOnce] at htokens
      have hlt := weigh_lt_of_eq_cons htokens
      exact (ih.group depth hdepth _ (by rw [tokens_at']; omega)).bind fun _ _ => .ok _
    · exact .ok _

theorem rows_succ (name : String) (rows : List (List Node)) (row : List Node) (s : Reading)
    (hsupply : 8 * weigh s.tokens + 2 ≤ supply) :
    Fails (· = limits.tooDeep) (readRows limits (supply + 1) depth name rows row s) := by
  simp only [readRows]
  refine (ih.nodes depth hdepth _ _ s hsupply).bind fun r hr => ?_
  have hle := ((keepsWith limits supply).nodes (Nat.add_sub_cancel' hdepth) _ _ s r hr).weigh_le
  split
  · next ts htokens =>
    have hlt := weigh_lt_of_eq_cons htokens
    exact ih.rows depth hdepth _ _ _ _ (by rw [tokens_at']; omega)
  · next ts htokens =>
    have hlt := weigh_lt_of_eq_cons htokens
    exact ih.rows depth hdepth _ _ _ _ (by rw [tokens_at']; omega)
  · exact .ok _
  · exact .ok _

theorem scripts_succ (base : Node) (sub sup : Option Node) (s : Reading)
    (hsupply : 8 * weigh s.tokens ≤ supply) :
    Fails (· = limits.tooDeep) (readScripts limits (supply + 1) depth base sub sup s) := by
  have hmark : ∀ {tok ts} (sub' sup' : Node → Option Node), s.tokens = tok :: ts →
      Fails (· = limits.tooDeep) (readArgument limits supply depth (s.at' ts) >>= fun r =>
        readScripts limits supply depth base (sub' r.1) (sup' r.1) r.2) := by
    intro tok ts sub' sup' htokens
    have hlt := weigh_lt_of_eq_cons htokens
    refine (ih.argument depth hdepth _ (by rw [tokens_at']; omega)).bind fun r hr => ?_
    have hle :=
      ((keepsWith limits supply).argument (Nat.add_sub_cancel' hdepth) _ r hr).weigh_le
    rw [tokens_at'] at hle
    exact ih.scripts depth hdepth _ _ _ _ (by omega)
  unfold readScripts
  split
  · next ts htokens => exact hmark some (fun _ => _) htokens
  · next ts htokens => exact hmark (fun _ => _) some htokens
  · exact .ok _

theorem group_succ (s : Reading) (hsupply : 8 * weigh s.tokens + 2 ≤ supply) :
    Fails (· = limits.tooDeep) (readGroup limits (supply + 1) depth s) := by
  simp only [readGroup]
  exact fails_deeper hdepth fun inner hinner =>
    (ih.nodes inner hinner _ _ _ hsupply).bind fun _ _ => .ok _

theorem optional_succ (s : Reading) (hsupply : 8 * weigh s.tokens ≤ supply) :
    Fails (· = limits.tooDeep) (readOptional limits (supply + 1) depth s) := by
  simp only [readOptional]
  split
  · next ts hopen =>
    have hskip := weigh_skipBlank_le s.tokens
    have hlt := weigh_lt_of_eq_cons hopen
    exact fails_deeper hdepth fun inner hinner =>
      (ih.nodes inner hinner _ _ _ (by rw [tokens_at']; omega)).bind fun _ _ => .ok _
  · exact .ok _

theorem environment_succ (s : Reading) (hsupply : 8 * weigh s.tokens + 3 ≤ supply) :
    Fails (· = limits.tooDeep) (readEnvironment limits (supply + 1) depth s) := by
  simp only [readEnvironment]
  have hname := weigh_bracedName_le s.tokens
  refine fails_deeper hdepth fun inner hinner => ?_
  have hrest : ∀ t : Reading, weigh t.tokens ≤ weigh s.tokens →
      Fails (· = limits.tooDeep)
        (times (readArgument limits supply inner)
            (environmentArgs (bracedName s.tokens).1) t >>= fun r =>
          readRows limits supply inner (bracedName s.tokens).1 [] [] r.2 >>= fun r' =>
            .ok (table (bracedName s.tokens).1 r'.1, r'.2)) := by
    intro t ht
    refine (ih.arguments hinner _ t (by omega)).bind fun r hr => ?_
    have hle :=
      ((keepsWith limits supply).arguments (Nat.add_sub_cancel' hinner) _ t r hr).weigh_le
    exact (ih.rows inner hinner _ _ _ _ (by omega)).bind fun _ _ => .ok _
  split
  · refine (ih.optional inner hinner _ (by rw [tokens_at']; omega)).bind fun r hr => ?_
    have hle := ((keepsWith limits supply).optional (Nat.add_sub_cancel' hinner) _ r hr).weigh_le
    exact hrest r.2 (hle.trans hname)
  · exact hrest (s.at' _) hname

include hlimits

theorem nodes_succ (stop : Stop) (acc : List Node) (s : Reading)
    (hsupply : 8 * weigh s.tokens + 1 ≤ supply) :
    Fails (· = limits.tooDeep) (readNodes limits (supply + 1) depth stop acc s) := by
  have hlevels := Nat.add_sub_cancel' hdepth
  simp only [readNodes]
  refine fails_tick hlimits fun t ht => ?_
  rw [← ht] at hsupply
  have hrest : ∀ {tok ts acc u}, t.tokens = tok :: ts → weigh u.tokens ≤ weigh ts →
      Fails (· = limits.tooDeep) (readNodes limits supply depth stop acc u) := by
    intro tok ts acc u htokens hle
    have hlt := weigh_lt_of_eq_cons htokens
    exact ih.nodes depth hdepth _ _ _ (by omega)
  have hmarks : ∀ {tok ts}, t.tokens = tok :: ts → (tok = .sub ∨ tok = .sup) →
      Fails (· = limits.tooDeep)
        (readScripts limits supply depth (popBase acc).1 none none t >>= fun r =>
          readNodes limits supply depth stop (r.1 :: (popBase acc).2) r.2) := by
    intro tok ts htokens hmark
    refine (ih.scripts depth hdepth _ _ _ _ hsupply).bind fun r hr => ?_
    obtain ⟨said, hcourse, -⟩ := (keepsWith limits supply).scripts hlevels _ _ _ _ r hr
    have hlt := (htokens ▸ hcourse).weigh_lt_of_marks hmark
    rw [← htokens] at hlt
    exact ih.nodes depth hdepth _ _ _ (by omega)
  split
  · exact .ok _
  · next ts htokens =>
    split
    · exact .ok _
    · split
      · exact .ok _
      · exact hrest htokens (by rw [tokens_noteOnce, tokens_at'])
  · next ts htokens =>
    split
    · exact .ok _
    · exact hrest htokens (Nat.le_refl _)
  · next ts htokens => exact hrest htokens (Nat.le_refl _)
  · next ts htokens =>
    refine (ih.group depth hdepth _ ?_).bind fun r hr => ?_
    · have hlt := weigh_lt_of_eq_cons htokens
      rw [tokens_at']
      omega
    · exact hrest htokens ((keepsWith limits supply).group hlevels _ r hr).weigh_le
  · next run ts htokens => exact hrest htokens (Nat.le_refl _)
  · next c ts htokens => exact hrest htokens (Nat.le_refl _)
  · next name ts htokens =>
    split
    · exact .ok _
    · refine (ih.command depth hdepth _ _ ?_).bind fun r hr => ?_
      · have hlt := weigh_lt_of_eq_cons htokens
        rw [tokens_at']
        omega
      · exact hrest htokens ((keepsWith limits supply).command hlevels _ _ r hr).weigh_le
  · next ts htokens => exact hmarks htokens (.inl rfl)
  · next ts htokens => exact hmarks htokens (.inr rfl)
  · next ts htokens =>
    split
    · exact .ok _
    · exact hrest htokens (Nat.le_refl _)
  · next ts htokens =>
    split
    · exact .ok _
    · exact hrest htokens (Nat.le_refl _)

theorem argument_succ (s : Reading) (hsupply : 8 * weigh s.tokens ≤ supply) :
    Fails (· = limits.tooDeep) (readArgument limits (supply + 1) depth s) := by
  simp only [readArgument]
  refine fails_tick hlimits fun t ht => ?_
  rw [← ht] at hsupply
  split
  · next run ts htokens =>
    have hlt := weigh_lt_of_eq_cons htokens
    split
    · exact ih.argument depth hdepth _ (by rw [tokens_at']; omega)
    · exact .ok _
  · next ts htokens =>
    have hlt := weigh_lt_of_eq_cons htokens
    exact ih.group depth hdepth _ (by rw [tokens_at']; omega)
  · next name ts htokens =>
    have hlt := weigh_lt_of_eq_cons htokens
    split
    · exact .ok _
    · exact fails_deeper hdepth fun inner hinner =>
        (ih.command inner hinner _ _ (by rw [tokens_at']; omega)).bind fun _ _ => .ok _
  · exact .ok _
  · exact .ok _

end EndsWith

theorem endsWith (hlimits : Patient limits) (supply : Nat) : EndsWith limits supply := by
  induction supply with
  | zero => exact .zero
  | succ supply ih => exact {
      nodes := fun _ hdepth _ _ _ h => ih.nodes_succ hlimits hdepth _ _ _ (by omega)
      group := fun _ hdepth _ h => ih.group_succ hdepth _ (by omega)
      argument := fun _ hdepth _ h => ih.argument_succ hlimits hdepth _ (by omega)
      optional := fun _ hdepth _ h => ih.optional_succ hdepth _ (by omega)
      command := fun _ hdepth _ _ h => ih.command_succ hdepth _ _ (by omega)
      environment := fun _ hdepth _ h => ih.environment_succ hdepth _ (by omega)
      rows := fun _ hdepth _ _ _ _ h => ih.rows_succ hdepth _ _ _ _ (by omega)
      scripts := fun _ hdepth _ _ _ _ h => ih.scripts_succ hdepth _ _ _ _ (by omega) }

end Reading

open Reading

theorem parse_fails {limits : ReadLimits} (hlimits : Patient limits) (t : Text) :
    Fails (· = limits.tooDeep) (parse limits t) := by
  have hsupply : 8 * weigh (tokenize t) + 2 ≤ readingSupply (tokenize t) := by
    rw [readingSupply_eq]
    omega
  have hnodes := (endsWith hlimits _).nodes 0 (Nat.zero_le _) .atEnd [] ⟨tokenize t, 0, []⟩ hsupply
  simp only [parse, hlimits .beforeReading]
  split
  · next e he => exact .error (hnodes e he)
  · exact .ok _

/-- **Reading always ends.** The supply of steps never runs out, so no text is unreadable: without a
deadline it has a tree, or it nests one level deeper than the limit. The tree that it has, and what
is noted, are the same under every higher limit. -/
theorem parse_ends {limits : ReadLimits} (hlimits : Patient limits) (t : Text) :
    ((∃ p, parse limits t = .ok p) ∨
      parse limits t = .error (.tooDeep (limits.maxDepth + 1) limits.maxDepth)) ∧
    ∀ p, parse limits t = .ok p → ∀ limits', Patient limits' →
      limits.maxDepth ≤ limits'.maxDepth → parse limits' t = .ok p := by
  constructor
  · cases hparse : parse limits t with
    | ok p => exact .inl ⟨p, rfl⟩
    | error e => exact .inr (congrArg Except.error (parse_fails hlimits t e hparse))
  · intro p hparse limits' hlimits' hle
    have hclock : limits.deadline.spentAt = limits'.deadline.spentAt :=
      funext fun moment => (hlimits moment).trans (hlimits' moment).symm
    rcases parse_lowered ⟨hle, hclock⟩ t with heq | herror
    · exact heq.symm.trans hparse
    · rw [hparse] at herror
      cases herror

/-- The text `{{x` nests two levels deep, and closing braces are missing in it. -/
theorem parse_ends_twoBraces :
    Patient (.untimed 2) ∧
    parse (.untimed 1) "\x7b\x7bx".toList = .error (.tooDeep 2 1) ∧
    parse (.untimed 2) "\x7b\x7bx".toList =
      .ok ⟨.group [.group [.group [.leaf ['x']]]], [.unbalancedDelimiter]⟩ ∧
    ∀ limits', Patient limits' → 2 ≤ limits'.maxDepth → parse limits' "\x7b\x7bx".toList =
      .ok ⟨.group [.group [.group [.leaf ['x']]]], [.unbalancedDelimiter]⟩ := by
  have hparse : parse (.untimed 2) "\x7b\x7bx".toList =
      .ok ⟨.group [.group [.group [.leaf ['x']]]], [.unbalancedDelimiter]⟩ := by cbv
  exact ⟨patient_untimed 2, by cbv, hparse, (parse_ends (patient_untimed 2) _).2 _ hparse⟩

end SpokenMath
