import SpokenMath.Proofs.Markup.Conservation
import SpokenMath.Proofs.Markup.Termination
import SpokenMath.Proofs.Screening.Accepted
import SpokenMath.Proofs.Screening.Nesting

/-!
# Which texts without commands are refused

Where no control word stands, the reader goes one level deeper at each opening brace and one level
back at each closing brace, and a closing brace too many is passed over. So the level that it is at
is the count of braces, and every part of the reader hands the count on to the next one (`Gauged`).

**Theorem (`parse_ok_iff_peak`).** A text without control words has a tree exactly if its braces
nest no deeper than the limit.

**Theorem (`parse_ok_iff_of_check`).** So it is with what the screening has accepted. The screening
counts brackets and parentheses as well, and if each closing delimiter closes the innermost open
one, its count is no lower than that of the braces, and all that it accepts has a tree.
-/

namespace SpokenMath

/-- No control word stands among the tokens. -/
def Wordless (ts : List Token) : Prop := ∀ tok ∈ ts, tok.name? = none

theorem Wordless.tail {tok : Token} {ts : List Token} (h : Wordless (tok :: ts)) : Wordless ts :=
  (List.forall_mem_cons.mp h).2

theorem not_wordless_command {name : String} {ts : List Token} :
    ¬ Wordless (.command name :: ts) := fun h => by
  cases h _ List.mem_cons_self

namespace Reading

variable {limits : ReadLimits} {supply depth : Nat} {s : Reading}

/-! ## Handing on the count -/

/-- What reads the tokens `ts` at the count `k` leaves the count `k'`: with so many levels open the
tokens that it leaves nest too deep if and only if those before did, and it refuses to go on only if
they did. -/
structure Gauged {α : Type} (limits : ReadLimits) (k : Nat) (ts : List Token) (k' : Nat)
    (x : Except ReadError (α × Reading)) : Prop where
  reads : ∀ a s, x = .ok (a, s) → Wordless s.tokens ∧
    (peak Token.shift k ts ≤ limits.maxDepth ↔ peak Token.shift k' s.tokens ≤ limits.maxDepth)
  refuses : x = .error limits.tooDeep → limits.maxDepth < peak Token.shift k ts

namespace Gauged

variable {α β : Type} {k k' k'' : Nat} {ts ts' : List Token} {x : Except ReadError (α × Reading)}
  {f : α × Reading → Except ReadError (β × Reading)}

theorem ok {a : α} (hwordless : Wordless s.tokens)
    (h : peak Token.shift k ts ≤ limits.maxDepth ↔
      peak Token.shift k' s.tokens ≤ limits.maxDepth) :
    Gauged limits k ts k' (.ok (a, s) : Except ReadError (α × Reading)) :=
  ⟨by rintro _ _ ⟨⟩; exact ⟨hwordless, h⟩, nofun⟩

theorem error {e : ReadError} (h : e ≠ limits.tooDeep) :
    Gauged limits k ts k' (.error e : Except ReadError (α × Reading)) :=
  ⟨nofun, fun heq => absurd (Except.error.inj heq) h⟩

/-- Tokens that nest as deep may stand in for those that are read. -/
theorem of_eq (h : Gauged limits k' ts' k'' x)
    (heq : peak Token.shift k ts = peak Token.shift k' ts') : Gauged limits k ts k'' x :=
  ⟨fun a s hx => heq ▸ h.reads a s hx, fun hx => heq ▸ h.refuses hx⟩

/-- One part after the other. -/
theorem bind (h : Gauged limits k ts k' x)
    (hf : ∀ a s, Wordless s.tokens → Gauged limits k' s.tokens k'' (f (a, s))) :
    Gauged limits k ts k'' (x >>= f) := by
  cases x with
  | error e => exact ⟨nofun, fun heq => h.refuses (congrArg _ (Except.error.inj heq))⟩
  | ok r =>
    obtain ⟨a, s⟩ := r
    obtain ⟨hwordless, hiff⟩ := h.reads a s rfl
    have hnext := hf a s hwordless
    refine ⟨fun b t ht => ?_, fun ht => ?_⟩
    · obtain ⟨hwordless', hiff'⟩ := hnext.reads b t ht
      exact ⟨hwordless', hiff.trans hiff'⟩
    · exact Nat.lt_of_not_le fun hle => Nat.not_le_of_lt (hnext.refuses ht) (hiff.mp hle)

/-- A look at a clock that never runs out. -/
theorem tick {f : Reading → Except ReadError (α × Reading)} (hlimits : Patient limits)
    (h : ∀ t, t.tokens = s.tokens → Gauged limits k ts k' (f t)) :
    Gauged limits k ts k' (s.tick limits >>= f) := by
  obtain ⟨t, htick, ht⟩ := tick_of_patient hlimits s
  rw [htick]
  exact h t ht

/-- Where going deeper is refused, the count is beyond the limit. -/
theorem deeper {f : Nat → Except ReadError (α × Reading)}
    (h : depth + 1 ≤ limits.maxDepth → Gauged limits (depth + 1) ts k' (f (depth + 1))) :
    Gauged limits (depth + 1) ts k' (Reading.deeper limits depth >>= f) := by
  unfold Reading.deeper
  split
  · next hdeep => exact ⟨nofun, fun _ => Nat.lt_of_lt_of_le hdeep (le_peak _ _)⟩
  · next hdeep => exact h (Nat.le_of_not_lt hdeep)

end Gauged

/-- With so much supply, all parts that can be met hand on the count. Nodes that are read up to a
closing brace leave the count behind it, and there is none to leave at the outermost level. -/
structure GaugesWith (limits : ReadLimits) (supply : Nat) : Prop where
  nodes : ∀ depth ≤ limits.maxDepth, ∀ stop, stop = .atEnd ∧ depth = 0 ∨ stop = .atBrace →
    ∀ acc s, Wordless s.tokens →
      Gauged limits depth s.tokens (depth - 1) (readNodes limits supply depth stop acc s)
  group : ∀ depth ≤ limits.maxDepth, ∀ s, Wordless s.tokens →
    Gauged limits (depth + 1) s.tokens depth (readGroup limits supply depth s)
  argument : ∀ depth ≤ limits.maxDepth, ∀ s, Wordless s.tokens →
    Gauged limits depth s.tokens depth (readArgument limits supply depth s)
  scripts : ∀ depth ≤ limits.maxDepth, ∀ base sub sup s, Wordless s.tokens →
    Gauged limits depth s.tokens depth (readScripts limits supply depth base sub sup s)

/-- A supply that is used up is no nesting. -/
theorem exhausted_ne_tooDeep (s : Reading) : s.exhausted ≠ limits.tooDeep := by
  intro h
  cases h

namespace GaugesWith

theorem zero : GaugesWith limits 0 := by
  constructor <;> intros
  · simp only [readNodes]; exact .error (exhausted_ne_tooDeep _)
  · simp only [readGroup]; exact .error (exhausted_ne_tooDeep _)
  · simp only [readArgument]; exact .error (exhausted_ne_tooDeep _)
  · simp only [readScripts]; exact .error (exhausted_ne_tooDeep _)

variable (ih : GaugesWith limits supply)

include ih

theorem group_succ (s : Reading) (hwordless : Wordless s.tokens) :
    Gauged limits (depth + 1) s.tokens depth (readGroup limits (supply + 1) depth s) := by
  simp only [readGroup]
  refine .deeper fun hinner => ?_
  exact (ih.nodes _ hinner _ (.inr rfl) _ _ hwordless).bind fun _ _ ht => .ok ht Iff.rfl

variable (hdepth : depth ≤ limits.maxDepth)

include hdepth

theorem scripts_succ (base : Node) (sub sup : Option Node) (s : Reading)
    (hwordless : Wordless s.tokens) :
    Gauged limits depth s.tokens depth
      (readScripts limits (supply + 1) depth base sub sup s) := by
  unfold readScripts
  split
  · next ts htokens =>
    rw [htokens] at hwordless ⊢
    exact ((ih.argument depth hdepth (s.at' ts) hwordless.tail).of_eq
      (peak_cons_of_eq rfl ts)).bind fun _ _ ht => ih.scripts depth hdepth _ _ _ _ ht
  · next ts htokens =>
    rw [htokens] at hwordless ⊢
    exact ((ih.argument depth hdepth (s.at' ts) hwordless.tail).of_eq
      (peak_cons_of_eq rfl ts)).bind fun _ _ ht => ih.scripts depth hdepth _ _ _ _ ht
  · exact .ok hwordless Iff.rfl

variable (hlimits : Patient limits)

include hlimits

theorem argument_succ (s : Reading) (hwordless : Wordless s.tokens) :
    Gauged limits depth s.tokens depth (readArgument limits (supply + 1) depth s) := by
  simp only [readArgument]
  refine .tick hlimits fun t ht => ?_
  rw [← ht] at hwordless ⊢
  split
  · next run ts htokens =>
    rw [htokens] at hwordless ⊢
    have hpeak : peak Token.shift depth (.text run :: ts) = peak Token.shift depth ts :=
      peak_cons_of_eq rfl ts
    split
    · exact (ih.argument depth hdepth (t.at' ts) hwordless.tail).of_eq hpeak
    · next c run' _ =>
      by_cases hempty : run'.isEmpty = true
      · rw [if_pos hempty]
        exact .ok hwordless.tail (by rw [hpeak]; rfl)
      · rw [if_neg hempty]
        refine .ok (List.forall_mem_cons.mpr ⟨rfl, hwordless.tail⟩) ?_
        rw [hpeak, tokens_at', peak_cons_of_eq rfl]
  · next ts htokens =>
    rw [htokens] at hwordless ⊢
    exact (ih.group depth hdepth (t.at' ts) hwordless.tail).of_eq
      (peak_cons_of_le (Nat.le_succ _) ts)
  · next name ts htokens =>
    rw [htokens] at hwordless
    exact (not_wordless_command hwordless).elim
  · next c ts htokens =>
    rw [htokens] at hwordless ⊢
    exact .ok hwordless.tail (by rw [peak_cons_of_eq rfl]; rfl)
  · exact .ok hwordless Iff.rfl

theorem nodes_succ {stop : Stop} (hstop : stop = .atEnd ∧ depth = 0 ∨ stop = .atBrace)
    (acc : List Node) (s : Reading) (hwordless : Wordless s.tokens) :
    Gauged limits depth s.tokens (depth - 1)
      (readNodes limits (supply + 1) depth stop acc s) := by
  simp only [readNodes]
  refine .tick hlimits fun t ht => ?_
  rw [← ht] at hwordless ⊢
  have hrest : ∀ {tok ts acc u}, t.tokens = tok :: ts → u.tokens = ts →
      tok.shift depth = depth →
        Gauged limits depth t.tokens (depth - 1) (readNodes limits supply depth stop acc u) := by
    intro tok ts acc u htokens hu hshift
    rw [htokens] at hwordless ⊢
    subst hu
    exact (ih.nodes depth hdepth stop hstop acc u hwordless.tail).of_eq (peak_cons_of_eq hshift _)
  split
  · next htokens =>
    have hleft : (if (stop == .atBrace || stop == .atBracket) = true then
        t.noteOnce .unbalancedDelimiter else t).tokens = [] := by
      split
      · rw [tokens_noteOnce, htokens]
      · exact htokens
    refine .ok ?_ ?_ <;> rw [hleft]
    · exact List.forall_mem_nil _
    · rw [htokens]
      exact iff_of_true hdepth ((Nat.sub_le _ _).trans hdepth)
  · next ts htokens =>
    rcases hstop with ⟨rfl, rfl⟩ | rfl
    · rw [if_neg (by decide), if_neg (by decide)]
      exact hrest htokens (tokens_noteOnce _ _) rfl
    · rw [htokens] at hwordless ⊢
      refine .ok hwordless.tail ?_
      rw [peak, Nat.max_le]
      exact and_iff_right hdepth
  · next ts htokens =>
    rw [if_neg (by rcases hstop with ⟨rfl, -⟩ | rfl <;> decide)]
    exact hrest htokens rfl rfl
  · next ts htokens => exact hrest htokens rfl rfl
  · next ts htokens =>
    rw [htokens] at hwordless ⊢
    exact ((ih.group depth hdepth (t.at' ts) hwordless.tail).of_eq
      (peak_cons_of_le (Nat.le_succ _) ts)).bind fun _ _ hu =>
        ih.nodes depth hdepth stop hstop _ _ hu
  · next run ts htokens => exact hrest htokens rfl rfl
  · next c ts htokens => exact hrest htokens rfl rfl
  · next name ts htokens =>
    rw [htokens] at hwordless
    exact (not_wordless_command hwordless).elim
  · exact (ih.scripts depth hdepth _ _ _ _ hwordless).bind fun _ _ hu =>
      ih.nodes depth hdepth stop hstop _ _ hu
  · exact (ih.scripts depth hdepth _ _ _ _ hwordless).bind fun _ _ hu =>
      ih.nodes depth hdepth stop hstop _ _ hu
  · next ts htokens =>
    rw [if_neg (by rcases hstop with ⟨rfl, -⟩ | rfl <;> decide)]
    exact hrest htokens rfl rfl
  · next ts htokens =>
    rw [if_neg (by rcases hstop with ⟨rfl, -⟩ | rfl <;> decide)]
    exact hrest htokens rfl rfl

end GaugesWith

theorem gaugesWith (hlimits : Patient limits) (supply : Nat) : GaugesWith limits supply := by
  induction supply with
  | zero => exact .zero
  | succ supply ih => exact {
      nodes := fun _ hdepth _ hstop => ih.nodes_succ hdepth hlimits hstop
      group := fun _ _ => ih.group_succ
      argument := fun _ hdepth => ih.argument_succ hdepth hlimits
      scripts := fun _ hdepth => ih.scripts_succ hdepth }

end Reading

open Reading

/-- **A text without control words has a tree exactly if its braces nest no deeper than the
limit.** -/
theorem parse_ok_iff_peak {limits : ReadLimits} (hlimits : Patient limits) {t : Text}
    (h : Wordless (tokenize t)) :
    (∃ p, parse limits t = .ok p) ↔ peak Token.shift 0 (tokenize t) ≤ limits.maxDepth := by
  have hgauged := (gaugesWith hlimits (readingSupply (tokenize t))).nodes 0 (Nat.zero_le _) .atEnd
    (.inl ⟨rfl, rfl⟩) [] ⟨tokenize t, 0, []⟩ h
  have hparse : parse limits t = (readNodes limits (readingSupply (tokenize t)) 0 .atEnd []
      ⟨tokenize t, 0, []⟩).map fun r => ⟨.group r.1, r.2.notices⟩ := by
    simp only [parse, hlimits .beforeReading]
    split <;> next hread => rw [hread]; rfl
  cases hread : readNodes limits (readingSupply (tokenize t)) 0 .atEnd [] ⟨tokenize t, 0, []⟩ with
  | error e =>
    rw [hread] at hparse
    obtain rfl : e = limits.tooDeep := parse_fails hlimits t e hparse
    refine iff_of_false ?_ (Nat.not_le_of_lt (hgauged.refuses hread))
    rintro ⟨p, hp⟩
    rw [hparse] at hp
    cases hp
  | ok r =>
    obtain ⟨ns, s⟩ := r
    rw [hread] at hparse
    obtain ⟨said, hcourse, -⟩ := (keepsWith limits _).nodes (Nat.zero_add _) _ _ _ _ hread
    have hend : s.tokens = [] := hcourse.exhausts rfl
    refine iff_of_true ⟨_, hparse⟩ ((hgauged.reads ns s hread).2.mpr ?_)
    rw [hend]
    exact Nat.zero_le _

theorem wordless_tokenize_iff {t : Text} : Wordless (tokenize t) ↔ controlWords t = [] :=
  List.filterMap_eq_nil_iff.symm

namespace Screening

/-- **Which accepted texts without commands and comments have a tree**: those whose braces nest no
deeper than the limit, and so all in which each closing delimiter closes the innermost open one. -/
theorem parse_ok_iff_of_check {raw : Text} {limits : Limits} {safe : SafeInput} {clock : Deadline}
    (h : check raw limits = .ok safe) (hslash : '\\' ∉ raw) (hpercent : '%' ∉ raw)
    (hclock : ∀ moment, clock.spentAt moment = none) :
    ((∃ p, parse ⟨safe.maxDepth, clock⟩ safe.text = .ok p) ↔
        peak Piece.braceShift 0 (pieces raw) ≤ limits.maxDepth) ∧
      (Piece.Enclosed (pieces raw) → ∃ p, parse ⟨safe.maxDepth, clock⟩ safe.text = .ok p) := by
  obtain ⟨htext, hdepth⟩ := text_of_check h
  have hwordless : Wordless (tokenize safe.text) := by
    rw [htext]
    exact wordless_tokenize_iff.mpr (controlWords_clean_of_plain _ hslash hpercent)
  have hpatient : Patient ⟨safe.maxDepth, clock⟩ := hclock
  have hiff : (∃ p, parse ⟨safe.maxDepth, clock⟩ safe.text = .ok p) ↔
      peak Piece.braceShift 0 (pieces raw) ≤ limits.maxDepth := by
    rw [parse_ok_iff_peak hpatient hwordless, ← peak_pieces, htext, hdepth,
      peak_clean _ hslash hpercent]
  refine ⟨hiff, fun henclosed => hiff.mpr ?_⟩
  have hscan := (within_of_check h).depth
  rw [maxDepth_scan] at hscan
  exact henclosed.peak_le.trans hscan

/-- A group with a script has matching delimiters. -/
theorem parse_ok_iff_of_check_group :
    check "\x7bx\x7d^2".toList {} = .ok ⟨"\x7bx\x7d^2".toList, [], 5, 48⟩ ∧
      '\\' ∉ "\x7bx\x7d^2".toList ∧ '%' ∉ "\x7bx\x7d^2".toList ∧
      (∀ moment, (Deadline.never 0).spentAt moment = none) ∧
      ((∃ p, parse ⟨48, .never 0⟩ "\x7bx\x7d^2".toList = .ok p) ↔
        peak Piece.braceShift 0 (pieces "\x7bx\x7d^2".toList) ≤ 48) ∧
      Piece.Enclosed (pieces "\x7bx\x7d^2".toList) ∧
      ∃ p, parse ⟨48, .never 0⟩ "\x7bx\x7d^2".toList = .ok p :=
  have hcheck := check_eq_ok_iff.mpr (by decide +kernel)
  have hslash : '\\' ∉ "\x7bx\x7d^2".toList := by decide +kernel
  have hpercent : '%' ∉ "\x7bx\x7d^2".toList := by decide +kernel
  have henclosed : Piece.Enclosed (pieces "\x7bx\x7d^2".toList) := by decide +kernel
  have h := parse_ok_iff_of_check hcheck hslash hpercent (fun _ => rfl)
  ⟨hcheck, hslash, hpercent, fun _ => rfl, h.1, henclosed, h.2 henclosed⟩

/-- The parenthesis closes nothing, and the screening takes the second brace to be at the level of
the first. -/
theorem not_parse_of_check_parenthesis :
    check "\x7b)\x7b".toList { maxDepth := 1 } = .ok ⟨"\x7b)\x7b".toList, [], 3, 1⟩ ∧
      '\\' ∉ "\x7b)\x7b".toList ∧ '%' ∉ "\x7b)\x7b".toList ∧
      ¬ ∃ p, parse ⟨1, .never 0⟩ "\x7b)\x7b".toList = .ok p := by
  have hcheck : check "\x7b)\x7b".toList { maxDepth := 1 } =
      .ok ⟨"\x7b)\x7b".toList, [], 3, 1⟩ := check_eq_ok_iff.mpr (by decide +kernel)
  refine ⟨hcheck, by decide +kernel, by decide +kernel, ?_⟩
  have hparse : parse ⟨1, .never 0⟩ "\x7b)\x7b".toList = .error (.tooDeep 2 1) := by cbv
  rintro ⟨p, hp⟩
  rw [hparse] at hp
  cases hp

end Screening

end SpokenMath
