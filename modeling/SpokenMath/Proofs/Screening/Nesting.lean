import SpokenMath.Proofs.Screening.Agreement
import SpokenMath.Proofs.Screening.CleanedCommands

/-!
# How deep a text nests

Nesting is counted in two ways. The screening counts braces, brackets and parentheses together, and
the reader goes one level deeper with every brace. Neither count falls below zero, and how deep a
text nests is the **peak** of the count.

**Theorem (`maxDepth_scan`).** The depth that the screening notes is the peak of its count.

**Theorem (`Enclosed.peak_le`).** Where each closing delimiter closes the innermost open one, the
braces nest no deeper than the delimiters together.

Otherwise they can. A bracket or a parenthesis that closes nothing takes one off the first count and
not off the second.
-/

namespace SpokenMath

/-! ## Peaks -/

section Peak

variable {α : Type} {shift : α → Nat → Nat}

/-- The greatest count along a list, each element of which shifts the count. -/
def peak (shift : α → Nat → Nat) (k : Nat) : List α → Nat
  | [] => k
  | a :: l => max k (peak shift (shift a k) l)

theorem le_peak (k : Nat) (l : List α) : k ≤ peak shift k l := by
  cases l with
  | nil => exact Nat.le_refl k
  | cons a l => exact Nat.le_max_left _ _

/-- An element that leaves the count alone does not matter. -/
theorem peak_cons_of_eq {a : α} {k : Nat} (h : shift a k = k) (l : List α) :
    peak shift k (a :: l) = peak shift k l := by
  rw [peak, h]
  exact Nat.max_eq_right (le_peak k l)

/-- A rise is at least as high as what it leads to. -/
theorem peak_cons_of_le {a : α} {k : Nat} (h : k ≤ shift a k) (l : List α) :
    peak shift k (a :: l) = peak shift (shift a k) l :=
  Nat.max_eq_right (h.trans (le_peak _ l))

/-- Only the elements matter that shift the count. -/
theorem peak_filter {q : α → Bool} (h : ∀ a k, q a = false → shift a k = k) (k : Nat)
    (l : List α) : peak shift k (l.filter q) = peak shift k l := by
  induction l generalizing k with
  | nil => rfl
  | cons a l ih =>
    cases ha : q a with
    | true => rw [List.filter_cons_of_pos ha, peak, peak, ih]
    | false => rw [List.filter_cons_of_neg (by simp [ha]), peak_cons_of_eq (h a k ha), ih]

end Peak

/-! ## The two counts -/

/-- The closing delimiters, each with the one that it closes. -/
def opener? : Char → Option Char
  | '}' => some '{'
  | ']' => some '['
  | ')' => some '('
  | _ => none

theorem opener?_eq_some_iff {c o : Char} : opener? c = some o ↔
    (c = '}' ∧ o = '{') ∨ (c = ']' ∧ o = '[') ∨ (c = ')' ∧ o = '(') := by
  unfold opener?
  split <;> simp_all [eq_comm]

namespace Piece

/-- How a piece shifts the count of all delimiters. -/
def shift : Piece → Nat → Nat
  | .sign c, k =>
    if c = '{' ∨ c = '[' ∨ c = '(' then k + 1
    else if (opener? c).isSome then k - 1
    else k
  | _, k => k

/-- How a piece shifts the count of braces. -/
def braceShift : Piece → Nat → Nat
  | .sign c, k => if c = '{' then k + 1 else if c = '}' then k - 1 else k
  | _, k => k

/-- The piece is a brace. -/
def isBrace (p : Piece) : Bool := p == .sign '{' || p == .sign '}'

theorem braceShift_of_not {p : Piece} (h : p.isBrace = false) (k : Nat) : p.braceShift k = k := by
  cases p with
  | sign c =>
    simp only [isBrace, Bool.or_eq_false_iff, beq_eq_false_iff_ne, ne_eq, Piece.sign.injEq] at h
    rw [braceShift, if_neg h.1, if_neg h.2]
  | _ => rfl

end Piece

/-- How a token shifts the count of braces. -/
def Token.shift : Token → Nat → Nat
  | .openBrace, k => k + 1
  | .closeBrace, k => k - 1
  | _, k => k

/-! ## The count of the screening -/

namespace Survey

theorem depth_seeWord (name : String) (s : Survey) :
    (s.seeWord name).depth = s.depth ∧
      (s.seeWord name).profile.maxDepth = s.profile.maxDepth := by
  simp only [seeWord]
  split_ifs <;> exact ⟨rfl, rfl⟩

theorem depth_step_sign (s : Survey) (c : Char) :
    (s.step (.sign c)).depth = ((s.seeChar c).seeSign c).depth ∧
      (s.step (.sign c)).profile.maxDepth = ((s.seeChar c).seeSign c).profile.maxDepth := by
  simp only [step]
  split_ifs <;> exact ⟨rfl, rfl⟩

/-- A piece shifts the count, and the greatest count so far is kept. -/
theorem depth_step (s : Survey) (p : Piece) :
    (s.step p).depth = p.shift s.depth ∧ (s.depth ≤ s.profile.maxDepth →
      (s.step p).profile.maxDepth = max s.profile.maxDepth (p.shift s.depth)) := by
  have hsame : ∀ {d}, d ≤ s.depth → s.depth ≤ s.profile.maxDepth →
      s.profile.maxDepth = max s.profile.maxDepth d := fun hle h =>
    (Nat.max_eq_left (hle.trans h)).symm
  cases p with
  | blank | escape => exact ⟨rfl, hsame (Nat.le_refl _)⟩
  | word name =>
    obtain ⟨hdepth, hmax⟩ := depth_seeWord name (s.seeChar '\\')
    exact ⟨hdepth, fun h => hmax.trans (hsame (Nat.le_refl _) h)⟩
  | sign c =>
    obtain ⟨hdepth, hmax⟩ := depth_step_sign s c
    rw [hdepth, hmax, Piece.shift]
    unfold seeSign
    by_cases hslash : c = '\\'
    · subst hslash
      exact ⟨rfl, hsame (Nat.le_refl _)⟩
    by_cases hopen : c = '{'
    · subst hopen
      exact ⟨rfl, fun _ => rfl⟩
    by_cases hclose : c = '}'
    · subst hclose
      exact ⟨rfl, hsame (Nat.sub_le _ _)⟩
    by_cases hopen' : c = '[' ∨ c = '('
    · rcases hopen' with rfl | rfl <;> exact ⟨rfl, fun _ => rfl⟩
    by_cases hclose' : c = ']' ∨ c = ')'
    · rcases hclose' with rfl | rfl <;> exact ⟨rfl, hsame (Nat.sub_le _ _)⟩
    have hnone : opener? c = none := by
      unfold opener?
      split <;> simp_all
    have hother : ¬ (c = '{' ∨ c = '[' ∨ c = '(') := not_or.mpr ⟨hopen, hopen'⟩
    simp only [if_neg hslash, if_neg hopen, if_neg hclose, if_neg hopen', if_neg hclose',
      if_neg hother, hnone, Option.isSome_none, Bool.false_eq_true, if_false]
    split_ifs <;> exact ⟨rfl, hsame (Nat.le_refl _)⟩

/-- **The depth that is noted is the peak of the count.** -/
theorem maxDepth_foldl (ps : List Piece) {s : Survey} (h : s.depth ≤ s.profile.maxDepth) :
    (ps.foldl step s).profile.maxDepth =
      max s.profile.maxDepth (peak Piece.shift s.depth ps) := by
  induction ps generalizing s with
  | nil => exact (Nat.max_eq_left h).symm
  | cons p ps ih =>
    obtain ⟨hdepth, hmax⟩ := depth_step s p
    replace hmax := hmax h
    have hle : (s.step p).depth ≤ (s.step p).profile.maxDepth := by omega
    rw [List.foldl_cons, ih hle, hdepth, hmax, peak]
    have hle : p.shift s.depth ≤ peak Piece.shift (p.shift s.depth) ps := le_peak _ ps
    omega

end Survey

/-- **How deep the screening finds a text to nest.** -/
theorem maxDepth_scan (t : Text) : (Profile.scan t).maxDepth = peak Piece.shift 0 (pieces t) :=
  (Survey.maxDepth_foldl (pieces t) (Nat.le_refl 0)).trans (Nat.zero_max _)

/-! ## Delimiters that match -/

namespace Piece

/-- The delimiters that are open behind a piece, the innermost first. A closing delimiter closes the
innermost open one, if any is open, and there is nothing behind one that would close another. -/
def enclose (stack : List Char) : Piece → Option (List Char)
  | .sign c =>
    if c = '{' ∨ c = '[' ∨ c = '(' then some (c :: stack)
    else
      match opener? c, stack with
      | none, _ => some stack
      | some _, [] => some []
      | some o, o' :: outer => if o = o' then some outer else none
  | _ => some stack

/-- Each closing delimiter closes the innermost open one, if any is open. -/
def Enclosed (ps : List Piece) : Prop := (ps.foldlM enclose []).isSome = true

instance (ps : List Piece) : Decidable (Enclosed ps) := inferInstanceAs (Decidable (_ = _))

/-- What a sign does to the open delimiters. -/
theorem enclose_sign_cases {c : Char} {stack stack' : List Char}
    (h : enclose stack (.sign c) = some stack') :
    ((c = '{' ∨ c = '[' ∨ c = '(') ∧ stack' = c :: stack) ∨
      (∃ o, opener? c = some o ∧ (stack = [] ∧ stack' = [] ∨ stack = o :: stack')) ∨
      (¬ (c = '{' ∨ c = '[' ∨ c = '(') ∧ opener? c = none ∧ stack' = stack) := by
  simp only [enclose] at h
  split_ifs at h with hopen
  · exact .inl ⟨hopen, (Option.some.inj h).symm⟩
  · split at h
    · next hnone => exact .inr (.inr ⟨hopen, hnone, (Option.some.inj h).symm⟩)
    · next o hsome => exact .inr (.inl ⟨o, hsome, .inl ⟨rfl, (Option.some.inj h).symm⟩⟩)
    · next o o' outer hsome =>
      split_ifs at h with heq
      obtain rfl := Option.some.inj h
      exact .inr (.inl ⟨o, hsome, .inr (by rw [heq])⟩)

/-- Both counts are read off the open delimiters. -/
theorem shift_of_enclose {stack stack' : List Char} {p : Piece}
    (h : p.enclose stack = some stack') :
    p.shift stack.length = stack'.length ∧ p.braceShift (stack.count '{') = stack'.count '{' := by
  cases p with
  | sign c =>
    rcases enclose_sign_cases h with ⟨hopen, rfl⟩ | ⟨o, ho, hclose⟩ | ⟨hopen, hnone, rfl⟩
    · rcases hopen with rfl | rfl | rfl <;> exact ⟨rfl, by simp [braceShift]⟩
    · rcases opener?_eq_some_iff.mp ho with ⟨rfl, rfl⟩ | ⟨rfl, rfl⟩ | ⟨rfl, rfl⟩ <;>
        rcases hclose with ⟨rfl, rfl⟩ | rfl <;> exact ⟨rfl, by simp [braceShift]⟩
    · have hbrace : c ≠ '{' ∧ c ≠ '}' := by
        constructor
        · exact fun heq => hopen (.inl heq)
        · rintro rfl
          cases hnone
      rw [shift, if_neg hopen, hnone, braceShift, if_neg hbrace.1, if_neg hbrace.2]
      exact ⟨rfl, rfl⟩
  | _ =>
    obtain rfl := Option.some.inj h
    exact ⟨rfl, rfl⟩

/-- The braces among the open delimiters are no more than all of them. -/
theorem peak_le_of_enclose {stack stack' : List Char} {ps : List Piece}
    (h : ps.foldlM enclose stack = some stack') :
    peak braceShift (stack.count '{') ps ≤ peak shift stack.length ps := by
  induction ps generalizing stack with
  | nil => exact List.count_le_length
  | cons p ps ih =>
    rw [List.foldlM_cons, Option.bind_eq_bind, Option.bind_eq_some_iff] at h
    obtain ⟨inner, hp, hps⟩ := h
    obtain ⟨hshift, hbrace⟩ := shift_of_enclose hp
    have hle := ih hps
    have hcount : stack.count '{' ≤ stack.length := List.count_le_length
    rw [peak, peak, hshift, hbrace]
    omega

/-- **Where the delimiters match, the braces nest no deeper than the delimiters together.** -/
theorem Enclosed.peak_le {ps : List Piece} (h : Enclosed ps) :
    peak braceShift 0 ps ≤ peak shift 0 ps :=
  peak_le_of_enclose (Option.eq_some_of_isSome h)

end Piece

/-! ## The count of the reader -/

/-- No character of a run is a brace. -/
theorem Piece.isBrace_ofPlain {c : Char} (h : Token.isPlain c = true) :
    (ofPlain c).isBrace = false := by
  rw [ofPlain]
  split
  · rfl
  · have hne : c ≠ '{' ∧ c ≠ '}' := by constructor <;> rintro rfl <;> cases h
    simp [isBrace, hne]

theorem peak_pieces_plain {c : Char} (h : Token.isPlain c = true) (k : Nat) (t : Text) :
    peak Piece.braceShift k (pieces (c :: t)) = peak Piece.braceShift k (pieces t) := by
  rw [pieces_cons_plain h]
  exact peak_cons_of_eq (Piece.braceShift_of_not (Piece.isBrace_ofPlain h) k) _

/-- Braces nest as deep in pieces as in tokens. -/
theorem peak_pieces (k : Nat) (t : Text) :
    peak Piece.braceShift k (pieces t) = peak Token.shift k (tokenize t) := by
  fun_induction tokenize t generalizing k with
  | case1 => rw [pieces_nil]; rfl
  | case2 =>
    rw [pieces_backslash, peak_cons_of_eq rfl]
    rfl
  | case3 t ih =>
    rw [pieces_escape (by decide), peak_cons_of_eq rfl, peak_cons_of_eq rfl, ih]
  | case4 c t hc halpha ih =>
    rw [pieces_word halpha, peak_cons_of_eq rfl, peak_cons_of_eq rfl, ih]
  | case5 c t hc halpha ih =>
    rw [pieces_escape (by simpa using halpha), peak_cons_of_eq rfl, peak_cons_of_eq rfl, ih]
  | case13 c t hend _ hpair hopen hclose hopen' hclose' hsub hsup halign ih =>
    have hplain := isPlain_of_ne (ne_backslash hend hpair) hopen hclose hopen' hclose' hsub hsup
      halign
    have hdrop := apply_dropWhile (f := fun t => peak Piece.braceShift k (pieces t))
      (fun c t h => peak_pieces_plain h k t) t
    rw [peak_cons_of_eq rfl, ← ih, peak_pieces_plain hplain]
    exact hdrop.symm
  | _ t ih =>
    rw [pieces_sign (by decide) (by decide), peak, peak, ih]
    rfl

/-! ## The count in a cleaned text -/

/-- Collects the pieces of some kind. -/
def Observer.collect (q : Piece → Bool) (hblank : q .blank = false)
    (hescape : ∀ c, q (.escape c) = false) (hslash : q (.sign '\\') = false) :
    Observer (List Piece) (List Piece) where
  start := []
  step seen p := seen ++ [p].filter q
  report seen := seen
  start_blank := by simp [hblank]
  blank_blank seen := by simp [hblank]
  report_blank seen := by simp [hblank]
  escape_blank seen c d := by simp [hblank, hescape]
  report_escape seen c := by simp [hescape, hslash]

/-- The pieces of some kind in a cleaned text are those in the remnants. -/
theorem filter_clean {q : Piece → Bool} (hblank : q .blank = false)
    (hescape : ∀ c, q (.escape c) = false) (hslash : q (.sign '\\') = false) (elide : Bool)
    (t : Text) : (pieces (clean elide t).1).filter q = (remnants elide t).filter q := by
  have hread : ∀ (ps seen : List Piece),
      (Observer.collect q hblank hescape hslash).readFrom seen ps = seen ++ ps.filter q := by
    intro ps
    induction ps with
    | nil => exact fun seen => (List.append_nil seen).symm
    | cons p ps ih =>
      intro seen
      rw [Observer.readFrom_cons, ih]
      show seen ++ [p].filter q ++ ps.filter q = seen ++ ([p] ++ ps).filter q
      rw [List.filter_append, List.append_assoc]
  have hobserve := (Observer.collect q hblank hescape hslash).observe_clean elide t
  rwa [Observer.observe, hread, hread] at hobserve

/-- What is kept of a character with which neither a command nor a comment begins. -/
def Cleaning.keptChar (c : Char) : Option Piece :=
  if c = '\n' ∨ c = '\r' ∨ c = '\t' then some .blank
  else if isHidden c then none
  else if isBlank c then some .blank
  else some (.sign c)

theorem Cleaning.eq_of_mem_keptChar {c : Char} {p : Piece} (h : p ∈ keptChar c) :
    p = .blank ∨ p = .sign c := by
  unfold keptChar at h
  split_ifs at h
  · exact .inl (Option.some.inj h).symm
  · cases h
  · exact .inl (Option.some.inj h).symm
  · exact .inr (Option.some.inj h).symm

theorem remnants_of_plain (elide : Bool) {t : Text} (hslash : '\\' ∉ t) (hpercent : '%' ∉ t) :
    remnants elide t = t.filterMap Cleaning.keptChar := by
  unfold remnants
  induction t with
  | nil => simp [Cleaning.kept]
  | cons c t ih =>
    obtain ⟨hc, hslash⟩ := not_or.mp (mt List.mem_cons.mpr hslash)
    obtain ⟨hc', hpercent⟩ := not_or.mp (mt List.mem_cons.mpr hpercent)
    rw [Cleaning.kept.eq_4 _ _ _ (by simp [Ne.symm hc]) (by simp [Ne.symm hc]),
      if_neg (Ne.symm hc'), List.filterMap_cons, ← ih hslash hpercent, Cleaning.keptChar]
    split_ifs <;> rfl

theorem pieces_of_plain {t : Text} (hslash : '\\' ∉ t) : pieces t = t.map Piece.ofPlain := by
  induction t with
  | nil => exact pieces_nil
  | cons c t ih =>
    obtain ⟨hc, hslash⟩ := not_or.mp (mt List.mem_cons.mpr hslash)
    rw [pieces_other (by simp [Ne.symm hc]) (by simp [Ne.symm hc]), ih hslash]
    rfl

/-- Without commands and comments, all braces of a text remain. -/
theorem braces_remnants (elide : Bool) {t : Text} (hslash : '\\' ∉ t) (hpercent : '%' ∉ t) :
    (remnants elide t).filter Piece.isBrace = (pieces t).filter Piece.isBrace := by
  rw [remnants_of_plain elide hslash hpercent, pieces_of_plain hslash, ← List.filterMap_eq_map,
    List.filter_filterMap, List.filter_filterMap]
  refine List.filterMap_congr fun c _ => ?_
  by_cases hbrace : c = '{' ∨ c = '}'
  · rcases hbrace with rfl | rfl <;> rfl
  · have hsign : (Piece.sign c).isBrace = false := by simpa [Piece.isBrace] using hbrace
    have hnone : ∀ o : Option Piece, (∀ p ∈ o, p = .blank ∨ p = .sign c) →
        o.filter Piece.isBrace = none := by
      intro o ho
      refine Option.filter_eq_none_iff.mpr fun p hp => ?_
      rcases ho p hp with rfl | rfl
      · exact nofun
      · rw [hsign]
        exact nofun
    refine (hnone _ fun p => Cleaning.eq_of_mem_keptChar).trans (hnone _ fun p hp => ?_).symm
    obtain rfl := Option.some.inj hp
    rw [Piece.ofPlain]
    split
    · exact .inl rfl
    · exact .inr rfl

/-- Without commands and comments there is no command in the cleaned text either. -/
theorem controlWords_clean_of_plain (elide : Bool) {t : Text} (hslash : '\\' ∉ t)
    (hpercent : '%' ∉ t) : controlWords (clean elide t).1 = [] := by
  rw [controlWords_clean, remnants_of_plain elide hslash hpercent, List.filterMap_filterMap,
    List.filterMap_eq_nil_iff]
  intro c _
  refine Option.bind_eq_none_iff.mpr fun p hp => ?_
  rcases Cleaning.eq_of_mem_keptChar hp with rfl | rfl <;> rfl

/-- **Cleaning a text without commands and comments leaves its braces as deep as they were.** -/
theorem peak_clean (elide : Bool) {t : Text} (hslash : '\\' ∉ t) (hpercent : '%' ∉ t) :
    peak Piece.braceShift 0 (pieces (clean elide t).1) = peak Piece.braceShift 0 (pieces t) := by
  have hshift : ∀ (p : Piece) (k : Nat), p.isBrace = false → p.braceShift k = k := fun p k h =>
    Piece.braceShift_of_not h k
  have hclean := filter_clean (q := Piece.isBrace) rfl (fun _ => rfl) rfl elide t
  rw [braces_remnants elide hslash hpercent] at hclean
  rw [← peak_filter hshift, hclean, peak_filter hshift]

end SpokenMath
