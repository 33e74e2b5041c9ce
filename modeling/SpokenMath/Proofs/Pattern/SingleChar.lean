import SpokenMath.Proofs.Pattern.Occurrence

/-!
# Patterns of one character

A pattern that is one character, or one set of characters, matches wherever such a character stands.
Replacing its matches by a fixed text therefore works on each character by itself
(`replaceAll_single`).
-/

namespace SpokenMath

/-- An expression for one character, or for one character of a set: it reads those that satisfy a
test. -/
inductive Regex.Single : Regex → (Char → Bool) → Prop
  | literal (a : Char) : Single (.literal [a]) (a == ·)
  | set (s : CharSet) : Single (.set s) s.contains

theorem CharSet.contains_ofList_singleton (a x : Char) : (ofList [a]).contains x = (a == x) := by
  have hranges : (ofList [a]).ranges = [(a.toNat, a.toNat)] := by
    simp [ofList, ofRanges, mergeRanges, placeRange, joinRanges, joinRanges.join]
  rw [contains, hranges, inRanges, inRanges, Bool.eq_iff_iff, beq_iff_eq, ← Char.toNat_inj]
  split <;> simp <;> omega

namespace Program

variable {r : Regex} {reads : Char → Bool} {c d : Cursor} {x : Char}

theorem mayStart_single (h : r.Single reads) (c : Cursor) :
    r.program.mayStart c = c.rest.head?.any reads := by
  cases h with
  | literal a =>
    have hreads : (fun x => a == x) = (CharSet.ofList [a]).contains :=
      funext fun x => (CharSet.contains_ofList_singleton a x).symm
    rw [hreads]
    rfl
  | set s => rfl

/-- A new thread waits for its character. -/
theorem waiting_fresh (h : r.Single reads) (c : Cursor) :
    r.program.waiting c [⟨0, c, []⟩] = [⟨0, c, []⟩] := by
  cases h <;> simp [Regex.program, Regex.emit, waiting, run]

theorem read?_fresh (h : r.Single reads) (c : Cursor) :
    read? r.program.code x ⟨0, c, []⟩ = if reads x then some ⟨1, c, []⟩ else none := by
  cases h <;> rfl

theorem upToAccepted_fresh (h : r.Single reads) (c : Cursor) :
    upToAccepted r.program.code [⟨0, c, []⟩] = ([⟨0, c, []⟩], none) := by
  cases h <;> rfl

/-- A thread behind its character accepts, whether a new one follows it or not. -/
theorem upToAccepted_behind (h : r.Single reads) (c d : Cursor) (fresh : Bool) :
    upToAccepted r.program.code
        (r.program.waiting d (if fresh then [⟨1, c, []⟩] ++ [⟨0, d, []⟩] else [⟨1, c, []⟩])) =
      ([], some ⟨1, c, []⟩) := by
  cases h <;> cases fresh <;> simp [Regex.program, Regex.emit, waiting, run, upToAccepted]

/-! ## Searching -/

/-- Once no thread is left, what was found is the match. -/
theorem sweep_found (p : Program) (m : Match) (c : Cursor) : p.sweep [] (some m) c = some m := by
  unfold sweep
  simp

/-- Behind its character a thread accepts. -/
theorem sweep_behind (h : r.Single reads) (c d : Cursor) :
    r.program.sweep [⟨1, c, []⟩] none d = some ⟨c, d, []⟩ := by
  unfold sweep
  simp only [List.isEmpty_cons, Bool.false_and, Bool.false_eq_true, ↓reduceIte, Option.isNone_none,
    Bool.true_and, upToAccepted_behind h c d, Option.map_some, List.filterMap_nil]
  split
  · exact sweep_found _ _ _
  · rfl

/-- A match starts at the first chance. -/
theorem search?_of_reads (h : r.Single reads) (hnext : c.next? = some (x, d))
    (hx : reads x = true) : r.program.search? c = some ⟨c, d, []⟩ := by
  have hstart : r.program.mayStart c = true := by
    rw [mayStart_single h, Cursor.rest_next? hnext]
    exact hx
  unfold search? sweep
  simp only [hstart, List.isEmpty_nil, Option.isNone_none, Bool.not_true,
    Bool.and_false, Bool.false_eq_true, ↓reduceIte, List.nil_append, Bool.and_true,
    waiting_fresh h, upToAccepted_fresh h, Option.map_none, Option.none_or]
  split
  · next y e hy =>
    rw [hnext] at hy
    cases hy
    rw [List.filterMap_cons, read?_fresh h, if_pos hx]
    exact sweep_behind h c d
  · next hy =>
    rw [hnext] at hy
    cases hy

/-- No match starts at another character. -/
theorem search?_of_not_reads (h : r.Single reads) (hnext : c.next? = some (x, d))
    (hx : reads x = false) : r.program.search? c = r.program.search? d := by
  have hstart : r.program.mayStart c = false := by
    rw [mayStart_single h, Cursor.rest_next? hnext]
    exact hx
  unfold search?
  conv => lhs; unfold sweep
  simp only [hstart, List.isEmpty_nil, Option.isNone_none, Bool.and_false, Bool.not_false,
    Bool.and_true, ↓reduceIte]
  split
  · next e he =>
    rw [hnext] at he
    cases he
    rfl
  · next hlast => exact absurd hnext (hlast x d rfl)

theorem search?_at_end (h : r.Single reads) (hnext : c.next? = none) :
    r.program.search? c = none := by
  have hstart : r.program.mayStart c = false := by
    rw [mayStart_single h, Cursor.next?_eq_none_iff.mp hnext]
    rfl
  unfold search? sweep
  simp only [hstart, List.isEmpty_nil, Option.isNone_none, Bool.and_false, Bool.not_false,
    Bool.and_true, ↓reduceIte]
  split
  · next y e he =>
    rw [hnext] at he
    cases he
  · rfl

/-- A search finds the first character that is read, if there is one. -/
theorem search?_cases (h : r.Single reads) (c : Cursor) :
    (r.program.search? c = none ∧ ∀ y ∈ c.rest, reads y = false) ∨
      ∃ a x d, r.program.search? c = some ⟨a, d, []⟩ ∧ a.next? = some (x, d) ∧ reads x = true ∧
        a.left ≤ c.left ∧ c.rest = c.textUpTo a ++ a.rest ∧
        ∀ y ∈ c.textUpTo a, reads y = false := by
  induction hrest : c.rest generalizing c with
  | nil =>
    exact .inl ⟨search?_at_end h (Cursor.next?_eq_none_iff.mpr hrest), by simp⟩
  | cons x t ih =>
    obtain ⟨d, hnext, rfl, hleft⟩ := Cursor.next?_of_rest hrest
    cases hx : reads x with
    | true =>
      refine .inr ⟨c, x, d, search?_of_reads h hnext hx, hnext, hx, Nat.le_refl _, ?_, ?_⟩
      · rw [c.textUpTo_self, hrest, List.nil_append]
      · simp
    | false =>
      rw [search?_of_not_reads h hnext hx]
      rcases ih d rfl with ⟨hnone, hfree⟩ | ⟨a, y, b, hsome, ha, hy, hle, hsplit, hfree⟩
      · exact .inl ⟨hnone, List.forall_mem_cons.mpr ⟨hx, hfree⟩⟩
      · have hgap : c.textUpTo a = x :: d.textUpTo a := by
          simp only [Cursor.textUpTo]
          rw [hrest, show c.left - a.left = d.left - a.left + 1 by omega, List.take_succ_cons]
        refine .inr ⟨a, y, b, hsome, ha, hy, by omega, ?_, ?_⟩
        · rw [hgap, List.cons_append, ← hsplit]
        · rw [hgap]
          exact List.forall_mem_cons.mpr ⟨hx, hfree⟩

/-! ## Replacing -/

/-- What becomes of one character, if those that are read are replaced by a text. -/
def exchange (reads : Char → Bool) (w : Text) (x : Char) : Text := if reads x then w else [x]

theorem flatMap_exchange_of_free {t w : Text} (h : ∀ y ∈ t, reads y = false) :
    t.flatMap (exchange reads w) = t := by
  induction t with
  | nil => rfl
  | cons y t ih =>
    obtain ⟨hy, ht⟩ := List.forall_mem_cons.mp h
    rw [List.flatMap_cons, ih ht, exchange, hy]
    rfl

/-- The matches from a cursor on, and what is written from there. -/
theorem write_single (h : r.Single reads) {render : Match → Text} {w : Text}
    (hw : ∀ m, render m = w) (c : Cursor) :
    ∃ ms, (∀ found behindMatch, r.program.matchesFrom found behindMatch c = ms.reverse ++ found) ∧
      ∀ out, writeFrom render ms out c = out.reverse ++ c.rest.flatMap (exchange reads w) := by
  induction hn : c.left using Nat.strongRecOn generalizing c with
  | _ n ih =>
    rcases search?_cases h c with ⟨hnone, hfree⟩ | ⟨a, x, d, hsome, ha, hx, hle, hsplit, hfree⟩
    · refine ⟨[], fun found behindMatch => ?_, fun out => ?_⟩
      · unfold matchesFrom
        simp [hnone]
      · rw [writeFrom_nil, flatMap_exchange_of_free hfree]
    · have hlt := Cursor.left_next? ha
      obtain ⟨ms, hms, hwrite⟩ := ih d.left (by omega) d rfl
      refine ⟨⟨a, d, []⟩ :: ms, fun found behindMatch => ?_, fun out => ?_⟩
      · have hnonempty : (Match.mk a d []).isEmpty = false := by
          simp only [Match.isEmpty, beq_eq_false_iff_ne]
          omega
        unfold matchesFrom
        rw [hsome]
        simp only [hnonempty, Bool.false_eq_true, ↓reduceIte]
        rw [if_pos (by omega), hms, List.reverse_cons, List.append_assoc]
        rfl
      · rw [writeFrom_cons, hwrite, hsplit, List.flatMap_append, flatMap_exchange_of_free hfree,
          Cursor.rest_next? ha, List.flatMap_cons, exchange, if_pos hx, hw]
        simp

/-- **Replacing the matches of one character works on each character by itself.** -/
theorem replaceAll_single (h : r.Single reads) {render : Match → Text} {w : Text}
    (hw : ∀ m, render m = w) (t : Text) :
    r.program.replaceAll render t = t.flatMap (exchange reads w) := by
  obtain ⟨ms, hms, hwrite⟩ := write_single h hw (.start t)
  rw [replaceAll_eq, matches', hms, List.append_nil, List.reverse_reverse, hwrite]
  rfl

end Program

end SpokenMath
