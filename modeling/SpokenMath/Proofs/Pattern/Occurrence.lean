import SpokenMath.Pattern.Basic
import SpokenMath.Proofs.Lists

/-!
# Matches lie in the text

Every cursor that a match remembers stands in the text that is searched (`matches_on`). So what a
replacement is given are stretches of the text, and replacing adds nothing but what the replacement
writes (`mem_replaceAll`).

The invariant is carried by the threads of a search: a thread remembers cursors of the text only,
and it is handed on by each instruction, each character and each step of the sweep.
-/

namespace SpokenMath

/-! ## Places in a text -/

/-- A cursor stands in a text: what follows it is an end of the text. -/
def Cursor.On (t : Text) (c : Cursor) : Prop := c.rest <:+ t

theorem Cursor.on_start (t : Text) : (Cursor.start t).On t := List.suffix_rfl

theorem Cursor.rest_next? {c d : Cursor} {x : Char} (h : c.next? = some (x, d)) :
    c.rest = x :: d.rest := by
  unfold next? at h
  split at h
  · cases h
  · next y ys hr =>
    cases h
    exact hr

theorem Cursor.next?_of_rest {c : Cursor} {x : Char} {t : Text} (hrest : c.rest = x :: t) :
    ∃ d, c.next? = some (x, d) ∧ d.rest = t ∧ c.left = d.left + 1 := by
  unfold next?
  split
  · next h =>
    rw [h] at hrest
    cases hrest
  · next y ys h =>
    rw [h] at hrest
    cases hrest
    exact ⟨_, rfl, rfl, by simp [c.left_eq, h]⟩

theorem Cursor.next?_eq_none_iff {c : Cursor} : c.next? = none ↔ c.rest = [] := by
  cases hrest : c.rest with
  | nil =>
    unfold next?
    split
    · simp
    · next h =>
      rw [h] at hrest
      cases hrest
  | cons x t =>
    obtain ⟨d, h, -⟩ := next?_of_rest hrest
    simp [h]

@[simp] theorem Cursor.textUpTo_self (c : Cursor) : c.textUpTo c = [] := by
  simp [textUpTo]

theorem Cursor.On.next {t : Text} {c d : Cursor} {x : Char} (hc : c.On t)
    (h : c.next? = some (x, d)) : d.On t := by
  refine List.IsSuffix.trans ?_ hc
  rw [rest_next? h]
  exact List.suffix_cons x d.rest

theorem Cursor.On.textUpTo_subset {t : Text} {c : Cursor} (hc : c.On t) (d : Cursor) :
    c.textUpTo d ⊆ t :=
  List.Subset.trans (List.take_subset _ _) hc.subset

/-- Every cursor that a thread remembers stands in a text. -/
structure Thread.On (t : Text) (r : Thread) : Prop where
  start : r.start.On t
  saved : ∀ p ∈ r.saved, p.2.On t

/-- Every cursor that a match remembers stands in a text. -/
structure Match.On (t : Text) (m : Match) : Prop where
  start : m.start.On t
  stop : m.stop.On t
  saved : ∀ p ∈ m.saved, p.2.On t

theorem Match.On.group?_subset {t g : Text} {m : Match} (hm : m.On t) {n : Nat}
    (h : m.group? n = some g) : g ⊆ t := by
  unfold group? at h
  simp only [Option.bind_eq_bind, Option.bind_eq_some_iff] at h
  obtain ⟨start, hstart, stop, -, h⟩ := h
  cases h
  exact (hm.saved _ (mem_of_lookup hstart)).textUpTo_subset stop

theorem Match.On.groupsOf_subset {t : Text} {m : Match} (hm : m.On t) (p : Pattern) :
    ∀ g ∈ p.groupsOf m, g ⊆ t := by
  intro g hg
  obtain ⟨i, -, rfl⟩ := List.mem_map.mp hg
  cases h : m.group? (i + 1) with
  | none => exact List.nil_subset t
  | some g => exact hm.group?_subset h

namespace Program

variable {t : Text} {p : Program} {code : Array Instr}

/-! ## Searching -/

theorem run_on {c : Cursor} (hc : c.On t) {supply : Nat} {ts : List Thread} {w : Waiting}
    (hts : ∀ r ∈ ts, r.On t) (hw : ∀ r ∈ w.threads, r.On t) :
    ∀ r ∈ (run code c supply ts w).threads, r.On t := by
  fun_induction run code c supply ts w with
  | case1 => exact hw
  | case2 => exact hw
  | case3 supply r ts w hreached ih => exact ih (List.forall_mem_cons.mp hts).2 hw
  | case4 supply r ts w hfresh w' preferred other hcode ih =>
    obtain ⟨hr, hts⟩ := List.forall_mem_cons.mp hts
    exact ih (List.forall_mem_cons.mpr ⟨⟨hr.start, hr.saved⟩,
      List.forall_mem_cons.mpr ⟨⟨hr.start, hr.saved⟩, hts⟩⟩) hw
  | case5 supply r ts w hfresh w' target hcode ih =>
    obtain ⟨hr, hts⟩ := List.forall_mem_cons.mp hts
    exact ih (List.forall_mem_cons.mpr ⟨⟨hr.start, hr.saved⟩, hts⟩) hw
  | case6 supply r ts w hfresh w' slot hcode ih =>
    obtain ⟨hr, hts⟩ := List.forall_mem_cons.mp hts
    exact ih (List.forall_mem_cons.mpr
      ⟨⟨hr.start, List.forall_mem_cons.mpr ⟨hc, hr.saved⟩⟩, hts⟩) hw
  | case7 supply r ts w hfresh w' a hcode hholds ih =>
    obtain ⟨hr, hts⟩ := List.forall_mem_cons.mp hts
    exact ih (List.forall_mem_cons.mpr ⟨⟨hr.start, hr.saved⟩, hts⟩) hw
  | case8 supply r ts w hfresh w' a hcode hholds ih => exact ih (List.forall_mem_cons.mp hts).2 hw
  | case9 supply r ts w hfresh w' i hcode hfork hjump hsave hanchor ih =>
    obtain ⟨hr, hts⟩ := List.forall_mem_cons.mp hts
    exact ih hts (List.forall_mem_cons.mpr ⟨hr, hw⟩)
  | case10 supply r ts w hfresh w' hcode ih => exact ih (List.forall_mem_cons.mp hts).2 hw

theorem waiting_on {c : Cursor} (hc : c.On t) {ts : List Thread} (hts : ∀ r ∈ ts, r.On t) :
    ∀ r ∈ p.waiting c ts, r.On t := fun r hr =>
  run_on hc hts (by simp) r (List.mem_reverse.mp hr)

theorem upToAccepted_on {ts reading : List Thread} {accepted : Option Thread}
    (h : upToAccepted code ts = (reading, accepted)) (hts : ∀ r ∈ ts, r.On t) :
    (∀ r ∈ reading, r.On t) ∧ ∀ r ∈ accepted, r.On t := by
  cases h
  exact ⟨fun r hr => hts r (List.takeWhile_subset _ hr),
    fun r hr => hts r (List.mem_of_find?_eq_some hr)⟩

theorem read?_eq {x : Char} {r s : Thread} (h : read? code x r = some s) :
    s = { r with pc := r.pc + 1 } := by
  simp only [read?, Option.ite_none_right_eq_some, Option.some.injEq] at h
  exact h.2.symm

theorem read?_on {x : Char} {ts : List Thread} (hts : ∀ r ∈ ts, r.On t) :
    ∀ r ∈ ts.filterMap (read? code x), r.On t := by
  intro r hr
  obtain ⟨s, hs, hread⟩ := List.mem_filterMap.mp hr
  rw [read?_eq hread]
  exact ⟨(hts s hs).start, (hts s hs).saved⟩

theorem fresh_on {c : Cursor} (hc : c.On t) {ts : List Thread} (hts : ∀ r ∈ ts, r.On t)
    (fresh : Bool) : ∀ r ∈ if fresh then ts ++ [⟨0, c, []⟩] else ts, r.On t := by
  split
  · intro r hr
    rcases List.mem_append.mp hr with hr | hr
    · exact hts r hr
    · rw [List.mem_singleton.mp hr]
      exact ⟨hc, by simp⟩
  · exact hts

theorem accepted_on {c : Cursor} (hc : c.On t) {accepted : Option Thread} {found : Option Match}
    (hr : ∀ r ∈ accepted, r.On t) (hfound : ∀ m ∈ found, m.On t) :
    ∀ m ∈ (accepted.map fun r => (⟨r.start, c, r.saved⟩ : Match)).or found, m.On t := by
  cases accepted with
  | none => exact hfound
  | some r =>
    intro m hm
    cases hm
    exact ⟨(hr r rfl).start, hc, (hr r rfl).saved⟩

theorem sweep_on {ts : List Thread} {found : Option Match} {c : Cursor} (hc : c.On t)
    (hts : ∀ r ∈ ts, r.On t) (hfound : ∀ m ∈ found, m.On t) : ∀ m ∈ p.sweep ts found c, m.On t := by
  fun_induction sweep p ts found c with
  | case1 ts c x d hnext fresh hidle ih => exact ih (hc.next hnext) (by simp) hfound
  | case2 ts c found hlast fresh hidle => exact hfound
  | case3 ts found c fresh hbusy ts' reading accepted hup found' x d hnext ih =>
    have hreading := upToAccepted_on hup (waiting_on hc (fresh_on hc hts fresh))
    exact ih (hc.next hnext) (read?_on hreading.1) (accepted_on hc hreading.2 hfound)
  | case4 ts found c fresh hbusy ts' reading accepted hup found' hnext =>
    have hreading := upToAccepted_on hup (waiting_on hc (fresh_on hc hts fresh))
    exact accepted_on hc hreading.2 hfound

theorem search?_on {c : Cursor} (hc : c.On t) : ∀ m ∈ p.search? c, m.On t :=
  sweep_on hc (by simp) (by simp)

/-- One more match, unless it does not count. -/
theorem counted_on {m : Match} (hm : m.On t) {found : List Match} (hfound : ∀ m ∈ found, m.On t)
    (skip : Bool) : ∀ m' ∈ if skip then found else m :: found, m'.On t := by
  split
  · exact hfound
  · exact List.forall_mem_cons.mpr ⟨hm, hfound⟩

theorem matchesFrom_on {found : List Match} {behindMatch : Bool} {c : Cursor} (hc : c.On t)
    (hfound : ∀ m ∈ found, m.On t) : ∀ m ∈ p.matchesFrom found behindMatch c, m.On t := by
  fun_induction matchesFrom p found behindMatch c with
  | case1 => exact hfound
  | case2 found behindMatch c m hm hempty found' x d hnext hlt ih =>
    have hon := search?_on hc m hm
    exact ih (hon.stop.next hnext) (counted_on hon hfound _)
  | case3 found behindMatch c m hm hempty found' x d hnext hlt =>
    exact counted_on (search?_on hc m hm) hfound _
  | case4 found behindMatch c m hm hempty found' hnext =>
    exact counted_on (search?_on hc m hm) hfound _
  | case5 found behindMatch c m hm hempty hlt ih =>
    have hon := search?_on hc m hm
    exact ih hon.stop (List.forall_mem_cons.mpr ⟨hon, hfound⟩)
  | case6 found behindMatch c m hm hempty hlt =>
    exact List.forall_mem_cons.mpr ⟨search?_on hc m hm, hfound⟩

/-- **Matches lie in the text that is searched.** -/
theorem matches'_on (p : Program) (t : Text) : ∀ m ∈ p.matches' t, m.On t := fun m hm =>
  matchesFrom_on (Cursor.on_start t) (by simp) m (List.mem_reverse.mp hm)

/-! ## Replacing -/

/-- What is written from some matches on: what stands behind `out` and what follows `c`. -/
def writeFrom (render : Match → Text) (ms : List Match) (out : Text) (c : Cursor) : Text :=
  let r := ms.foldl (fun (out, c) m =>
    ((render m).reverse ++ ((c.textUpTo m.start).reverse ++ out), m.stop)) (out, c)
  r.1.reverseAux r.2.rest

theorem replaceAll_eq (p : Program) (render : Match → Text) (t : Text) :
    p.replaceAll render t = writeFrom render (p.matches' t) [] (.start t) := rfl

@[simp] theorem writeFrom_nil (render : Match → Text) (out : Text) (c : Cursor) :
    writeFrom render [] out c = out.reverse ++ c.rest := List.reverseAux_eq

@[simp] theorem writeFrom_cons (render : Match → Text) (m : Match) (ms : List Match) (out : Text)
    (c : Cursor) :
    writeFrom render (m :: ms) out c =
      writeFrom render ms ((render m).reverse ++ ((c.textUpTo m.start).reverse ++ out)) m.stop :=
  rfl

theorem mem_writeFrom {render : Match → Text} {ms : List Match} {out : Text} {c : Cursor} {x : Char}
    (hc : c.On t) (hms : ∀ m ∈ ms, m.On t) (hx : x ∈ writeFrom render ms out c) :
    x ∈ out ∨ x ∈ t ∨ ∃ m ∈ ms, x ∈ render m := by
  induction ms generalizing out c with
  | nil =>
    rw [writeFrom_nil, List.mem_append, List.mem_reverse] at hx
    exact hx.imp id fun h => .inl (hc.subset h)
  | cons m ms ih =>
    obtain ⟨hm, hms⟩ := List.forall_mem_cons.mp hms
    rw [writeFrom_cons] at hx
    rcases ih hm.stop hms hx with h | h | ⟨m', hm', h⟩
    · simp only [List.mem_append, List.mem_reverse] at h
      rcases h with h | h | h
      · exact .inr (.inr ⟨m, List.mem_cons_self, h⟩)
      · exact .inr (.inl (hc.textUpTo_subset _ h))
      · exact .inl h
    · exact .inr (.inl h)
    · exact .inr (.inr ⟨m', List.mem_cons_of_mem _ hm', h⟩)

/-- **Replacing adds nothing but what is written for the matches.** -/
theorem mem_replaceAll {render : Match → Text} {x : Char} (hx : x ∈ p.replaceAll render t) :
    x ∈ t ∨ ∃ m, m.On t ∧ x ∈ render m := by
  rw [replaceAll_eq] at hx
  rcases mem_writeFrom (Cursor.on_start t) (matches'_on p t) hx with h | h | ⟨m, hm, h⟩
  · cases h
  · exact .inl h
  · exact .inr ⟨m, matches'_on p t m hm, h⟩

end Program

end SpokenMath
