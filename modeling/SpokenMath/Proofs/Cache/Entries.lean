import SpokenMath.Cache.Basic
import SpokenMath.Proofs.Lists

/-!
# The entries of a cache

Where the entries of a cache come from: a lookup adds none, and an insertion adds one. What a lookup
finds is the value of an entry under its key.

The **counters** only watch: what a cache finds and holds is the same whatever they show
(`get_uncounted`, `insert_uncounted`).
-/

namespace SpokenMath

/-- Nothing expires at the moment at which it is put in. -/
theorem Entry.isExpired_at_insertion {ν : Type} (v : ν) (now : UInt64) {ttl : UInt64}
    (h : ttl ≠ 0) : Entry.isExpired ⟨v, now, ttl⟩ now = false := by
  simp [isExpired, h]

namespace Cache

variable {κ ν : Type} [DecidableEq κ] {c : Cache κ ν} {j k : κ} {v : ν} {e : Entry ν} {now : UInt64}

theorem mem_without {l : List (κ × Entry ν)} : (j, e) ∈ without k l ↔ (j, e) ∈ l ∧ j ≠ k := by
  simp [without]

theorem mem_of_found (h : c.entry? k = some e) : (k, e) ∈ c.entries := mem_of_lookup h

theorem found_of_mem (hnodup : (c.entries.map Prod.fst).Nodup) (hmem : (k, e) ∈ c.entries) :
    c.entry? k = some e :=
  lookup_of_mem hnodup hmem

theorem length_without_lt (h : (k, e) ∈ c.entries) :
    (without k c.entries).length < c.entries.length :=
  List.length_filter_lt_length_iff_exists.mpr ⟨(k, e), h, by simp⟩

/-- A lookup finds an entry that has not expired and puts it in front, or it leaves no entry for its
key. -/
theorem get_cases (c : Cache κ ν) (k : κ) (now : UInt64) :
    (∃ e, c.entry? k = some e ∧ e.isExpired now = false ∧ (c.get k now).1 = some e.value ∧
      (c.get k now).2.entries = (k, e) :: without k c.entries) ∨
    ((∀ e, c.entry? k = some e → e.isExpired now = true) ∧ (c.get k now).1 = none ∧
      (c.get k now).2.entries = without k c.entries) := by
  cases hentry : c.entry? k with
  | none =>
    have hwithout : without k c.entries = c.entries := by
      refine List.filter_eq_self.mpr fun p hp => ?_
      simpa using (bne_iff_ne.mp (List.lookup_eq_none_iff.mp hentry p hp)).symm
    exact .inr ⟨by simp, by simp [get, hentry], by simp [get, hentry, hwithout]⟩
  | some e =>
    cases hexpired : e.isExpired now with
    | false => exact .inl ⟨e, rfl, hexpired, by simp [get, hentry, hexpired],
        by simp [get, hentry, hexpired]⟩
    | true => exact .inr ⟨by simpa using hexpired, by simp [get, hentry, hexpired],
        by simp [get, hentry, hexpired]⟩

/-- What a lookup finds is the value of an entry. -/
theorem mem_of_get (h : (c.get k now).1 = some v) : ∃ e, (k, e) ∈ c.entries ∧ e.value = v := by
  unfold get at h
  split at h
  · next e he =>
    split at h
    · cases h
    · exact ⟨e, mem_of_lookup he, Option.some.inj h⟩
  · cases h

/-- A lookup adds no entry. -/
theorem mem_of_mem_get (h : (j, e) ∈ (c.get k now).2.entries) : (j, e) ∈ c.entries := by
  unfold get at h
  split at h
  · next e' he =>
    split at h
    · exact (mem_without.mp h).1
    · rcases List.mem_cons.mp h with h | h
      · cases h
        exact mem_of_lookup he
      · exact (mem_without.mp h).1
  · exact h

/-- An insertion adds no entry but the one for its key, with its value and its time. -/
theorem mem_of_mem_insert (h : (j, e) ∈ (c.insert k v now).entries) :
    j = k ∧ e = ⟨v, now, .ofNat c.ttl⟩ ∨ j ≠ k ∧ (j, e) ∈ c.entries := by
  rcases List.mem_cons.mp (List.mem_of_mem_take h) with h | h
  · cases h
    exact .inl ⟨rfl, rfl⟩
  · exact .inr (mem_without.mp h).symm

/-- What was put in last is found until it expires. -/
theorem get_insert {now' : UInt64} (hcapacity : 0 < c.capacity)
    (hfresh : Entry.isExpired ⟨v, now, .ofNat c.ttl⟩ now' = false) :
    ((c.insert k v now).get k now').1 = some v := by
  have hentry : Cache.entry? (c.insert k v now) k = some ⟨v, now, .ofNat c.ttl⟩ := by
    obtain ⟨n, hn⟩ := Nat.exists_eq_add_of_lt hcapacity
    simp [insert, insertWithTtl, put, entry?, hn]
  simp [get, hentry, hfresh]

/-- A lookup leaves the time to live as it is. -/
theorem ttl_get : (c.get k now).2.ttl = c.ttl := by
  unfold get
  split
  · split <;> rfl
  · rfl

theorem capacity_get : (c.get k now).2.capacity = c.capacity := by
  unfold get
  split
  · split <;> rfl
  · rfl

/-- There is nothing in a new cache. -/
theorem get_new (capacity ttl : Nat) : ((new capacity ttl : Cache κ ν).get k now).1 = none := rfl

/-! ## Counters -/

/-- The cache with its counters at zero. -/
def uncounted (c : Cache κ ν) : Cache κ ν := { c with counters := {} }

omit [DecidableEq κ] in
theorem uncounted_congr {c c' : Cache κ ν} (hcapacity : c.capacity = c'.capacity)
    (httl : c.ttl = c'.ttl) (hentries : c.entries = c'.entries) : c.uncounted = c'.uncounted := by
  simp only [uncounted, hcapacity, httl, hentries]

theorem get_uncounted (c : Cache κ ν) (k : κ) (now : UInt64) :
    (c.uncounted.get k now).1 = (c.get k now).1 ∧
      (c.uncounted.get k now).2.uncounted = (c.get k now).2.uncounted := by
  have hentry : c.uncounted.entry? k = c.entry? k := rfl
  unfold get
  rw [hentry]
  cases c.entry? k with
  | none => exact ⟨rfl, rfl⟩
  | some e => cases he : e.isExpired now <;> simp [he, uncounted]

theorem insert_uncounted (c : Cache κ ν) (k : κ) (v : ν) (now : UInt64) :
    (c.uncounted.insert k v now).uncounted = (c.insert k v now).uncounted := rfl

/-- A lookup that finds nothing changes nothing but the counters, unless something has expired. -/
theorem get_uncounted_of_fresh (hfresh : ∀ j e, (j, e) ∈ c.entries → e.isExpired now = false)
    (hget : (c.get k now).1 = none) : (c.get k now).2.uncounted = c.uncounted := by
  unfold get at hget ⊢
  cases hentry : c.entry? k with
  | none => rfl
  | some e =>
    rw [hentry] at hget
    simp [hfresh k e (mem_of_lookup hentry)] at hget

end Cache

end SpokenMath
