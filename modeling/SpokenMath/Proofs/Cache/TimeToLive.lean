import SpokenMath.Proofs.Cache.Restoration

/-!
# How long an entry is served

A time to live may be any number of milliseconds, and an entry keeps a word of 64 bits of it. In
exact arithmetic an entry has **lapsed** if the clock shows a time before its insertion, or if the
time since then has reached its time to live.

**Theorem (`expired_iff_lapsed`).** Lookups, purges and snapshots, both when they are saved and when
they are loaded, treat an entry as expired exactly if it has lapsed by its time to live *modulo*
2^64. This is the time to live itself exactly if it fits into a word.

So a longer one is cut down, to any length: with 2^61 seconds, or 2^64 · 125 milliseconds, nothing
is left, and an entry is gone at the moment at which it is put in (`gone_at_insertion`).
-/

namespace SpokenMath

variable {ν ε : Type}

/-! ## Exact time -/

/-- An entry put in at `start` has outlived a time to live of `ttl` milliseconds, or stems from the
future. -/
def Lapsed (ttl : Nat) (start now : UInt64) : Prop :=
  now < start ∨ ttl ≤ now.toNat - start.toNat

instance (ttl : Nat) (start now : UInt64) : Decidable (Lapsed ttl start now) :=
  inferInstanceAs (Decidable (_ ∨ _))

/-- Of its time to live, an entry knows a word. -/
theorem Entry.isExpired_iff_lapsed (v : ν) (ttl : Nat) (start now : UInt64) :
    Entry.isExpired ⟨v, start, .ofNat ttl⟩ now = true ↔ Lapsed (ttl % UInt64.size) start now := by
  rw [← Bool.not_eq_false, isExpired_eq_false_iff]
  simp only [LivesAt, Lapsed, UInt64.lt_iff_toNat_lt, UInt64.toNat_ofNat', UInt64.size]
  omega

/-- The remainder makes no difference exactly if there is nothing to be cut off. -/
theorem lapsed_mod_iff {ttl : Nat} :
    (∀ start now, Lapsed (ttl % UInt64.size) start now ↔ Lapsed ttl start now) ↔
      ttl < UInt64.size := by
  constructor
  case mp =>
    intro hsame
    -- At the remainder itself, an entry put in at 0 has lapsed.
    have hremainder : (UInt64.ofNat ttl).toNat = ttl % UInt64.size := UInt64.toNat_ofNat'
    have hlapsed : Lapsed (ttl % UInt64.size) 0 (.ofNat ttl) := .inr hremainder.ge
    rcases (hsame 0 (.ofNat ttl)).mp hlapsed with hbefore | hreached
    · exact absurd hbefore (UInt64.not_lt.mpr (UInt64.zero_le))
    · rw [hremainder] at hreached
      exact hreached.trans_lt (Nat.mod_lt ttl (by decide))
  case mpr =>
    intro hword start now
    rw [Nat.mod_eq_of_lt hword]

namespace Cache

/-! ## The entry of an insertion -/

/-- Puts a value in, with a time to live of its own or with that of the cache. -/
def Operation.insertion (k : Digest) (v : ν) (ttl? : Option Nat) (now : UInt64) : Operation ν ε :=
  match ttl? with
  | some ttl => .insertWithTtl k v ttl now
  | none => .insert k v now

variable {value : Codec ν} {capacity ttl : Nat} {k : Digest} {v : ν} {e : Entry ν} {start : UInt64}

theorem after_append (c : Cache Digest ν) (ops later : List (Operation ν ε)) :
    c.after value (ops ++ later) = (c.after value ops).after value later := by
  induction ops generalizing c with
  | nil => rfl
  | cons op ops ih => exact ih _

/-- The entry that an insertion leaves. -/
theorem entry_insertion (ops : List (Operation ν ε)) (ttl? : Option Nat) :
    Cache.entry? ((new capacity ttl).after value (ops ++ [.insertion k v ttl? start])) k =
      some ⟨v, start, .ofNat (ttl?.getD ttl)⟩ := by
  have hroom : 0 < ((new capacity ttl).after value ops).capacity := by
    rw [capacity_after]
    exact Nat.le_max_right capacity 1
  obtain ⟨n, hn⟩ := Nat.exists_eq_add_of_lt hroom
  have hput (e : Entry ν) :
      Cache.entry? (((new capacity ttl).after value ops).put k e) k = some e := by
    simp [put, entry?, hn]
  rw [after_append]
  cases ttl? with
  | some ttl => exact hput _
  | none =>
    have httl : ((new capacity ttl).after value ops).ttl = ttl := ttl_after value _ ops
    calc
      _ = some ⟨v, start, .ofNat ((new capacity ttl).after value ops).ttl⟩ := hput _
      _ = some ⟨v, start, .ofNat ttl⟩ := by rw [httl]

/-! ## What happens to it -/

/-- There are no two entries under a key. -/
theorem eq_of_mem {c : Cache Digest ν} (hnodup : (c.entries.map Prod.fst).Nodup) {e' : Entry ν}
    (hentry : c.entry? k = some e) (hmem : (k, e') ∈ c.entries) : e = e' :=
  Option.some.inj (hentry.symm.trans (found_of_mem hnodup hmem))

/-- A purge leaves the entry under a key there or takes it out. -/
theorem entry_purgeExpired {c : Cache Digest ν} (hnodup : (c.entries.map Prod.fst).Nodup)
    (hentry : c.entry? k = some e) (now : UInt64) :
    Cache.entry? (c.purgeExpired now).2 k = if e.isExpired now then none else some e := by
  have hmem := mem_of_found hentry
  split_ifs with hexpired
  · refine Option.eq_none_iff_forall_ne_some.mpr fun e' he' => ?_
    obtain ⟨hmem', hlives⟩ := List.mem_filter.mp (mem_of_found he')
    obtain rfl := eq_of_mem hnodup hentry hmem'
    simp [hexpired] at hlives
  · have hsub : (c.purgeExpired now).2.entries.Sublist c.entries := List.filter_sublist
    refine found_of_mem (hnodup.sublist (hsub.map Prod.fst)) (List.mem_filter.mpr ⟨hmem, ?_⟩)
    simpa using hexpired

/-- The only entry under a key is saved unless it has expired. -/
theorem mem_liveEntries {c : Cache Digest ν} (hnodup : (c.entries.map Prod.fst).Nodup)
    {e' : Entry ν} (hentry : c.entry? k = some e) (now : UInt64) :
    (k, e') ∈ c.liveEntries now ↔ e = e' ∧ ¬ e.isExpired now = true := by
  rw [liveEntries, List.mem_filter, List.mem_reverse]
  constructor
  · rintro ⟨hmem, hlives⟩
    obtain rfl := eq_of_mem hnodup hentry hmem
    exact ⟨rfl, by simpa using hlives⟩
  · rintro ⟨rfl, hlives⟩
    exact ⟨mem_of_found hentry, by simpa using hlives⟩

theorem get_of_entry {c : Cache Digest ν} (hentry : c.entry? k = some e) (now : UInt64) :
    (c.get k now).1 = if e.isExpired now then none else some e.value := by
  simp only [get, hentry]
  split_ifs <;> rfl

/-- **An entry is treated as expired exactly if it has lapsed by the word that is kept of its time
to live.** A value is put into a cache that has been through any operations, at any time and with
any time to live. Whatever is asked of the cache later: while the entry is still there, a lookup, a
purge and saving a snapshot treat it as absent if it has lapsed modulo 2^64, and find it otherwise.
Loading any snapshot in which the entry stands leaves it out or puts it in accordingly. Modulo 2^64
makes no difference exactly if the time to live is less than 2^64 milliseconds. -/
theorem expired_iff_lapsed (value : Codec ν) (capacity ttl : Nat)
    (before later : List (Operation ν ε)) (k : Digest) (v : ν) (ttl? : Option Nat)
    (start now : UInt64) :
    let inserted := before ++ [.insertion k v ttl? start]
    let held := Cache.entry? ((new capacity ttl).after value inserted) k
    let c := (new capacity ttl).after value (inserted ++ later)
    let given := ttl?.getD ttl
    let lapsed := Lapsed (given % UInt64.size) start now
    c.entry? k = held →
      (c.get k now).1 = (if lapsed then none else some v) ∧
      Cache.entry? (c.purgeExpired now).2 k = (if lapsed then none else held) ∧
      (∃ entries, c.save value now = (entries.length, Snapshot.encode value entries) ∧
        ∀ e, (k, e) ∈ entries ↔ held = some e ∧ ¬ lapsed) ∧
      (∀ (target : Cache Digest ν) bytes entries e, Snapshot.decode value bytes = .ok entries →
        held = some e → (k, e) ∈ entries →
        ∃ loaded, loaded.Sublist entries ∧ ((k, e) ∈ loaded ↔ ¬ lapsed) ∧
          target.restore value bytes now = (.ok loaded.length, target.putAll loaded)) ∧
      ((∀ start now, Lapsed (given % UInt64.size) start now ↔ Lapsed given start now) ↔
        given < UInt64.size) := by
  intro inserted held c given lapsed hkept
  have hheld : held = some ⟨v, start, .ofNat given⟩ := entry_insertion before ttl?
  have hexpired : Entry.isExpired ⟨v, start, .ofNat given⟩ now = true ↔ lapsed :=
    Entry.isExpired_iff_lapsed v given start now
  have hentry := hkept.trans hheld
  have hnodup : (c.entries.map Prod.fst).Nodup := (mirrors_after value capacity ttl _).nodup
  refine ⟨?get, ?purge, ?save, ?load, lapsed_mod_iff⟩
  case get =>
    rw [get_of_entry hentry]
    simp only [hexpired]
  case purge =>
    rw [hheld, entry_purgeExpired hnodup hentry]
    simp only [hexpired]
  case save =>
    refine ⟨_, rfl, fun e => ?_⟩
    rw [mem_liveEntries hnodup hentry, hexpired, hheld, Option.some_inj]
  case load =>
    rintro target bytes entries e hdecode he hmem
    obtain rfl := Option.some.inj (hheld.symm.trans he)
    refine ⟨_, List.filter_sublist, ?_, restore_of_decode hdecode⟩
    rw [List.mem_filter, ← hexpired, Bool.not_eq_true, Bool.not_eq_true']
    exact and_iff_right hmem

/-- Of 2^64 + 20 milliseconds, an entry lives for 20. -/
theorem expired_iff_lapsed_twenty :
    let key (n : UInt8) : Digest := Vector.replicate 32 n
    let inserted : List (Operation String Unit) :=
      [.insert (key 1) "one" 5] ++ [.insertion (key 2) "two" (some (2 ^ 64 + 20)) 6]
    let c := (new 2 1000).after .string (inserted ++ [.get (key 1) 7])
    (c.get (key 2) 25).1 = some "two" ∧ (c.get (key 2) 26).1 = none ∧
      Cache.entry? (c.purgeExpired 26).2 (key 2) = none ∧
      Cache.entry? (c.purgeExpired 26).2 (key 1) ≠ none := by
  intro key inserted c
  have hkept : c.entry? (key 2) =
      Cache.entry? ((new 2 1000).after .string inserted) (key 2) := by decide +kernel
  obtain ⟨hserved, -⟩ := expired_iff_lapsed .string 2 1000 [.insert (key 1) "one" 5]
    [.get (key 1) 7] (key 2) "two" (some (2 ^ 64 + 20)) 6 25 hkept
  obtain ⟨hgone, hpurged, -⟩ := expired_iff_lapsed .string 2 1000 [.insert (key 1) "one" 5]
    [.get (key 1) 7] (key 2) "two" (some (2 ^ 64 + 20)) 6 26 hkept
  rw [if_neg (by decide +kernel)] at hserved
  rw [if_pos (by decide +kernel)] at hgone hpurged
  exact ⟨hserved, hgone, hpurged, by decide +kernel⟩

/-- With a time to live of 2^61 seconds, an entry that has just been put in has not lapsed, but it
is not found and not saved, and a purge drops it. -/
theorem gone_at_insertion :
    let ttl := 1000 * 2 ^ 61
    let k : Digest := Vector.replicate 32 1
    let ops : List (Operation String Unit) := [.insert k "one" 5]
    let c := (new 8 ttl).after .string ops
    ¬ Lapsed ttl 5 5 ∧ c.size = 1 ∧ (c.get k 5).1 = none ∧ (c.save .string 5).1 = 0 ∧
      (c.purgeExpired 5).1 = 1 := by
  decide +kernel

end Cache

end SpokenMath
