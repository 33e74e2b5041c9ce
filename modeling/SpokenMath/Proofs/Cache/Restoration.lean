import SpokenMath.Proofs.Cache.History

/-!
# Restoring a cache from its snapshot

**Theorem (`restore_save`).** A new cache into which the snapshot of a cache is loaded holds the
most recent of the entries that had not expired, as many as it has room for, in their order. If it
has as much room as the saved cache and nothing had expired, it answers everything in the same way.

A snapshot lists the entries from the back to the front. Each entry that is put in comes to stand in
front of the ones before it, which restores the order, and the least recent ones are the first to be
dropped when there is less room (`entries_putAll_reverse`).
-/

namespace SpokenMath

namespace Cache

variable {ν ε : Type} {value : Codec ν} {entries : List (Digest × Entry ν)}

/-! ## Putting entries in from the back to the front -/

theorem without_eq_self {k : Digest} (h : k ∉ entries.map Prod.fst) :
    without k entries = entries := by
  refine List.filter_eq_self.mpr fun p hp => decide_eq_true fun hpk => ?_
  exact h (hpk ▸ List.mem_map_of_mem hp)

/-- What is put into a new cache from the back to the front is there in its order, as far as there
is room for it. -/
theorem entries_putAll_reverse (capacity ttl : Nat) (hnodup : (entries.map Prod.fst).Nodup) :
    ((new capacity ttl : Cache Digest ν).putAll entries.reverse).entries =
      entries.take (max capacity 1) := by
  induction entries with
  | nil => simp [putAll, new]
  | cons p entries ih =>
    rw [List.map_cons, List.nodup_cons] at hnodup
    obtain ⟨hfresh, hnodup⟩ := hnodup
    have hbefore := ih hnodup
    have hcapacity := (limits_putAll (new capacity ttl) entries.reverse).1
    have hputAll : (new capacity ttl : Cache Digest ν).putAll (p :: entries).reverse =
        ((new capacity ttl).putAll entries.reverse).put p.1 p.2 := by
      simp [putAll]
    have hwithout : without p.1 (entries.take (max capacity 1)) = entries.take (max capacity 1) :=
      without_eq_self fun hmem => hfresh (((List.take_sublist _ _).map Prod.fst).subset hmem)
    rw [hputAll, put, hbefore, hwithout, hcapacity]
    obtain ⟨n, hn⟩ : ∃ n, max capacity 1 = n + 1 := ⟨max capacity 1 - 1, by omega⟩
    simp only [new, hn, List.take_succ_cons, List.take_take]
    rw [Nat.min_eq_left (Nat.le_succ n)]

/-! ## Saving and restoring -/

/-- The entries that live at a time. -/
def livingEntries (c : Cache Digest ν) (now : UInt64) : List (Digest × Entry ν) :=
  c.entries.filter fun p => p.2.LivesAt now

theorem liveEntries_eq (c : Cache Digest ν) (now : UInt64) :
    c.liveEntries now = (c.livingEntries now).reverse := by
  have hlives : (fun p : Digest × Entry ν => !p.2.isExpired now) =
      fun p => decide (p.2.LivesAt now) := by
    funext p
    rw [Bool.eq_iff_iff, decide_eq_true_iff, ← Entry.isExpired_eq_false_iff, Bool.not_eq_true']
  rw [livingEntries, ← hlives]
  exact List.filter_reverse

theorem decode_save {c : Cache Digest ν} {saved : UInt64} (hsize : c.size < UInt64.size)
    (hvalue : ∀ p ∈ c.entries, value.ReadsBack p.2.value) :
    Snapshot.decode value (c.save value saved).2 = .ok (c.livingEntries saved).reverse := by
  have hliving : (c.livingEntries saved).Sublist c.entries := List.filter_sublist
  have hvalue' : ∀ p ∈ (c.livingEntries saved).reverse, value.ReadsBack p.2.value :=
    fun p hp => hvalue p (hliving.subset (List.mem_reverse.mp hp))
  have hlength : (c.livingEntries saved).reverse.length < UInt64.size := by
    rw [List.length_reverse]
    exact hliving.length_le.trans_lt hsize
  have hread := Snapshot.decode_encode_append hvalue' hlength []
  rwa [save, liveEntries_eq, ← List.append_nil (Snapshot.encode _ _)]

/-- While nothing expires, everything that was saved is put in. -/
theorem restore_save_eq {c target : Cache Digest ν} {saved loaded : UInt64}
    (hsize : c.size < UInt64.size) (hvalue : ∀ p ∈ c.entries, value.ReadsBack p.2.value)
    (htime : ∀ p ∈ c.entries, p.2.LivesAt saved → p.2.LivesAt loaded) :
    target.restore value (c.save value saved).2 loaded =
      (.ok (c.livingEntries saved).length, target.putAll (c.livingEntries saved).reverse) := by
  have hall : (c.livingEntries saved).reverse.filter (fun p => !p.2.isExpired loaded) =
      (c.livingEntries saved).reverse := by
    refine List.filter_eq_self.mpr fun p hp => ?_
    obtain ⟨hmem, hlives⟩ := List.mem_filter.mp (List.mem_reverse.mp hp)
    have hlater := htime p hmem (of_decide_eq_true hlives)
    rw [Entry.isExpired_eq_false_iff.mpr hlater, Bool.not_false]
  rw [restore_of_decode (decode_save hsize hvalue), hall, List.length_reverse]

theorem ttl_after (value : Codec ν) (c : Cache Digest ν) (ops : List (Operation ν ε)) :
    (c.after value ops).ttl = c.ttl := by
  induction ops generalizing c with
  | nil => rfl
  | cons op ops ih => exact (ih _).trans (limits_perform c op).2

/-- **A new cache that loads the snapshot of a cache holds what the cache held.** The cache has been
through any operations. It is saved at one time and loaded into a new cache at another one, and no
entry expires between the two. Then the entries that had not expired when they were saved are in the
new cache, with their values and their times and in their order, as far as the new cache has room
for them. Saving changes nothing. If the two caches have the same capacity and nothing had expired,
then the new cache answers any later operations as the saved one does; if its time to live for new
entries is another one, it answers as the saved one with that time to live. -/
theorem restore_save (value : Codec ν) (capacity ttl capacity' ttl' : Nat)
    (ops : List (Operation ν ε)) (saved loaded : UInt64)
    (hsize : ((new capacity ttl).after value ops).size < UInt64.size)
    (hvalue : ∀ p ∈ ((new capacity ttl).after value ops).entries, value.ReadsBack p.2.value)
    (htime : ∀ p ∈ ((new capacity ttl).after value ops).entries,
      p.2.LivesAt saved → p.2.LivesAt loaded) :
    let c := (new capacity ttl).after value ops
    let living := c.livingEntries saved
    let restoration := (new capacity' ttl').restore value (c.save value saved).2 loaded
    (c.save value saved).1 = living.length ∧
      (c.perform value (.save saved : Operation ν ε)).2 = c ∧
      restoration.1 = .ok living.length ∧
      restoration.2.entries = living.take (max capacity' 1) ∧
      (max capacity' 1 = max capacity 1 → living = c.entries →
        ∀ later : List (Operation ν ε),
          (restoration.2.performEach value later).1 =
            ({ c with ttl := ttl' }.performEach value later).1 ∧
          (ttl' = ttl →
            (restoration.2.performEach value later).1 = (c.performEach value later).1)) := by
  intro c living restoration
  have hmirrors := mirrors_after value capacity ttl ops
  have hcapacity : c.capacity = max capacity 1 := capacity_after value _ ops
  have httl : c.ttl = ttl := ttl_after value _ ops
  have hrestoration : restoration =
      (.ok living.length, (new capacity' ttl').putAll living.reverse) :=
    restore_save_eq hsize hvalue htime
  have hnodup : (living.map Prod.fst).Nodup :=
    hmirrors.nodup.sublist (List.filter_sublist.map Prod.fst)
  have hentries : restoration.2.entries = living.take (max capacity' 1) := by
    rw [hrestoration]
    exact entries_putAll_reverse capacity' ttl' hnodup
  refine ⟨?_, rfl, congrArg Prod.fst hrestoration, hentries, fun hsame hall later => ?_⟩
  · rw [save, liveEntries_eq, List.length_reverse]
  · -- Nothing is dropped, so the caches differ in their counters only.
    have hroom : c.entries.length ≤ max capacity' 1 := hsame ▸ hmirrors.length_le
    have hlimits := limits_putAll (new capacity' ttl' : Cache Digest ν) living.reverse
    rw [hall, List.take_of_length_le hroom] at hentries
    rw [hrestoration] at hentries ⊢
    have halike : ((new capacity' ttl').putAll living.reverse).uncounted =
        { c with ttl := ttl' }.uncounted :=
      uncounted_congr (hlimits.1.trans (hsame.trans hcapacity.symm)) hlimits.2 hentries
    refine ⟨performEach_congr halike later, fun heq => ?_⟩
    rw [performEach_congr halike later, heq, ← httl]

theorem restore_save_two_entries :
    let key (n : UInt8) : Digest := Vector.replicate 32 n
    let ops : List (Operation String Unit) :=
      [.insert (key 1) "one" 5, .insert (key 2) "two" 6, .get (key 1) 7]
    let c := (new 2 1000).after .string ops
    let restoration := (new 2 1000).restore .string (c.save .string 10).2 20
    restoration.1 = .ok 2 ∧ restoration.2.entries = c.entries ∧
      ∀ later : List (Operation String Unit),
        (restoration.2.performEach .string later).1 = (c.performEach .string later).1 := by
  intro key ops c restoration
  have hlengths : ∀ p ∈ c.entries, (nameBytes p.2.value).length < UInt64.size := by decide +kernel
  obtain ⟨-, -, hanswer, hentries, hlater⟩ := restore_save .string 2 1000 2 1000 ops 10 20
    (by decide +kernel) (fun p hp => Codec.readsBack_string (hlengths p hp)) (by decide +kernel)
  have hliving : c.livingEntries 10 = c.entries := by decide +kernel
  have hroom : c.entries.length = 2 := by decide +kernel
  rw [hliving] at hanswer hentries
  rw [hroom] at hanswer
  rw [List.take_of_length_le (hroom.le.trans (Nat.le_max_left 2 1))] at hentries
  exact ⟨hanswer, hentries, fun later => (hlater rfl hliving later).2 rfl⟩

end Cache

end SpokenMath
