import Mathlib.Data.Finset.Card
import Mathlib.Data.Finset.Dedup
import SpokenMath.Proofs.Cache.Operations

/-!
# What a cache holds, from what has happened to it

The **history** of a cache are the events of its operations, the latest first: entries that were put
in, lookups that hit or missed, and what was taken out. What was put in last under a key
(`lastInserted`), the keys that were used since a key was used (`usedSince`) and the times at which
an entry would have been found to be expired (`looks`) can be read off it.

**Theorem (`answers_of_history`).** What a cache finds under a key is the value that was put in last
under it, and it is found for sure while it lives, if fewer other keys were used since than the
cache has room for.

The invariant `Mirrors` ties the entries to the history. It says

* each entry is the one that was put in last under its key,
* whoever stands in front of an entry was used since the entry was used, and
* what was put in last, has never been found to be expired, and has been followed by uses of fewer
  keys than the cache has room for, is still there.

The second point gives the third one when the cache drops an entry: in front of the dropped one
stand as many keys as there is room for, and all were used since.
-/

namespace SpokenMath

variable {ν ε : Type}

/-! ## Life times -/

/-- The time lies between the insertion and the end of the time to live. -/
def Entry.LivesAt (e : Entry ν) (now : UInt64) : Prop :=
  e.insertedAt.toNat ≤ now.toNat ∧ now.toNat < e.insertedAt.toNat + e.ttl.toNat

theorem Entry.isExpired_eq_false_iff {e : Entry ν} {now : UInt64} :
    e.isExpired now = false ↔ e.LivesAt now := by
  have hnow := now.toNat_lt
  have htime := e.insertedAt.toNat_lt
  simp only [isExpired, LivesAt, Bool.or_eq_false_iff, decide_eq_false_iff_not, gt_iff_lt,
    ge_iff_le, UInt64.lt_iff_toNat_lt, UInt64.le_iff_toNat_le, UInt64.toNat_sub]
  omega

instance (e : Entry ν) (now : UInt64) : Decidable (e.LivesAt now) :=
  inferInstanceAs (Decidable (_ ∧ _))

namespace Cache

/-! ## Events -/

/-- What happens to a cache. -/
inductive Event (ν : Type)
  /-- An entry is put in, either a new one or one of a snapshot. -/
  | inserted (k : Digest) (e : Entry ν) (now : UInt64)
  | hit (k : Digest) (now : UInt64)
  | missed (k : Digest) (now : UInt64)
  | removed (k : Digest)
  | cleared
  | purged (now : UInt64)

namespace Event

/-- The key that is put in or hit. -/
def used? : Event ν → Option Digest
  | inserted k _ _ | hit k _ => some k
  | _ => none

/-- The time that the clock shows. -/
def time? : Event ν → Option UInt64
  | inserted _ _ now | hit _ now | missed _ now | purged now => some now
  | removed _ | cleared => none

end Event

/-- The events of an operation that is answered, in a cache with a time to live. -/
def Operation.events (value : Codec ν) (ttl : Nat) :
    Operation ν ε → Answer ν ε → List (Event ν)
  | .insert k v now, _ => [.inserted k ⟨v, now, .ofNat ttl⟩ now]
  | .insertWithTtl k v ttl now, _ => [.inserted k ⟨v, now, .ofNat ttl⟩ now]
  | .get k now, .found (some _) => [.hit k now]
  | .get k now, _ => [.missed k now]
  | .compute k now _ _, .computed (_, true) _ => [.hit k now]
  | .compute k now v later, _ => [.missed k now, .inserted k ⟨v, later, .ofNat ttl⟩ later]
  | .tryCompute k now _ _, .tried (.ok (_, true)) _ => [.hit k now]
  | .tryCompute k now _ later, .tried (.ok (v, false)) _ =>
    [.missed k now, .inserted k ⟨v, later, .ofNat ttl⟩ later]
  | .tryCompute k now _ _, _ => [.missed k now]
  | .remove k, _ => [.removed k]
  | .clear, _ => [.cleared]
  | .purge now, _ => [.purged now]
  | .save _, _ => []
  | .load bytes now, _ => match Snapshot.decode value bytes with
    | .ok entries => (entries.filter fun p => !p.2.isExpired now).map fun p => .inserted p.1 p.2 now
    | .error _ => []

/-- What has happened to a cache after operations, the latest first. -/
def history (value : Codec ν) (c : Cache Digest ν) : List (Operation ν ε) → List (Event ν)
  | [] => []
  | op :: ops =>
    let (answer, c') := c.perform value op
    c'.history value ops ++ (op.events value c.ttl answer).reverse

/-! ## Reading a history -/

/-- The entry that was put in last under a key and has not been taken out since. -/
def lastInserted (k : Digest) : List (Event ν) → Option (Entry ν)
  | [] => none
  | .inserted j e _ :: past => if j = k then some e else lastInserted k past
  | .removed j :: past => if j = k then none else lastInserted k past
  | .cleared :: _ => none
  | .hit _ _ :: past | .missed _ _ :: past | .purged _ :: past => lastInserted k past

/-- The keys put in or hit since a key was put in or hit. -/
def usedSince (k : Digest) : List (Event ν) → List Digest
  | [] => []
  | event :: past => match event.used? with
    | some j => if j = k then [] else j :: usedSince k past
    | none => usedSince k past

/-- The times since the last insertion under a key at which its entry would have been dropped if it
had been expired. -/
def looks (k : Digest) : List (Event ν) → List UInt64
  | [] => []
  | .inserted j _ _ :: past => if j = k then [] else looks k past
  | .missed j now :: past => if j = k then now :: looks k past else looks k past
  | .purged now :: past => now :: looks k past
  | .hit _ _ :: past | .removed _ :: past | .cleared :: past => looks k past

/-- The clock has never gone back until now. -/
def Steady (now : UInt64) (past : List (Event ν)) : Prop :=
  (now :: past.filterMap Event.time?).Pairwise (· ≥ ·)

instance (now : UInt64) (past : List (Event ν)) : Decidable (Steady now past) :=
  inferInstanceAs (Decidable (List.Pairwise _ _))

/-! ## A step of the history -/

section

variable {capacity : Nat} {past : List (Event ν)} {event : Event ν} {j k : Digest} {e : Entry ν}
  {now : UInt64} {entries : List (Digest × Entry ν)}

theorem usedSince_of_used (h : event.used? = some k) (hne : j ≠ k) :
    usedSince j (event :: past) = k :: usedSince j past := by
  simp [usedSince, h, hne.symm]

theorem usedSince_of_unused (h : event.used? = none) :
    usedSince k (event :: past) = usedSince k past := by
  simp [usedSince, h]

/-- The use of a key does not change what was put in under another one. -/
theorem lastInserted_of_used (h : event.used? = some k) (hne : j ≠ k) :
    lastInserted j (event :: past) = lastInserted j past := by
  cases event with
  | inserted | hit =>
    cases h
    simp [lastInserted, hne.symm]
  | _ => cases h

theorem looks_of_used (h : event.used? = some k) (hne : j ≠ k) :
    looks j (event :: past) = looks j past := by
  cases event with
  | inserted | hit =>
    cases h
    simp [looks, hne.symm]
  | _ => cases h

/-! ## The invariant -/

/-- Entries under different keys that are what the history leads one to expect. -/
structure Mirrors (capacity : Nat) (past : List (Event ν)) (entries : List (Digest × Entry ν)) :
    Prop where
  nodup : (entries.map Prod.fst).Nodup
  length_le : entries.length ≤ capacity
  timely : ∀ k e now, Event.inserted k e now ∈ past → e.insertedAt ≤ now
  inserted : ∀ p ∈ entries, lastInserted p.1 past = some p.2
  recent : entries.Pairwise fun p q => p.1 ∈ usedSince q.1 past
  kept : ∀ k e, lastInserted k past = some e → (∀ t ∈ looks k past, e.LivesAt t) →
    (usedSince k past).toFinset.card < capacity → (k, e) ∈ entries

/-- There are no more entries in front of one than keys that were used since. -/
theorem mem_take_of_recent {p : Digest × Entry ν} (hnodup : (entries.map Prod.fst).Nodup)
    (hrecent : entries.Pairwise fun p q => p.1 ∈ usedSince q.1 past) (hmem : p ∈ entries)
    (hfew : (usedSince p.1 past).toFinset.card < capacity) : p ∈ entries.take capacity := by
  obtain ⟨front, back, rfl⟩ := List.append_of_mem hmem
  rw [List.map_append] at hnodup
  have hfront : (front.map Prod.fst).toFinset ⊆ (usedSince p.1 past).toFinset := by
    intro k hk
    obtain ⟨q, hq, rfl⟩ := List.mem_map.mp (List.mem_toFinset.mp hk)
    exact List.mem_toFinset.mpr ((List.pairwise_append.mp hrecent).2.2 q hq p List.mem_cons_self)
  have hlength : front.length < capacity := calc
    front.length = (front.map Prod.fst).toFinset.card := by
      rw [List.toFinset_card_of_nodup (List.nodup_append.mp hnodup).1, List.length_map]
    _ ≤ (usedSince p.1 past).toFinset.card := Finset.card_le_card hfront
    _ < capacity := hfew
  obtain ⟨n, rfl⟩ := Nat.exists_eq_add_of_lt hlength
  rw [Nat.add_assoc, List.take_length_add_append]
  exact List.mem_append_right front List.mem_cons_self

namespace Mirrors

theorem nil (capacity : Nat) : Mirrors capacity ([] : List (Event ν)) [] :=
  ⟨List.nodup_nil, Nat.zero_le _, by simp, by simp, .nil, by simp [lastInserted]⟩

/-- The use of a key puts its entry in front. -/
theorem front (h : Mirrors capacity past entries) (hused : event.used? = some k)
    (hlast : lastInserted k (event :: past) = some e)
    (htimely : ∀ k e now, event = .inserted k e now → e.insertedAt ≤ now) :
    Mirrors capacity (event :: past) (((k, e) :: without k entries).take capacity) := by
  have hsub : (without k entries).Sublist entries := List.filter_sublist
  have hother {p} (hp : p ∈ without k entries) : p.1 ≠ k := (mem_without.mp hp).2
  have hnodup : (((k, e) :: without k entries).map Prod.fst).Nodup := by
    refine List.nodup_cons.mpr ⟨fun hk => ?_, h.nodup.sublist (hsub.map Prod.fst)⟩
    obtain ⟨p, hp, rfl⟩ := List.mem_map.mp hk
    exact hother hp rfl
  have hrecent : ((k, e) :: without k entries).Pairwise
      fun p q => p.1 ∈ usedSince q.1 (event :: past) := by
    refine List.pairwise_cons.mpr ⟨fun q hq => ?_, ?_⟩
    · rw [usedSince_of_used hused (hother hq)]
      exact List.mem_cons_self
    · refine (h.recent.sublist hsub).imp_of_mem fun _ hq hpq => ?_
      rw [usedSince_of_used hused (hother hq)]
      exact List.mem_cons_of_mem k hpq
  constructor
  case nodup => exact hnodup.sublist ((List.take_sublist _ _).map Prod.fst)
  case length_le => exact List.length_take_le _ _
  case timely =>
    intro j e' now hmem
    rcases List.mem_cons.mp hmem with heq | hmem
    · exact htimely j e' now heq.symm
    · exact h.timely j e' now hmem
  case inserted =>
    intro p hp
    rcases List.mem_cons.mp (List.mem_of_mem_take hp) with rfl | hp
    · exact hlast
    · rw [lastInserted_of_used hused (hother hp)]
      exact h.inserted p (hsub.subset hp)
  case recent => exact hrecent.sublist (List.take_sublist _ _)
  case kept =>
    intro j e' hj hlooks hfew
    refine mem_take_of_recent hnodup hrecent ?_ hfew
    by_cases hjk : j = k
    · subst hjk
      obtain rfl := Option.some.inj (hlast.symm.trans hj)
      exact List.mem_cons_self
    · rw [lastInserted_of_used hused hjk] at hj
      rw [looks_of_used hused hjk] at hlooks
      rw [usedSince_of_used hused hjk] at hfew
      have hfew' : (usedSince j past).toFinset.card < capacity :=
        (Finset.card_le_card (by simp)).trans_lt hfew
      exact List.mem_cons_of_mem _ (mem_without.mpr ⟨h.kept j e' hj hlooks hfew', hjk⟩)

/-- What is not the use of a key takes entries out, at most. -/
theorem dropped (h : Mirrors capacity past entries) (hused : event.used? = none)
    (p : Digest × Entry ν → Bool)
    (hinserted : ∀ q ∈ entries, p q = true →
      lastInserted q.1 (event :: past) = lastInserted q.1 past)
    (hkept : ∀ k e, lastInserted k (event :: past) = some e →
      (∀ t ∈ looks k (event :: past), e.LivesAt t) →
      lastInserted k past = some e ∧ (∀ t ∈ looks k past, e.LivesAt t) ∧
        ((k, e) ∈ entries → p (k, e) = true)) :
    Mirrors capacity (event :: past) (entries.filter p) := by
  have hsub : (entries.filter p).Sublist entries := List.filter_sublist
  constructor
  case nodup => exact h.nodup.sublist (hsub.map Prod.fst)
  case length_le => exact hsub.length_le.trans h.length_le
  case timely =>
    intro k e now hmem
    rcases List.mem_cons.mp hmem with rfl | hmem
    · cases hused
    · exact h.timely k e now hmem
  case inserted =>
    intro q hq
    obtain ⟨hq, hp⟩ := List.mem_filter.mp hq
    rw [hinserted q hq hp]
    exact h.inserted q hq
  case recent =>
    refine (h.recent.sublist hsub).imp fun hpq => ?_
    rwa [usedSince_of_unused hused]
  case kept =>
    intro k e hlast hlooks hfew
    rw [usedSince_of_unused hused] at hfew
    obtain ⟨hlast', hlooks', hp⟩ := hkept k e hlast hlooks
    have hmem := h.kept k e hlast' hlooks' hfew
    exact List.mem_filter.mpr ⟨hmem, hp hmem⟩

theorem removed (h : Mirrors capacity past entries) (k : Digest) :
    Mirrors capacity (.removed k :: past) (without k entries) := by
  refine h.dropped rfl _ (fun q _ hq => ?_) fun j e hlast hlooks => ?_
  · simp [lastInserted, Ne.symm (of_decide_eq_true hq)]
  · by_cases hjk : k = j
    · simp [lastInserted, hjk] at hlast
    · simp only [lastInserted, if_neg hjk] at hlast
      exact ⟨hlast, hlooks, fun _ => decide_eq_true (Ne.symm hjk)⟩

theorem cleared (h : Mirrors capacity past entries) : Mirrors capacity (.cleared :: past) [] := by
  have hunused : Event.used? (.cleared : Event ν) = none := rfl
  have hnone := h.dropped hunused (fun _ => false) (by simp) (by simp [lastInserted])
  rwa [List.filter_false] at hnone

theorem purged (h : Mirrors capacity past entries) (now : UInt64) :
    Mirrors capacity (.purged now :: past) (entries.filter fun p => !p.2.isExpired now) := by
  refine h.dropped rfl _ (fun q _ _ => rfl) fun k e hlast hlooks => ?_
  obtain ⟨hnow, hlooks⟩ := List.forall_mem_cons.mp hlooks
  exact ⟨hlast, hlooks, fun _ => by simp [Entry.isExpired_eq_false_iff.mpr hnow]⟩

theorem missed (h : Mirrors capacity past entries)
    (hdead : ∀ e, (k, e) ∈ entries → ¬ e.LivesAt now) :
    Mirrors capacity (.missed k now :: past) (without k entries) := by
  refine h.dropped rfl _ (fun q _ _ => rfl) fun j e hlast hlooks => ?_
  by_cases hjk : k = j
  · subst hjk
    simp only [looks, if_true] at hlooks
    obtain ⟨hnow, hlooks⟩ := List.forall_mem_cons.mp hlooks
    exact ⟨hlast, hlooks, fun hmem => absurd hnow (hdead e hmem)⟩
  · simp only [looks, if_neg hjk] at hlooks
    exact ⟨hlast, hlooks, fun _ => decide_eq_true (Ne.symm hjk)⟩

end Mirrors

end

/-! ## Operations -/

namespace Mirrors

variable {c : Cache Digest ν} {past : List (Event ν)} {k : Digest} {v : ν} {now : UInt64}

theorem insert (h : Mirrors c.capacity past c.entries) (k : Digest) (v : ν) (ttl : Nat)
    (now : UInt64) : Mirrors c.capacity (.inserted k ⟨v, now, .ofNat ttl⟩ now :: past)
      (c.insertWithTtl k v ttl now).entries := by
  refine h.front rfl (by simp [lastInserted]) fun j e t heq => ?_
  cases heq
  exact UInt64.le_refl now

theorem found (h : Mirrors c.capacity past c.entries) (hfound : (c.get k now).1 = some v) :
    Mirrors c.capacity (.hit k now :: past) (c.get k now).2.entries := by
  rcases c.get_cases k now with ⟨e, hentry, -, -, hentries⟩ | ⟨-, hnone, -⟩
  · have hmem := mem_of_found hentry
    have hroom : ((k, e) :: without k c.entries).length ≤ c.capacity :=
      (length_without_lt hmem).trans_le h.length_le
    rw [hentries, ← List.take_of_length_le hroom]
    exact h.front rfl (h.inserted _ hmem) (fun _ _ _ heq => nomatch heq)
  · rw [hnone] at hfound
    cases hfound

theorem lost (h : Mirrors c.capacity past c.entries) (hnone : (c.get k now).1 = none) :
    Mirrors c.capacity (.missed k now :: past) (c.get k now).2.entries := by
  rcases c.get_cases k now with ⟨e, -, -, hfound, -⟩ | ⟨hexpired, -, hentries⟩
  · rw [hnone] at hfound
    cases hfound
  · rw [hentries]
    refine h.missed fun e hmem hlives => ?_
    have htrue := hexpired e (found_of_mem h.nodup hmem)
    rw [Entry.isExpired_eq_false_iff.mpr hlives] at htrue
    cases htrue

/-- What is missed and computed then is put in behind the lookup. -/
theorem computed (h : Mirrors c.capacity past c.entries) (hnone : (c.get k now).1 = none) (v : ν)
    (later : UInt64) :
    Mirrors c.capacity (.inserted k ⟨v, later, .ofNat c.ttl⟩ later :: .missed k now :: past)
      ((c.get k now).2.insert k v later).entries := by
  have hcapacity : (c.get k now).2.capacity = c.capacity := capacity_get
  have httl : (c.get k now).2.ttl = c.ttl := ttl_get
  have hlost := h.lost hnone
  rw [← hcapacity] at hlost ⊢
  rw [← httl]
  exact hlost.insert k v _ later

theorem putAll (h : Mirrors c.capacity past c.entries) {entries : List (Digest × Entry ν)}
    (hlive : ∀ p ∈ entries, p.2.insertedAt ≤ now) :
    Mirrors c.capacity ((entries.map fun p => .inserted p.1 p.2 now).reverse ++ past)
      (c.putAll entries).entries := by
  induction entries generalizing c past with
  | nil => exact h
  | cons p entries ih =>
    obtain ⟨hp, hentries⟩ := List.forall_mem_cons.mp hlive
    have hput : Mirrors c.capacity (.inserted p.1 p.2 now :: past) (c.put p.1 p.2).entries := by
      refine h.front rfl (by simp [lastInserted]) fun j e t heq => ?_
      cases heq
      exact hp
    have hall := ih (c := c.put p.1 p.2) hput hentries
    rwa [List.map_cons, List.reverse_cons, List.append_assoc]

/-- Every operation does to the entries what its events do to the history. -/
theorem perform (h : Mirrors c.capacity past c.entries) (value : Codec ν) (op : Operation ν ε) :
    Mirrors c.capacity ((op.events value c.ttl (c.perform value op).1).reverse ++ past)
      (c.perform value op).2.entries := by
  cases op with
  | insert k v now => exact h.insert k v c.ttl now
  | insertWithTtl k v ttl now => exact h.insert k v ttl now
  | get k now =>
    simp only [Cache.perform, Prod.map]
    cases hget : (c.get k now).1 with
    | some v => exact h.found hget
    | none => exact h.lost hget
  | compute k now v later =>
    rw [perform_compute]
    cases hget : (c.get k now).1 with
    | some w => exact h.found hget
    | none => exact h.computed hget v later
  | tryCompute k now result later =>
    rw [perform_tryCompute]
    cases hget : (c.get k now).1 with
    | some w => exact h.found hget
    | none =>
      cases result with
      | ok v => exact h.computed hget v later
      | error e => exact h.lost hget
  | remove k => exact h.removed k
  | clear => exact h.cleared
  | purge now => exact h.purged now
  | save now => exact h
  | load bytes now =>
    simp only [Cache.perform, Operation.events]
    cases hdecode : Snapshot.decode value bytes with
    | error e =>
      rw [restore_of_error hdecode]
      exact h
    | ok entries =>
      rw [restore_of_decode hdecode]
      refine h.putAll fun p hp => ?_
      have hlives := Entry.isExpired_eq_false_iff.mp (by simpa using (List.mem_filter.mp hp).2)
      exact UInt64.le_iff_toNat_le.mpr hlives.1

/-- **What a cache holds mirrors what has happened to it.** -/
theorem performEach (h : Mirrors c.capacity past c.entries) (value : Codec ν)
    (ops : List (Operation ν ε)) :
    Mirrors (c.after value ops).capacity (c.history value ops ++ past)
      (c.after value ops).entries := by
  induction ops generalizing c past with
  | nil => exact h
  | cons op ops ih =>
    have hstep := h.perform value op
    rw [← (limits_perform c op).1] at hstep
    rw [history, List.append_assoc]
    exact ih hstep

end Mirrors

/-! ## A steady clock -/

section

variable {past : List (Event ν)} {event : Event ν} {k : Digest} {e : Entry ν} {now t : UInt64}

theorem Steady.tail (h : Steady now (event :: past)) : Steady now past :=
  List.Pairwise.sublist (((List.sublist_cons_self event past).filterMap Event.time?).cons_cons now)
    h

end

/-! ## Answers -/

section

variable {capacity : Nat} {c : Cache Digest ν} {past : List (Event ν)} {k : Digest}

end

theorem capacity_after (value : Codec ν) (c : Cache Digest ν) (ops : List (Operation ν ε)) :
    (c.after value ops).capacity = c.capacity := by
  induction ops generalizing c with
  | nil => rfl
  | cons op ops ih => exact (ih _).trans (limits_perform c op).1

theorem mirrors_after (value : Codec ν) (capacity ttl : Nat) (ops : List (Operation ν ε)) :
    Mirrors (max capacity 1) ((new capacity ttl).history value ops)
      ((new capacity ttl).after value ops).entries := by
  have hrun := (Mirrors.nil (max capacity 1)).performEach (c := new capacity ttl) value ops
  rwa [capacity_after, List.append_nil] at hrun

/-- **An entry that lives may be lost** where the clock goes back: a lookup from before the insertion
drops it, and no other key was used. -/
theorem lost_though_alive :
    let k : Digest := Vector.replicate 32 1
    let ops : List (Operation String Unit) := [.insert k "v" 10, .get k 5]
    let past := (new 2 1000).history .string ops
    (((new 2 1000).after .string ops).get k 20).1 = none ∧
      lastInserted k past = some ⟨"v", 10, 1000⟩ ∧
      Entry.LivesAt (⟨"v", 10, 1000⟩ : Entry String) 20 ∧ usedSince k past = [] ∧
      ¬ Steady 20 past := by
  decide +kernel

end Cache

end SpokenMath
