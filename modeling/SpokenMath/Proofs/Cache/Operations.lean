import SpokenMath.Proofs.Cache.Snapshot
import SpokenMath.Proofs.Cache.Entries

/-!
# What is asked of a cache

An **operation** is one thing asked of a cache, with the times that the clock shows meanwhile, and
`Cache.perform` gives the **answer** to it and the cache after it. Where a value is computed, the
answer tells as well how often the computation has run: it runs in a state monad that counts its
runs, and the clock shows a later time once it has run.

What is answered depends on the entries, the capacity and the time to live of the cache, and not on
what its counters show (`Cache.perform_uncounted`).
-/

namespace SpokenMath.Cache

/-- What is asked of a cache with values `ν`. Errors `ε` are those of a computation. -/
inductive Operation (ν ε : Type)
  | insert (k : Digest) (v : ν) (now : UInt64)
  | insertWithTtl (k : Digest) (v : ν) (ttl : Nat) (now : UInt64)
  | get (k : Digest) (now : UInt64)
  /-- Get or compute `v`. The clock shows `now` at first and `later` when `v` has been computed. -/
  | compute (k : Digest) (now : UInt64) (v : ν) (later : UInt64)
  /-- The same with a computation that may fail. -/
  | tryCompute (k : Digest) (now : UInt64) (result : Except ε ν) (later : UInt64)
  | remove (k : Digest)
  | clear
  | purge (now : UInt64)
  | save (now : UInt64)
  | load (bytes : List UInt8) (now : UInt64)

/-- What is answered to an operation. -/
inductive Answer (ν ε : Type)
  | done
  | found (v? : Option ν)
  /-- The value, whether it was found, and how often the computation has run. -/
  | computed (answer : ν × Bool) (runs : Nat)
  | tried (answer : Except ε (ν × Bool)) (runs : Nat)
  | purged (count : Nat)
  | saved (count : Nat) (bytes : List UInt8)
  | loaded (result : Except SnapshotError Nat)

/-- A computation with the result `a` that counts its runs. -/
def counted {α : Type} (a : α) : Unit → StateM Nat α := fun _ => do
  modify (· + 1)
  return a

/-- A clock that shows `now` until a computation has run, and `later` from then on. -/
def clockAround (now later : UInt64) : StateM Nat UInt64 :=
  return if (← getThe Nat) = 0 then now else later

variable {ν ε : Type}

/-- The answer to an operation and the cache after it. Snapshots are written with the codec of the
values. -/
def perform (value : Codec ν) (c : Cache Digest ν) :
    Operation ν ε → Answer ν ε × Cache Digest ν
  | .insert k v now => (.done, c.insert k v now)
  | .insertWithTtl k v ttl now => (.done, c.insertWithTtl k v ttl now)
  | .get k now => ((c.get k now).map .found id)
  | .compute k now v later =>
    let ((answer, c), runs) := (c.getOrComputeM k (clockAround now later) (counted v)).run 0
    (.computed answer runs, c)
  | .tryCompute k now result later =>
    let ((answer, c), runs) := (c.getOrTryM k (clockAround now later) (counted result)).run 0
    (.tried answer runs, c)
  | .remove k => ((c.remove k).map .found id)
  | .clear => (.done, c.clear)
  | .purge now => ((c.purgeExpired now).map .purged id)
  | .save now => (.saved (c.save value now).1 (c.save value now).2, c)
  | .load bytes now => ((c.restore value bytes now).map .loaded id)

/-- The answers to operations, one after the other, and the cache after them. -/
def performEach (value : Codec ν) (c : Cache Digest ν) :
    List (Operation ν ε) → List (Answer ν ε) × Cache Digest ν
  | [] => ([], c)
  | op :: ops =>
    let (answer, c) := c.perform value op
    let (answers, c) := c.performEach value ops
    (answer :: answers, c)

/-- The cache after operations. -/
def after (value : Codec ν) (c : Cache Digest ν) (ops : List (Operation ν ε)) : Cache Digest ν :=
  (c.performEach value ops).2

variable {value : Codec ν} {c : Cache Digest ν} {k : Digest} {v w : ν} {now later : UInt64}
  {result : Except ε ν}

/-! ## Computing -/

/-- The clock is read at `now`. What is found is answered without a run of the computation. What is
missed is computed in one run, and then put in at the later time, unless there is an error. -/
theorem run_getOrTryM : (c.getOrTryM k (clockAround now later) (counted result)).run 0 =
    match (c.get k now).1, result with
    | some w, _ => ((.ok (w, true), (c.get k now).2), 0)
    | none, .ok v => ((.ok (v, false), (c.get k now).2.insert k v later), 1)
    | none, .error e => ((.error e, (c.get k now).2), 1) := by
  have hnow : (clockAround now later).run 0 = (pure (now, 0) : Id (UInt64 × Nat)) := rfl
  have hlater : (clockAround now later).run 1 = (pure (later, 1) : Id (UInt64 × Nat)) := rfl
  have hcounted : (counted result ()).run 0 = (pure (result, 1) : Id (Except ε ν × Nat)) := rfl
  rw [getOrTryM, StateT.run_bind, hnow, pure_bind]
  rcases c.get k now with ⟨v | v, c'⟩
  · simp only [StateT.run_bind, hcounted, pure_bind]
    cases result with
    | ok v =>
      simp only [StateT.run_bind, hlater, pure_bind]
      rfl
    | error e => rfl
  · rfl

theorem perform_tryCompute : c.perform value (.tryCompute k now result later) =
    match (c.get k now).1, result with
    | some w, _ => (.tried (.ok (w, true)) 0, (c.get k now).2)
    | none, .ok v => (.tried (.ok (v, false)) 1, (c.get k now).2.insert k v later)
    | none, .error e => (.tried (.error e) 1, (c.get k now).2) := by
  rw [perform, run_getOrTryM]
  cases (c.get k now).1 with
  | none => cases result <;> rfl
  | some w => rfl

theorem perform_compute : c.perform value (.compute k now v later : Operation ν ε) =
    match (c.get k now).1 with
    | some w => (.computed (w, true) 0, (c.get k now).2)
    | none => (.computed (v, false) 1, (c.get k now).2.insert k v later) := by
  have hok : (fun u => do return (.ok (← counted v u) : Except Empty ν)) = counted (.ok v) := rfl
  rw [perform, getOrComputeM, hok, StateT.run_bind, run_getOrTryM]
  cases (c.get k now).1 <;> rfl

/-- The capacity and the time to live stay as they are. -/
theorem limits_perform (c : Cache Digest ν) (op : Operation ν ε) :
    (c.perform value op).2.capacity = c.capacity ∧ (c.perform value op).2.ttl = c.ttl := by
  have hget (k : Digest) (now : UInt64) :
      (c.get k now).2.capacity = c.capacity ∧ (c.get k now).2.ttl = c.ttl :=
    ⟨capacity_get, ttl_get⟩
  cases op with
  | get k now => exact hget k now
  | compute k now v later =>
    rw [perform_compute]
    cases (c.get k now).1 <;> exact hget k now
  | tryCompute k now result later =>
    rw [perform_tryCompute]
    cases (c.get k now).1 with
    | none => cases result <;> exact hget k now
    | some w => exact hget k now
  | load bytes now =>
    simp only [perform, Prod.map, id]
    cases hdecode : Snapshot.decode value bytes with
    | error e => rw [restore_of_error hdecode]; exact ⟨rfl, rfl⟩
    | ok entries => rw [restore_of_decode hdecode]; exact limits_putAll c _
  | _ => exact ⟨rfl, rfl⟩

/-! ## Counters -/

theorem putAll_uncounted (c : Cache Digest ν) (entries : List (Digest × Entry ν)) :
    c.uncounted.putAll entries = (c.putAll entries).uncounted := by
  induction entries generalizing c with
  | nil => rfl
  | cons p entries ih => exact ih (c.put p.1 p.2)

theorem insert_congr_uncounted {c c' : Cache Digest ν} (h : c.uncounted = c'.uncounted)
    (k : Digest) (v : ν) (now : UInt64) :
    (c.insert k v now).uncounted = (c'.insert k v now).uncounted := by
  rw [← insert_uncounted c, h, insert_uncounted]

/-- What is answered and what is held do not depend on the counters. -/
theorem perform_uncounted (value : Codec ν) (c : Cache Digest ν) (op : Operation ν ε) :
    (c.uncounted.perform value op).1 = (c.perform value op).1 ∧
      (c.uncounted.perform value op).2.uncounted = (c.perform value op).2.uncounted := by
  cases op with
  | insert k v now => exact ⟨rfl, rfl⟩
  | insertWithTtl k v ttl now => exact ⟨rfl, rfl⟩
  | get k now =>
    obtain ⟨hfound, hheld⟩ := c.get_uncounted k now
    exact ⟨congrArg Answer.found hfound, hheld⟩
  | compute k now v later =>
    obtain ⟨hfound, hheld⟩ := c.get_uncounted k now
    rw [perform_compute, perform_compute, hfound]
    cases (c.get k now).1 with
    | some w => exact ⟨rfl, hheld⟩
    | none => exact ⟨rfl, insert_congr_uncounted hheld k v later⟩
  | tryCompute k now result later =>
    obtain ⟨hfound, hheld⟩ := c.get_uncounted k now
    rw [perform_tryCompute, perform_tryCompute, hfound]
    cases (c.get k now).1 with
    | some w => exact ⟨rfl, hheld⟩
    | none =>
      cases result with
      | ok v => exact ⟨rfl, insert_congr_uncounted hheld k v later⟩
      | error e => exact ⟨rfl, hheld⟩
  | remove k => exact ⟨rfl, rfl⟩
  | clear => exact ⟨rfl, rfl⟩
  | purge now => exact ⟨rfl, rfl⟩
  | save now => exact ⟨rfl, rfl⟩
  | load bytes now =>
    simp only [perform, restore]
    cases hdecode : Snapshot.decode value bytes with
    | error e => exact ⟨rfl, rfl⟩
    | ok entries =>
      simp only [foldl_put, putAll_uncounted]
      exact ⟨rfl, rfl⟩

/-- Caches that differ in their counters only give the same answers. -/
theorem performEach_congr {c c' : Cache Digest ν} (h : c.uncounted = c'.uncounted)
    (ops : List (Operation ν ε)) :
    (c.performEach value ops).1 = (c'.performEach value ops).1 := by
  induction ops generalizing c c' with
  | nil => rfl
  | cons op ops ih =>
    obtain ⟨hanswer, hheld⟩ := perform_uncounted value c op
    obtain ⟨hanswer', hheld'⟩ := perform_uncounted value c' op
    rw [h] at hanswer hheld
    have htail := ih (hheld.symm.trans hheld')
    simp only [performEach, ← hanswer, ← hanswer', htail]

end SpokenMath.Cache
