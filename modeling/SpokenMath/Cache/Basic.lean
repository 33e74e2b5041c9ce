/-!
# A cache with least-recent eviction and times to live

The entries stand in the order of their last use, the most recent one first, and no key twice. A
**lookup** of a key makes its entry the most recent one. An entry whose time to live has run out is
dropped when it is looked up and takes up room until then. Putting an entry into a full cache drops
the least recent one.

Times are milliseconds in words of 64 bits. The clock is read by the caller.
-/

namespace SpokenMath

/-- A value with the time at which it was put in and the time it may live. -/
structure Entry (ν : Type) where
  value : ν
  insertedAt : UInt64
  ttl : UInt64
  deriving DecidableEq, Repr

namespace Entry

variable {ν : Type}

/-- The time to live has run out, or the clock stands before the insertion. -/
def isExpired (e : Entry ν) (now : UInt64) : Bool :=
  e.insertedAt > now || now - e.insertedAt ≥ e.ttl

end Entry

/-- What has happened to a cache so far. -/
structure Counters where
  hits : Nat := 0
  misses : Nat := 0
  insertions : Nat := 0
  expirations : Nat := 0
  deriving DecidableEq, Repr

/-- The share of lookups that found something. -/
def Counters.hitRate (c : Counters) : Float :=
  if c.hits + c.misses = 0 then 0 else c.hits.toFloat / (c.hits + c.misses).toFloat

/-- A cache of values `ν` under keys `κ`. -/
structure Cache (κ ν : Type) where
  /-- The most entries at a time. -/
  capacity : Nat
  /-- The time to live of an entry, in milliseconds, where none is given. -/
  ttl : Nat
  /-- The entries, the most recently used one first. -/
  entries : List (κ × Entry ν) := []
  counters : Counters := {}

namespace Cache

variable {κ ν ε : Type} [DecidableEq κ]

/-- An empty cache. It has room for one entry at least. -/
def new (capacity ttl : Nat) : Cache κ ν := { capacity := max capacity 1, ttl }

/-- The number of entries, expired ones included. -/
def size (c : Cache κ ν) : Nat := c.entries.length

/-- The entry under a key. -/
def entry? (c : Cache κ ν) (k : κ) : Option (Entry ν) := c.entries.lookup k

/-- The entries without the one under `k`. -/
def without (k : κ) (entries : List (κ × Entry ν)) : List (κ × Entry ν) :=
  entries.filter fun (j, _) => j ≠ k

/-- Looks a key up. -/
def get (c : Cache κ ν) (k : κ) (now : UInt64) : Option ν × Cache κ ν :=
  match c.entry? k with
  | some e =>
    if e.isExpired now then
      (none, { c with
        entries := without k c.entries
        counters := { c.counters with
          misses := c.counters.misses + 1
          expirations := c.counters.expirations + 1 } })
    else
      (some e.value, { c with
        entries := (k, e) :: without k c.entries
        counters := { c.counters with hits := c.counters.hits + 1 } })
  | none => (none, { c with counters := { c.counters with misses := c.counters.misses + 1 } })

/-- Puts an entry in as the most recent one. -/
def put (c : Cache κ ν) (k : κ) (e : Entry ν) : Cache κ ν :=
  { c with entries := ((k, e) :: without k c.entries).take c.capacity }

/-- Puts a value in with a time to live in milliseconds, of which a word is kept. -/
def insertWithTtl (c : Cache κ ν) (k : κ) (value : ν) (ttl : Nat) (now : UInt64) : Cache κ ν :=
  let c := c.put k ⟨value, now, .ofNat ttl⟩
  { c with counters := { c.counters with insertions := c.counters.insertions + 1 } }

/-- Puts a value in. -/
def insert (c : Cache κ ν) (k : κ) (value : ν) (now : UInt64) : Cache κ ν :=
  c.insertWithTtl k value c.ttl now

/-- The value under a key, or else the computed one, which is put in unless the computation fails.
The flag tells whether the lookup found it. Time passes while the value is computed, so the clock is
read once for the lookup and once more for what is put in. -/
def getOrTryM {m : Type → Type} [Monad m] (c : Cache κ ν) (k : κ) (clock : m UInt64)
    (compute : Unit → m (Except ε ν)) : m (Except ε (ν × Bool) × Cache κ ν) := do
  match c.get k (← clock) with
  | (some value, c) => return (.ok (value, true), c)
  | (none, c) =>
    match ← compute () with
    | .ok value => return (.ok (value, false), c.insert k value (← clock))
    | .error e => return (.error e, c)

/-- The same with a computation that cannot fail. -/
def getOrComputeM {m : Type → Type} [Monad m] (c : Cache κ ν) (k : κ) (clock : m UInt64)
    (compute : Unit → m ν) : m ((ν × Bool) × Cache κ ν) := do
  match ← c.getOrTryM k clock fun u => do return (.ok (← compute u) : Except Empty ν) with
  | (.ok answer, c) => return (answer, c)

/-- A value that may fail to be computed, where nothing else happens and no time passes. -/
def getOrTry (c : Cache κ ν) (k : κ) (now : UInt64) (compute : Unit → Except ε ν) :
    Except ε (ν × Bool) × Cache κ ν :=
  Id.run (c.getOrTryM k (pure now) fun u => pure (compute u))

/-- A value that is computed, where nothing else happens and no time passes. -/
def getOrCompute (c : Cache κ ν) (k : κ) (now : UInt64) (compute : Unit → ν) :
    (ν × Bool) × Cache κ ν :=
  Id.run (c.getOrComputeM k (pure now) fun u => pure (compute u))

/-- Takes the entry under a key out. -/
def remove (c : Cache κ ν) (k : κ) : Option ν × Cache κ ν :=
  ((c.entry? k).map Entry.value, { c with entries := without k c.entries })

/-- Takes every entry out. -/
def clear (c : Cache κ ν) : Cache κ ν := { c with entries := [] }

/-- Drops the expired entries and tells how many there were. -/
def purgeExpired (c : Cache κ ν) (now : UInt64) : Nat × Cache κ ν :=
  let expired := (c.entries.filter fun (_, e) => e.isExpired now).length
  (expired, { c with
    entries := c.entries.filter fun (_, e) => !e.isExpired now
    counters := { c.counters with expirations := c.counters.expirations + expired } })

end Cache

end SpokenMath
