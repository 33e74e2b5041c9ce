import SpokenMath.Cache.Basic
import SpokenMath.Cache.Codec

/-!
# Snapshots of a cache

A snapshot is a byte string: eight magic bytes, a version, and the entries with their keys, the
least recently used one first. Bytes behind the entries do not matter. The magic bytes and the
version are looked at only when everything could be read.
-/

namespace SpokenMath

/-- Why a snapshot cannot be loaded. -/
inductive SnapshotError
  /-- The bytes are no snapshot. -/
  | unreadable
  /-- The snapshot has other magic bytes or another version. -/
  | incompatible (version : UInt32)
  deriving DecidableEq, Repr

namespace Snapshot

variable {ν : Type}

/-- The magic bytes: `MSPEAKRC`. -/
def magic : Vector UInt8 8 := #v[0x4d, 0x53, 0x50, 0x45, 0x41, 0x4b, 0x52, 0x43]

/-- The version that is written and understood. -/
def version : UInt32 := 1

/-- Entries: the value, the time of insertion and the time to live. -/
def entry (value : Codec ν) : Codec (Entry ν) :=
  (value.pair (Codec.word64.pair .word64)).via
    (fun e => (e.value, e.insertedAt, e.ttl))
    (fun (value, insertedAt, ttl) => some ⟨value, insertedAt, ttl⟩)

/-- Keys with their entries, behind a header. -/
def codec (value : Codec ν) :
    Codec ((Vector UInt8 8 × UInt32) × List (Digest × Entry ν)) :=
  ((Codec.fixed 8).pair .word32).pair (.list ((Codec.fixed 32).pair (entry value)))

/-- The snapshot of a list of entries. -/
def encode (value : Codec ν) (entries : List (Digest × Entry ν)) : List UInt8 :=
  (codec value).encode ((magic, version), entries)

/-- The entries of a snapshot. -/
def decode (value : Codec ν) (bytes : List UInt8) :
    Except SnapshotError (List (Digest × Entry ν)) :=
  match (codec value).decode bytes with
  | none => .error .unreadable
  | some ((header, entries), _) =>
    if header = (magic, version) then .ok entries else .error (.incompatible header.2)

end Snapshot

/-- The wording of an error that has one. -/
def SnapshotError.message? : SnapshotError → Option String
  | unreadable => none
  | incompatible version =>
    some ("cache snapshot has an incompatible format (version " ++ toString version ++ ")")

namespace Cache

variable {ν : Type}

/-- The entries that a snapshot keeps, the least recently used one first. -/
def liveEntries (c : Cache Digest ν) (now : UInt64) : List (Digest × Entry ν) :=
  c.entries.reverse.filter fun (_, e) => !e.isExpired now

/-- The number of entries written, and the snapshot. -/
def save (value : Codec ν) (c : Cache Digest ν) (now : UInt64) : Nat × List UInt8 :=
  ((c.liveEntries now).length, Snapshot.encode value (c.liveEntries now))

/-- Puts the entries of a snapshot in, in its order and expired ones left out, and tells how many
there were. A snapshot that cannot be read puts nothing in. -/
def restore (value : Codec ν) (c : Cache Digest ν) (bytes : List UInt8) (now : UInt64) :
    Except SnapshotError Nat × Cache Digest ν :=
  match Snapshot.decode value bytes with
  | .error e => (.error e, c)
  | .ok entries =>
    let (restored, c) := entries.foldl (fun (restored, c) (k, e) =>
      if e.isExpired now then (restored, c) else (restored + 1, c.put k e)) (0, c)
    (.ok restored, c)

/-- The number of entries put in and the cache with them, or why there is none. -/
def load (value : Codec ν) (c : Cache Digest ν) (bytes : List UInt8) (now : UInt64) :
    Except SnapshotError (Nat × Cache Digest ν) :=
  match c.restore value bytes now with
  | (.ok restored, c) => .ok (restored, c)
  | (.error e, _) => .error e

end Cache

end SpokenMath
