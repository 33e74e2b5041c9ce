import SpokenMath.Cache.Snapshot
import SpokenMath.Proofs.Cache.Codec

/-!
# Reading a snapshot

A snapshot is read back, whatever stands behind it, and what is read begins with the snapshot of the
entries that come out of it: its codec is made of canonical ones (`Snapshot.canonical_codec`).

**Theorem (`Snapshot.read_exactly_or_not_at_all`).** A snapshot of strings gives its entries, a part
of one gives nothing, and a byte string that cannot be loaded leaves the cache as it is.
-/

namespace SpokenMath

variable {ν : Type} {value : Codec ν} {entries : List (Digest × Entry ν)} {bytes : List UInt8}

namespace Snapshot

/-! ## The codec -/

theorem readsBack_entry {e : Entry ν} (h : value.ReadsBack e.value) : (entry value).ReadsBack e :=
  .via (h.pair ((Codec.readsBack_word64 _).pair (Codec.readsBack_word64 _))) rfl

theorem canonical_entry (h : value.Canonical) : (entry value).Canonical := by
  refine .via (h.pair (Codec.canonical_word64.pair Codec.canonical_word64)) fun x e => ?_
  constructor
  · rintro ⟨⟩
    rfl
  · rintro rfl
    rfl

/-- The entries of a snapshot are read back if their values are and their number can be written. -/
theorem readsBack_codec (hvalue : ∀ p ∈ entries, value.ReadsBack p.2.value)
    (hlength : entries.length < UInt64.size) (header : Vector UInt8 8 × UInt32) :
    (codec value).ReadsBack (header, entries) := by
  refine .pair ((Codec.readsBack_fixed _).pair (Codec.readsBack_word32 _)) (.list ?_ hlength)
  intro p hp
  exact (Codec.readsBack_fixed p.1).pair (readsBack_entry (hvalue p hp))

theorem canonical_codec (h : value.Canonical) : (codec value).Canonical :=
  .pair ((Codec.canonical_fixed 8).pair Codec.canonical_word32)
    (.list ((Codec.canonical_fixed 32).pair (canonical_entry h)))

/-! ## Reading -/

/-- What stands behind a snapshot does not matter. -/
theorem decode_encode_append (hvalue : ∀ p ∈ entries, value.ReadsBack p.2.value)
    (hlength : entries.length < UInt64.size) (rest : List UInt8) :
    decode value (encode value entries ++ rest) = .ok entries := by
  have hread := readsBack_codec hvalue hlength (magic, version) rest
  rw [decode, encode, hread]
  exact if_pos rfl

/-- A part of a snapshot is none. -/
theorem decode_incomplete (hcanonical : value.Canonical)
    (hvalue : ∀ p ∈ entries, value.ReadsBack p.2.value) (hlength : entries.length < UInt64.size)
    (hpart : bytes <+: encode value entries) (hne : bytes ≠ encode value entries) :
    decode value bytes = .error .unreadable := by
  have hnone := (canonical_codec hcanonical).decode_incomplete
    (readsBack_codec hvalue hlength (magic, version)) hpart hne
  rw [decode, hnone]

/-- What is read begins with the snapshot of the entries. -/
theorem eq_encode_of_decode (hcanonical : value.Canonical) (h : decode value bytes = .ok entries) :
    ∃ rest, bytes = encode value entries ++ rest := by
  unfold decode at h
  split at h
  · cases h
  next header entries' rest hdecode =>
  split at h
  · next hheader =>
    cases h
    subst hheader
    exact ⟨rest, (canonical_codec hcanonical _ _ _ hdecode).1⟩
  · cases h

end Snapshot

namespace Cache

variable {c : Cache Digest ν} {now : UInt64}

/-! ## Putting entries in -/

/-- The cache with entries put in, one after the other. -/
def putAll (c : Cache Digest ν) (entries : List (Digest × Entry ν)) : Cache Digest ν :=
  entries.foldl (fun c p => c.put p.1 p.2) c

theorem limits_putAll (c : Cache Digest ν) (entries : List (Digest × Entry ν)) :
    (c.putAll entries).capacity = c.capacity ∧ (c.putAll entries).ttl = c.ttl := by
  induction entries generalizing c with
  | nil => exact ⟨rfl, rfl⟩
  | cons p entries ih => exact ih (c.put p.1 p.2)

theorem foldl_put (n : Nat) :
    entries.foldl (fun (restored, c) (k, e) =>
      if e.isExpired now then (restored, c) else (restored + 1, c.put k e)) (n, c) =
      (n + (entries.filter fun p => !p.2.isExpired now).length,
        c.putAll (entries.filter fun p => !p.2.isExpired now)) := by
  induction entries generalizing n c with
  | nil => rfl
  | cons p entries ih =>
    cases hexpired : p.2.isExpired now with
    | true => simp [hexpired, ih]
    | false => simp [hexpired, ih, putAll, Nat.add_assoc, Nat.add_comm 1]

/-- The entries of a snapshot are put in, but for those that have expired. -/
theorem restore_of_decode (h : Snapshot.decode value bytes = .ok entries) :
    c.restore value bytes now =
      (.ok (entries.filter fun p => !p.2.isExpired now).length,
        c.putAll (entries.filter fun p => !p.2.isExpired now)) := by
  simp only [restore, h]
  rw [foldl_put, Nat.zero_add]

theorem restore_of_error {error : SnapshotError} (h : Snapshot.decode value bytes = .error error) :
    c.restore value bytes now = (.error error, c) := by
  simp only [restore, h]

end Cache

/-- **A snapshot is read exactly or not at all.** The snapshot of any entries with strings as values
gives these entries again, whatever stands behind it, and every strict part of it from the front is
unreadable. Loading any bytes into any cache either fails and leaves the cache as it is, with its
order and its counters, or the bytes begin with the snapshot of the entries of which those that are
not expired have been put in. Only what has a length of 64 bits can be written. -/
theorem Snapshot.read_exactly_or_not_at_all (entries : List (Digest × Entry String))
    (hlength : entries.length < UInt64.size)
    (hsizes : ∀ p ∈ entries, (nameBytes p.2.value).length < UInt64.size) :
    (∀ rest, decode .string (encode .string entries ++ rest) = .ok entries) ∧
      (∀ bytes, bytes <+: encode .string entries → bytes ≠ encode .string entries →
        decode .string bytes = .error .unreadable) ∧
      ∀ (c : Cache Digest String) (bytes : List UInt8) (now : UInt64),
        (∀ error, (c.restore .string bytes now).1 = .error error →
          (c.restore .string bytes now).2 = c) ∧
        ∀ count, (c.restore .string bytes now).1 = .ok count →
          ∃ found rest, bytes = encode .string found ++ rest ∧
            count = (found.filter fun p => !p.2.isExpired now).length ∧
            (c.restore .string bytes now).2 =
              c.putAll (found.filter fun p => !p.2.isExpired now) := by
  have hvalue : ∀ p ∈ entries, Codec.string.ReadsBack p.2.value :=
    fun p hp => Codec.readsBack_string (hsizes p hp)
  refine ⟨decode_encode_append hvalue hlength,
    fun bytes => decode_incomplete Codec.canonical_string hvalue hlength, fun c bytes now => ?_⟩
  cases hdecode : decode .string bytes with
  | error error =>
    rw [Cache.restore_of_error hdecode]
    exact ⟨fun _ _ => rfl, fun _ hok => nomatch hok⟩
  | ok found =>
    rw [Cache.restore_of_decode hdecode]
    obtain ⟨rest, hbytes⟩ := eq_encode_of_decode Codec.canonical_string hdecode
    refine ⟨fun _ herror => (nomatch herror), fun count hcount => ?_⟩
    exact ⟨found, rest, hbytes, (Except.ok.inj hcount).symm, rfl⟩

theorem Snapshot.read_exactly_or_not_at_all_one_entry :
    let entries : List (Digest × Entry String) := [(Vector.replicate 32 7, ⟨"one half", 5, 60000⟩)]
    decode .string (encode .string entries ++ [0]) = .ok entries ∧
      decode .string (encode .string entries).dropLast = .error .unreadable ∧
      ∀ (c : Cache Digest String) (now : UInt64),
        (c.restore .string (encode .string entries).dropLast now).2 = c := by
  intro entries
  have h := read_exactly_or_not_at_all entries (by decide) (by decide)
  have hunreadable := h.2.1 (encode .string entries).dropLast (List.dropLast_prefix _)
    (by decide +kernel)
  refine ⟨h.1 [0], hunreadable, fun c now => ?_⟩
  exact (h.2.2 c _ now).1 .unreadable (congrArg Prod.fst (Cache.restore_of_error hunreadable))

end SpokenMath
