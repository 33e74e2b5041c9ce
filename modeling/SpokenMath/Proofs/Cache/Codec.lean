import Mathlib.Data.Nat.Digits.Lemmas
import SpokenMath.Cache.Codec
import SpokenMath.Proofs.Encoding

/-!
# Codecs that lose nothing

A codec **reads a value back** if the bytes of the value decode to it whatever stands behind them,
and to these bytes behind it (`Codec.ReadsBack`). A codec is **canonical** if it accepts nothing but
the bytes of the value that it answers (`Codec.Canonical`). Both go from the parts to the whole:
from the elements of a list with its length, and from two values to the pair of them.

**Theorem (`Canonical.decode_incomplete`).** A canonical codec refuses every strict prefix of the
bytes of a value that it reads back. What it read from a prefix would be what it reads from the
whole, and then nothing is missing.

Numbers are the base of it. Bytes stand for the number of which they are the digits to the base 256
(`digitsValue`), and in a fixed width each number has its digits once.
-/

namespace SpokenMath

/-! ## Numbers -/

/-- The number of which the bytes are the digits to the base 256, the low one first. -/
def digitsValue (bytes : List UInt8) : Nat := Nat.ofDigits 256 (bytes.map UInt8.toNat)

@[simp] theorem digitsValue_nil : digitsValue [] = 0 := rfl

@[simp] theorem digitsValue_cons (b : UInt8) (bytes : List UInt8) :
    digitsValue (b :: bytes) = b.toNat + 256 * digitsValue bytes :=
  Nat.ofDigits_cons

theorem toNat_lt_of_mem_map {bytes : List UInt8} : ∀ d ∈ bytes.map UInt8.toNat, d < 256 := by
  intro d hd
  obtain ⟨b, -, rfl⟩ := List.mem_map.mp hd
  exact b.toNat_lt

theorem digitsValue_lt (bytes : List UInt8) : digitsValue bytes < 256 ^ bytes.length := by
  have h := Nat.ofDigits_lt_base_pow_length (by decide) (@toNat_lt_of_mem_map bytes)
  rwa [List.length_map] at h

/-- Digits of one width are determined by the number they stand for. -/
theorem eq_of_digitsValue_eq {a b : List UInt8} (hlength : a.length = b.length)
    (h : digitsValue a = digitsValue b) : a = b := by
  have hdigits : a.map UInt8.toNat = b.map UInt8.toNat :=
    Nat.ofDigits_inj_of_len_eq (by decide) (by simpa using hlength) toNat_lt_of_mem_map
      toNat_lt_of_mem_map h
  exact List.map_injective_iff.mpr (fun _ _ => UInt8.toNat_inj.mp) hdigits

/-- Putting digits together in words of a fixed width gives their number, as long as they fit. -/
theorem toNat_foldr {α : Type} (toNat : α → Nat) (width : Nat) {step : UInt8 → α → α} {zero : α}
    (hzero : toNat zero = 0)
    (hstep : ∀ b n, toNat (step b n) = (toNat n * 256 + b.toNat) % 256 ^ width)
    {bytes : List UInt8} (hfits : bytes.length ≤ width) :
    toNat (bytes.foldr step zero) = digitsValue bytes := by
  induction bytes with
  | nil => exact hzero
  | cons b bytes ih =>
    have hlt : digitsValue (b :: bytes) < 256 ^ width :=
      (digitsValue_lt _).trans_le (Nat.pow_le_pow_right (by decide) hfits)
    rw [List.foldr_cons, hstep, ih (Nat.le_of_succ_le hfits), Nat.mul_comm, Nat.add_comm,
      ← digitsValue_cons, Nat.mod_eq_of_lt hlt]

theorem toNat_ofLittleEndian64 {bytes : List UInt8} (h : bytes.length ≤ 8) :
    (ofLittleEndian64 bytes).toNat = digitsValue bytes := by
  rw [ofLittleEndian64, ofBigEndian64, List.foldl_reverse]
  refine toNat_foldr UInt64.toNat 8 rfl (fun b n => ?_) h
  have hb := b.toNat_lt
  have hshift : n.toNat <<< 8 % 2 ^ 64 = 2 ^ 8 * (n.toNat % 2 ^ 56) := by
    rw [Nat.shiftLeft_eq]
    omega
  simp only [UInt64.toNat_or, UInt64.toNat_shiftLeft, UInt8.toNat_toUInt64, UInt64.reduceToNat,
    Nat.reduceMod, hshift, ← Nat.two_pow_add_eq_or_of_lt hb]
  omega

theorem toNat_ofLittleEndian32 {bytes : List UInt8} (h : bytes.length ≤ 4) :
    (ofLittleEndian32 bytes).toNat = digitsValue bytes := by
  refine toNat_foldr UInt32.toNat 4 rfl (fun b n => ?_) h
  have hb := b.toNat_lt
  have hshift : n.toNat <<< 8 % 2 ^ 32 = 2 ^ 8 * (n.toNat % 2 ^ 24) := by
    rw [Nat.shiftLeft_eq]
    omega
  simp only [UInt32.toNat_or, UInt32.toNat_shiftLeft, UInt8.toNat_toUInt32, UInt32.reduceToNat,
    Nat.reduceMod, hshift, ← Nat.two_pow_add_eq_or_of_lt hb]
  omega

@[simp] theorem length_littleEndian32 (n : UInt32) : (littleEndian32 n).length = 4 := rfl

theorem digitsValue_littleEndian64 (n : UInt64) : digitsValue (littleEndian64 n) = n.toNat := by
  have hn := n.toNat_lt
  simp only [littleEndian64, digitsValue_cons, digitsValue_nil, UInt64.toNat_toUInt8,
    UInt64.toNat_shiftRight, UInt64.reduceToNat, Nat.shiftRight_eq_div_pow, Nat.reduceMod]
  omega

theorem digitsValue_littleEndian32 (n : UInt32) : digitsValue (littleEndian32 n) = n.toNat := by
  have hn := n.toNat_lt
  simp only [littleEndian32, digitsValue_cons, digitsValue_nil, UInt32.toNat_toUInt8,
    UInt32.toNat_shiftRight, UInt32.reduceToNat, Nat.shiftRight_eq_div_pow, Nat.reduceMod]
  omega

@[simp] theorem ofLittleEndian64_littleEndian64 (n : UInt64) :
    ofLittleEndian64 (littleEndian64 n) = n := by
  apply UInt64.toNat_inj.mp
  rw [toNat_ofLittleEndian64 (length_littleEndian64 n).le, digitsValue_littleEndian64]

theorem littleEndian64_ofLittleEndian64 {bytes : List UInt8} (h : bytes.length = 8) :
    littleEndian64 (ofLittleEndian64 bytes) = bytes := by
  apply eq_of_digitsValue_eq (by rw [length_littleEndian64, h])
  rw [digitsValue_littleEndian64, toNat_ofLittleEndian64 h.le]

@[simp] theorem ofLittleEndian32_littleEndian32 (n : UInt32) :
    ofLittleEndian32 (littleEndian32 n) = n := by
  apply UInt32.toNat_inj.mp
  rw [toNat_ofLittleEndian32 (length_littleEndian32 n).le, digitsValue_littleEndian32]

theorem littleEndian32_ofLittleEndian32 {bytes : List UInt8} (h : bytes.length = 4) :
    littleEndian32 (ofLittleEndian32 bytes) = bytes := by
  apply eq_of_digitsValue_eq (by rw [length_littleEndian32, h])
  rw [digitsValue_littleEndian32, toNat_ofLittleEndian32 h.le]

namespace Codec

variable {α β : Type} {a : Codec α} {b : Codec β} {x : α} {y : β} {bytes front rest : List UInt8}

/-! ## The two laws -/

/-- The bytes of a value decode to it, and leave what stands behind them. -/
def ReadsBack (a : Codec α) (x : α) : Prop := ∀ rest, a.decode (a.encode x ++ rest) = some (x, rest)

/-- Whatever decodes to a value begins with the bytes of this value, which is read back. -/
def Canonical (a : Codec α) : Prop :=
  ∀ bytes x rest, a.decode bytes = some (x, rest) → bytes = a.encode x ++ rest ∧ a.ReadsBack x

/-- **A part of the bytes of a value is no value.** -/
theorem Canonical.decode_incomplete (ha : a.Canonical) (hx : a.ReadsBack x)
    (hpart : front <+: a.encode x) (hne : front ≠ a.encode x) : a.decode front = none := by
  by_contra hsome
  obtain ⟨⟨y, rest⟩, hdecode⟩ := Option.ne_none_iff_exists'.mp hsome
  obtain ⟨hfront, hy⟩ := ha front y rest hdecode
  obtain ⟨missing, hmissing⟩ := hpart
  -- The whole decodes to the value of the part as well, with the missing bytes behind it.
  have hwhole : a.decode (a.encode x) = some (y, rest ++ missing) := by
    rw [← hmissing, hfront, List.append_assoc, hy]
  have hself : a.decode (a.encode x) = some (x, []) := by
    rw [← hx [], List.append_nil]
  obtain ⟨-, hnothing⟩ := Prod.mk.inj (Option.some.inj (hself.symm.trans hwhole))
  obtain ⟨-, rfl⟩ := List.append_eq_nil_iff.mp hnothing.symm
  exact hne (by rw [← hmissing, List.append_nil])

/-! ## Bytes and numbers -/

theorem split_eq_some {n : Nat} :
    split n bytes = some (front, rest) ↔ bytes = front ++ rest ∧ front.length = n := by
  constructor
  · intro h
    simp only [split] at h
    split at h
    · next hlength =>
      obtain ⟨rfl, rfl⟩ := Prod.mk.inj (Option.some.inj h)
      exact ⟨(List.take_append_drop n bytes).symm, hlength⟩
    · cases h
  · rintro ⟨rfl, rfl⟩
    simp [split]

theorem split_append {n : Nat} (h : front.length = n) (rest : List UInt8) :
    split n (front ++ rest) = some (front, rest) :=
  split_eq_some.mpr ⟨rfl, h⟩

theorem readsBack_word64 (n : UInt64) : word64.ReadsBack n := by
  intro rest
  simp [word64, split_append (length_littleEndian64 n)]

theorem canonical_word64 : word64.Canonical := by
  intro bytes n rest h
  obtain ⟨⟨front, rest'⟩, hsplit, heq⟩ := Option.map_eq_some_iff.mp h
  obtain ⟨rfl, rfl⟩ := Prod.mk.inj heq
  obtain ⟨rfl, hlength⟩ := split_eq_some.mp hsplit
  refine ⟨?_, readsBack_word64 _⟩
  simp only [word64, littleEndian64_ofLittleEndian64 hlength]

theorem readsBack_word32 (n : UInt32) : word32.ReadsBack n := by
  intro rest
  simp [word32, split_append (length_littleEndian32 n)]

theorem canonical_word32 : word32.Canonical := by
  intro bytes n rest h
  obtain ⟨⟨front, rest'⟩, hsplit, heq⟩ := Option.map_eq_some_iff.mp h
  obtain ⟨rfl, rfl⟩ := Prod.mk.inj heq
  obtain ⟨rfl, hlength⟩ := split_eq_some.mp hsplit
  refine ⟨?_, readsBack_word32 _⟩
  simp only [word32, littleEndian32_ofLittleEndian32 hlength]

theorem readsBack_fixed {n : Nat} (v : Vector UInt8 n) : (fixed n).ReadsBack v := by
  intro rest
  have hsplit := split_append v.length_toList rest
  obtain ⟨bytes, rfl⟩ := v
  simp only [Vector.toList_mk] at hsplit
  simp [fixed, hsplit]

theorem canonical_fixed (n : Nat) : (fixed n).Canonical := by
  intro bytes v rest h
  refine ⟨?_, readsBack_fixed v⟩
  obtain ⟨⟨front, rest'⟩, hsplit, hvector⟩ := Option.bind_eq_some_iff.mp h
  obtain ⟨hsize, heq⟩ := Option.dite_none_right_eq_some.mp hvector
  cases heq
  exact (split_eq_some.mp hsplit).1

/-! ## Values made of others -/

theorem ReadsBack.pair (hx : a.ReadsBack x) (hy : b.ReadsBack y) :
    (a.pair b).ReadsBack (x, y) := by
  intro rest
  have hx := hx (b.encode y ++ rest)
  have hy := hy rest
  simp [Codec.pair, hx, hy]

theorem Canonical.pair (ha : a.Canonical) (hb : b.Canonical) : (a.pair b).Canonical := by
  intro bytes p rest h
  obtain ⟨⟨x, middle⟩, hfirst, h⟩ := Option.bind_eq_some_iff.mp h
  obtain ⟨⟨y, last⟩, hsecond, h⟩ := Option.bind_eq_some_iff.mp h
  cases h
  obtain ⟨rfl, hx⟩ := ha _ _ _ hfirst
  obtain ⟨rfl, hy⟩ := hb _ _ _ hsecond
  exact ⟨(List.append_assoc ..).symm, hx.pair hy⟩

theorem decodeMany_append {xs : List α} (h : ∀ x ∈ xs, a.ReadsBack x) (rest : List UInt8) :
    decodeMany a xs.length (xs.flatMap a.encode ++ rest) = some (xs, rest) := by
  induction xs with
  | nil => rfl
  | cons x xs ih =>
    have hx := h x List.mem_cons_self (xs.flatMap a.encode ++ rest)
    have hxs := ih fun y hy => h y (List.mem_cons_of_mem x hy)
    simp [decodeMany, hx, hxs]

theorem Canonical.decodeMany (ha : a.Canonical) {n : Nat} {xs : List α}
    (h : decodeMany a n bytes = some (xs, rest)) :
    bytes = xs.flatMap a.encode ++ rest ∧ xs.length = n ∧ ∀ x ∈ xs, a.ReadsBack x := by
  induction n generalizing bytes xs with
  | zero =>
    cases h
    exact ⟨rfl, rfl, by simp⟩
  | succ n ih =>
    obtain ⟨⟨x, middle⟩, hfirst, h⟩ := Option.bind_eq_some_iff.mp h
    obtain ⟨⟨ys, last⟩, hothers, h⟩ := Option.bind_eq_some_iff.mp h
    cases h
    obtain ⟨rfl, hx⟩ := ha _ _ _ hfirst
    obtain ⟨rfl, rfl, hall⟩ := ih hothers
    refine ⟨?_, rfl, List.forall_mem_cons.mpr ⟨hx, hall⟩⟩
    simp only [List.flatMap_cons, List.append_assoc]

/-- A list is read back if its length can be written. -/
theorem ReadsBack.list {xs : List α} (h : ∀ x ∈ xs, a.ReadsBack x)
    (hlength : xs.length < UInt64.size) : (Codec.list a).ReadsBack xs := by
  intro rest
  have hcount : xs.length.toUInt64.toNat = xs.length := UInt64.toNat_ofNat_of_lt' hlength
  have hword := readsBack_word64 xs.length.toUInt64 (xs.flatMap a.encode ++ rest)
  simp only [Codec.list, List.append_assoc]
  exact Option.bind_eq_some_iff.mpr ⟨_, hword, by rw [hcount, decodeMany_append h]⟩

theorem Canonical.list (ha : a.Canonical) : (Codec.list a).Canonical := by
  intro bytes xs rest h
  obtain ⟨⟨count, middle⟩, hcount, hmany⟩ := Option.bind_eq_some_iff.mp h
  obtain ⟨rfl, -⟩ := canonical_word64 _ _ _ hcount
  obtain ⟨rfl, hlength, hall⟩ := ha.decodeMany hmany
  have hword : xs.length.toUInt64 = count := by
    rw [hlength]
    exact UInt64.ofNat_toNat
  refine ⟨?_, .list hall (hlength ▸ count.toNat_lt)⟩
  rw [← List.append_assoc, ← hword]
  rfl

theorem ReadsBack.via {write : β → α} {read? : α → Option β} (hx : a.ReadsBack (write y))
    (hread : read? (write y) = some y) : (a.via write read?).ReadsBack y := by
  intro rest
  have hx := hx rest
  simp [Codec.via, hx, hread]

theorem Canonical.via {write : β → α} {read? : α → Option β} (ha : a.Canonical)
    (hread : ∀ x y, read? x = some y ↔ write y = x) : (a.via write read?).Canonical := by
  intro bytes y rest h
  obtain ⟨⟨x, middle⟩, hdecode, h⟩ := Option.bind_eq_some_iff.mp h
  obtain ⟨y', hy, h⟩ := Option.bind_eq_some_iff.mp h
  cases h
  obtain ⟨rfl, hback⟩ := ha _ _ _ hdecode
  obtain rfl := (hread x y).mp hy
  exact ⟨rfl, hback.via hy⟩

/-! ## Strings -/

/-- A string is read back if its length can be written. -/
theorem readsBack_string {s : String} (hsize : (nameBytes s).length < UInt64.size) :
    string.ReadsBack s := by
  intro rest
  have hlength : (nameBytes s).length.toUInt64.toNat = (nameBytes s).length :=
    UInt64.toNat_ofNat_of_lt' hsize
  have hword := readsBack_word64 (nameBytes s).length.toUInt64 (nameBytes s ++ rest)
  have hutf8 : String.fromUTF8? ⟨(nameBytes s).toArray⟩ = some s := dif_pos s.isValidUTF8
  simp only [string, lengthPrefixed, List.append_assoc]
  refine Option.bind_eq_some_iff.mpr ⟨_, hword, ?_⟩
  simp [hlength, split_append, hutf8]

theorem canonical_string : string.Canonical := by
  intro bytes s rest h
  obtain ⟨⟨length, middle⟩, hlength, h⟩ := Option.bind_eq_some_iff.mp h
  obtain ⟨⟨front, last⟩, hsplit, h⟩ := Option.bind_eq_some_iff.mp h
  obtain ⟨s', hutf8, h⟩ := Option.bind_eq_some_iff.mp h
  cases h
  obtain ⟨rfl, -⟩ := canonical_word64 _ _ _ hlength
  obtain ⟨rfl, hfront⟩ := split_eq_some.mp hsplit
  have hbytes : nameBytes s = front := by
    unfold String.fromUTF8? at hutf8
    split at hutf8
    · cases hutf8
      rfl
    · cases hutf8
  have hword : (nameBytes s).length.toUInt64 = length := by
    rw [hbytes, hfront]
    exact UInt64.ofNat_toNat
  refine ⟨?_, readsBack_string (by rw [hbytes, hfront]; exact length.toNat_lt)⟩
  rw [← hbytes, ← List.append_assoc, ← hword]
  rfl

end Codec

end SpokenMath
