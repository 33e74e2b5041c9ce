/-!
# Digests

SHA-256, and the fixed-width numbers written into the byte strings that are hashed. A digest is
thirty-two bytes; a *short digest* keeps its first eight, read as one number.
-/

namespace SpokenMath

/-- The little-endian bytes of a 64-bit number. -/
def littleEndian64 (n : UInt64) : List UInt8 :=
  [n.toUInt8, (n >>> 8).toUInt8, (n >>> 16).toUInt8, (n >>> 24).toUInt8, (n >>> 32).toUInt8,
    (n >>> 40).toUInt8, (n >>> 48).toUInt8, (n >>> 56).toUInt8]

/-- The little-endian bytes of a 32-bit number. -/
def littleEndian32 (n : UInt32) : List UInt8 :=
  [n.toUInt8, (n >>> 8).toUInt8, (n >>> 16).toUInt8, (n >>> 24).toUInt8]

/-- The big-endian bytes of a 64-bit number. -/
def bigEndian64 (n : UInt64) : List UInt8 := (littleEndian64 n).reverse

/-- The number whose big-endian bytes are given; of more than eight, the last count. -/
def ofBigEndian64 (bytes : List UInt8) : UInt64 :=
  bytes.foldl (fun n b => (n <<< 8) ||| b.toUInt64) 0

/-- The number whose little-endian bytes are given. -/
def ofLittleEndian64 (bytes : List UInt8) : UInt64 := ofBigEndian64 bytes.reverse

/-- The 32-bit number whose little-endian bytes are given. -/
def ofLittleEndian32 (bytes : List UInt8) : UInt32 :=
  bytes.foldr (fun b n => (n <<< 8) ||| b.toUInt32) 0

/-- The length of a byte string as it is written in front of it. -/
def lengthPrefixed (bytes : List UInt8) : List UInt8 :=
  littleEndian64 bytes.length.toUInt64 ++ bytes

/-- Two small hexadecimal digits. -/
def hexByte (b : UInt8) : List Char :=
  [Nat.digitChar (b.toNat / 16), Nat.digitChar (b.toNat % 16)]

/-- Small hexadecimal digits, two for each byte. -/
def hexBytes (bytes : List UInt8) : String := String.ofList (bytes.flatMap hexByte)

/-- Sixteen hexadecimal digits. -/
def hex64 (n : UInt64) : String := hexBytes (bigEndian64 n)

/-- A SHA-256 digest. -/
abbrev Digest := Vector UInt8 32

namespace Digest

/-! ## Rounds -/

/-- The eight working words. -/
structure Words where
  a : UInt32
  b : UInt32
  c : UInt32
  d : UInt32
  e : UInt32
  f : UInt32
  g : UInt32
  h : UInt32

/-- The fractional parts of the square roots of the first eight primes. -/
def initial : Words where
  a := 0x6a09e667
  b := 0xbb67ae85
  c := 0x3c6ef372
  d := 0xa54ff53a
  e := 0x510e527f
  f := 0x9b05688c
  g := 0x1f83d9ab
  h := 0x5be0cd19

/-- The fractional parts of the cube roots of the first sixty-four primes. -/
def roundConstants : List UInt32 := [
  0x428a2f98, 0x71374491, 0xb5c0fbcf, 0xe9b5dba5, 0x3956c25b, 0x59f111f1, 0x923f82a4, 0xab1c5ed5,
  0xd807aa98, 0x12835b01, 0x243185be, 0x550c7dc3, 0x72be5d74, 0x80deb1fe, 0x9bdc06a7, 0xc19bf174,
  0xe49b69c1, 0xefbe4786, 0x0fc19dc6, 0x240ca1cc, 0x2de92c6f, 0x4a7484aa, 0x5cb0a9dc, 0x76f988da,
  0x983e5152, 0xa831c66d, 0xb00327c8, 0xbf597fc7, 0xc6e00bf3, 0xd5a79147, 0x06ca6351, 0x14292967,
  0x27b70a85, 0x2e1b2138, 0x4d2c6dfc, 0x53380d13, 0x650a7354, 0x766a0abb, 0x81c2c92e, 0x92722c85,
  0xa2bfe8a1, 0xa81a664b, 0xc24b8b70, 0xc76c51a3, 0xd192e819, 0xd6990624, 0xf40e3585, 0x106aa070,
  0x19a4c116, 0x1e376c08, 0x2748774c, 0x34b0bcb5, 0x391c0cb3, 0x4ed8aa4a, 0x5b9cca4f, 0x682e6ff3,
  0x748f82ee, 0x78a5636f, 0x84c87814, 0x8cc70208, 0x90befffa, 0xa4506ceb, 0xbef9a3f7, 0xc67178f2]

/-- Rotation to the right. -/
def rotate (x : UInt32) (n : UInt32) : UInt32 := (x >>> n) ||| (x <<< (32 - n))

/-- One round with its constant and its word of the schedule. -/
def Words.step (s : Words) (constant word : UInt32) : Words :=
  let choice := (s.e &&& s.f) ^^^ (~~~s.e &&& s.g)
  let majority := (s.a &&& s.b) ^^^ (s.a &&& s.c) ^^^ (s.b &&& s.c)
  let t₁ := s.h + (rotate s.e 6 ^^^ rotate s.e 11 ^^^ rotate s.e 25) + choice + constant + word
  let t₂ := (rotate s.a 2 ^^^ rotate s.a 13 ^^^ rotate s.a 22) + majority
  ⟨t₁ + t₂, s.a, s.b, s.c, s.d + t₁, s.e, s.f, s.g⟩

/-- Word-by-word sum. -/
def Words.add (s t : Words) : Words :=
  ⟨s.a + t.a, s.b + t.b, s.c + t.c, s.d + t.d, s.e + t.e, s.f + t.f, s.g + t.g, s.h + t.h⟩

/-- The words of a block, each from four bytes, the first one leading. -/
def blockWords : List UInt8 → List UInt32
  | a :: b :: c :: d :: rest =>
    ((a.toUInt32 <<< 24) ||| (b.toUInt32 <<< 16) ||| (c.toUInt32 <<< 8) ||| d.toUInt32) ::
      blockWords rest
  | _ => []

/-- Extends the schedule by `n` words. Each is made from the words two, seven, fifteen and sixteen
places before it. -/
def extend : Nat → Array UInt32 → Array UInt32
  | 0, w => w
  | n + 1, w =>
    let at' := fun back => w.getD (w.size - back) 0
    let x := at' 15
    let y := at' 2
    let s₀ := rotate x 7 ^^^ rotate x 18 ^^^ (x >>> 3)
    let s₁ := rotate y 17 ^^^ rotate y 19 ^^^ (y >>> 10)
    extend n (w.push (at' 16 + s₀ + at' 7 + s₁))

/-- Mixes one block of sixty-four bytes in. -/
def Words.absorb (s : Words) (block : List UInt8) : Words :=
  let schedule := (extend 48 (blockWords block).toArray).toList
  ((roundConstants.zip schedule).foldl (fun t (k, w) => t.step k w) s).add s

/-! ## Messages -/

/-- The message with its end mark, zeros up to eight bytes before a block's end, and its length in
bits. -/
def pad (message : List UInt8) : List UInt8 :=
  message ++ 0x80 :: List.replicate ((119 - message.length % 64) % 64) 0 ++
    bigEndian64 (8 * message.length.toUInt64)

/-- The blocks of sixty-four bytes. -/
def blocks (bytes : List UInt8) : List (List UInt8) :=
  if bytes.isEmpty then [] else bytes.take 64 :: blocks (bytes.drop 64)
termination_by bytes.length
decreasing_by
  cases bytes with
  | nil => simp_all
  | cons => simp only [List.length_drop, List.length_cons]; omega

/-- The big-endian bytes of the words, in order. -/
def Words.toDigest (s : Words) : Digest :=
  let words := #v[s.a, s.b, s.c, s.d, s.e, s.f, s.g, s.h]
  Vector.ofFn fun i => (words[i.val / 4] >>> (24 - 8 * (i.val % 4).toUInt32)).toUInt8

/-- The SHA-256 digest of a message. -/
def ofMessage (message : List UInt8) : Digest :=
  ((blocks (pad message)).foldl Words.absorb initial).toDigest

/-- The first eight bytes. -/
def head (d : Digest) : List UInt8 := d.toList.take 8

end Digest

end SpokenMath
