import SpokenMath.Digest
import SpokenMath.Text.Basic

/-!
# Codecs

A codec writes values as bytes and reads them back from the front of a byte string. Numbers have a
fixed width and their low byte first; texts and lists have their length in front.
-/

namespace SpokenMath

/-- A way to write values as bytes and to read them back. -/
structure Codec (α : Type) where
  /-- The bytes of a value. -/
  encode : α → List UInt8
  /-- The value at the front of a byte string, and the bytes behind it. -/
  decode : List UInt8 → Option (α × List UInt8)

namespace Codec

variable {α β : Type}

/-- The first `n` bytes, and the rest; nothing, if there are fewer. -/
def split (n : Nat) (bytes : List UInt8) : Option (List UInt8 × List UInt8) :=
  let front := bytes.take n
  if front.length = n then some (front, bytes.drop n) else none

/-- Numbers of 64 bits. -/
def word64 : Codec UInt64 where
  encode := littleEndian64
  decode bytes := (split 8 bytes).map fun (b, rest) => (ofLittleEndian64 b, rest)

/-- Numbers of 32 bits. -/
def word32 : Codec UInt32 where
  encode := littleEndian32
  decode bytes := (split 4 bytes).map fun (b, rest) => (ofLittleEndian32 b, rest)

/-- Byte strings of a fixed length. -/
def fixed (n : Nat) : Codec (Vector UInt8 n) where
  encode v := v.toList
  decode bytes :=
    (split n bytes).bind fun (b, rest) =>
      if h : b.toArray.size = n then some (⟨b.toArray, h⟩, rest) else none

/-- Strings, in UTF-8. -/
def string : Codec String where
  encode s := lengthPrefixed (nameBytes s)
  decode bytes := do
    let (length, bytes) ← word64.decode bytes
    let (b, rest) ← split length.toNat bytes
    let s ← String.fromUTF8? ⟨b.toArray⟩
    some (s, rest)

/-- Two values, one after the other. -/
def pair (a : Codec α) (b : Codec β) : Codec (α × β) where
  encode p := a.encode p.1 ++ b.encode p.2
  decode bytes := do
    let (x, bytes) ← a.decode bytes
    let (y, rest) ← b.decode bytes
    some ((x, y), rest)

/-- Reads `n` values. -/
def decodeMany (a : Codec α) : Nat → List UInt8 → Option (List α × List UInt8)
  | 0, bytes => some ([], bytes)
  | n + 1, bytes => do
    let (x, bytes) ← a.decode bytes
    let (xs, rest) ← decodeMany a n bytes
    some (x :: xs, rest)

/-- Lists, with their length in front. -/
def list (a : Codec α) : Codec (List α) where
  encode xs := littleEndian64 xs.length.toUInt64 ++ xs.flatMap a.encode
  decode bytes := do
    let (length, bytes) ← word64.decode bytes
    decodeMany a length.toNat bytes

/-- Values that are written as values of another type, which need not all be read back. -/
def via (a : Codec α) (write : β → α) (read? : α → Option β) : Codec β where
  encode y := a.encode (write y)
  decode bytes := do
    let (x, rest) ← a.decode bytes
    let y ← read? x
    some (y, rest)

end Codec

end SpokenMath
