import SpokenMath.Digest
import SpokenMath.Memory.Basic

/-!
# Fingerprints of memory

A short digest of what can change the reading of an expression: symbols and their meanings, the
frames without the places where they were opened, and the topic. What is hashed is an unambiguous
encoding: every field has its length in front, and a section begins with a byte that no text
contains.
-/

namespace SpokenMath.Memory

/-- The mark in front of a section. -/
def mark (tag : Char) : List UInt8 := [0xff, tag.toNat.toUInt8]

/-- A field with its length in front. -/
def field (s : String) : List UInt8 := lengthPrefixed (nameBytes s)

/-- What is hashed of a memory. -/
def fingerprintBytes (m : Memory) : List UInt8 :=
  mark 's' ++ m.symbols.flatMap (fun (s, e) => field s ++ field e.meaning) ++
    mark 'f' ++ m.frames.reverse.flatMap (fun f => field f.kind.name ++ field f.state.name) ++
    mark 't' ++ field ((m.topic.map Domain.name).getD "")

/-- The fingerprint of a memory. -/
def fingerprint (m : Memory) : UInt64 := ofBigEndian64 (Digest.ofMessage m.fingerprintBytes).head

end SpokenMath.Memory
