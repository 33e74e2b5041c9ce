import SpokenMath.Digest
import SpokenMath.Text.Basic

/-!
# Cache keys

A key is the digest of its parts written one after the other. Texts and byte strings have their
length in front; numbers are words of 64 bits.
-/

namespace SpokenMath

/-- One part of a key. -/
inductive KeyPart
  | text (t : Text)
  | bytes (b : List UInt8)
  | number (n : UInt64)
  deriving DecidableEq, Repr

namespace KeyPart

/-- The bytes that a part adds to what is hashed. -/
def encode : KeyPart → List UInt8
  | text t => lengthPrefixed t.bytes
  | bytes b => lengthPrefixed b
  | number n => littleEndian64 n

/-- The key of the parts. -/
def key (parts : List KeyPart) : Digest := Digest.ofMessage (parts.flatMap encode)

end KeyPart

end SpokenMath
