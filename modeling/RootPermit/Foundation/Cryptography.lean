import RootPermit.Foundation.Bytes

/-!
# Hash and signature primitives

The developments below use SHA-256 and Ed25519 through their library
interfaces.  Both are parameters: a result that needs more than the types of
the primitives names what it needs as a hypothesis.
-/

namespace RootPermit
namespace Foundation

/-- A SHA-256 value. -/
abbrev Digest := ByteArr 32

/-- The primitives of the hash and signature libraries. -/
class Cryptography where
  /-- The hash of a byte string. -/
  sha256 : Bytes → Digest
  /-- The public key of a 32-byte secret seed. -/
  verifyingKey : ByteArr 32 → ByteArr 32
  /-- The deterministic Ed25519 signature under a secret seed. -/
  sign : ByteArr 32 → Bytes → ByteArr 64
  /-- Whether a signature is valid under a public key. -/
  verify : ByteArr 32 → Bytes → ByteArr 64 → Bool

export Cryptography (sha256 verifyingKey)

/-- A signature is accepted under the public key of the seed that made it. -/
def VerifiesItsSignatures [Cryptography] : Prop :=
  ∀ (seed : ByteArr 32) (message : Bytes),
    Cryptography.verify (verifyingKey seed) message
      (Cryptography.sign seed message) = true

end Foundation
end RootPermit
