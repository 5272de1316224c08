import RootPermit.Foundation.Cryptography

/-!
# SHA-256

The hash function of FIPS 180-4, section 6.2, on byte strings.  The message
schedule is kept as a window of sixteen words: a round consumes its first word
and appends the word sixteen places later.
-/

namespace RootPermit
namespace Foundation
namespace Sha256

/-- The eight working variables. -/
structure State where
  a : UInt32
  b : UInt32
  c : UInt32
  d : UInt32
  e : UInt32
  f : UInt32
  g : UInt32
  h : UInt32
  deriving DecidableEq, Repr

def rotateRight (word : UInt32) (count : UInt32) : UInt32 :=
  (word >>> count) ||| (word <<< (32 - count))

def choose (x y z : UInt32) : UInt32 :=
  (x &&& y) ^^^ (~~~x &&& z)

def majority (x y z : UInt32) : UInt32 :=
  (x &&& y) ^^^ (x &&& z) ^^^ (y &&& z)

def bigSigma0 (word : UInt32) : UInt32 :=
  rotateRight word 2 ^^^ rotateRight word 13 ^^^ rotateRight word 22

def bigSigma1 (word : UInt32) : UInt32 :=
  rotateRight word 6 ^^^ rotateRight word 11 ^^^ rotateRight word 25

def smallSigma0 (word : UInt32) : UInt32 :=
  rotateRight word 7 ^^^ rotateRight word 18 ^^^ (word >>> 3)

def smallSigma1 (word : UInt32) : UInt32 :=
  rotateRight word 17 ^^^ rotateRight word 19 ^^^ (word >>> 10)

def initialState : State :=
  ⟨0x6a09e667, 0xbb67ae85, 0x3c6ef372, 0xa54ff53a,
    0x510e527f, 0x9b05688c, 0x1f83d9ab, 0x5be0cd19⟩

def roundConstants : List UInt32 :=
  [0x428a2f98, 0x71374491, 0xb5c0fbcf, 0xe9b5dba5,
    0x3956c25b, 0x59f111f1, 0x923f82a4, 0xab1c5ed5,
    0xd807aa98, 0x12835b01, 0x243185be, 0x550c7dc3,
    0x72be5d74, 0x80deb1fe, 0x9bdc06a7, 0xc19bf174,
    0xe49b69c1, 0xefbe4786, 0x0fc19dc6, 0x240ca1cc,
    0x2de92c6f, 0x4a7484aa, 0x5cb0a9dc, 0x76f988da,
    0x983e5152, 0xa831c66d, 0xb00327c8, 0xbf597fc7,
    0xc6e00bf3, 0xd5a79147, 0x06ca6351, 0x14292967,
    0x27b70a85, 0x2e1b2138, 0x4d2c6dfc, 0x53380d13,
    0x650a7354, 0x766a0abb, 0x81c2c92e, 0x92722c85,
    0xa2bfe8a1, 0xa81a664b, 0xc24b8b70, 0xc76c51a3,
    0xd192e819, 0xd6990624, 0xf40e3585, 0x106aa070,
    0x19a4c116, 0x1e376c08, 0x2748774c, 0x34b0bcb5,
    0x391c0cb3, 0x4ed8aa4a, 0x5b9cca4f, 0x682e6ff3,
    0x748f82ee, 0x78a5636f, 0x84c87814, 0x8cc70208,
    0x90befffa, 0xa4506ceb, 0xbef9a3f7, 0xc67178f2]

def round (state : State) (constant word : UInt32) : State :=
  let t1 := state.h + bigSigma1 state.e + choose state.e state.f state.g +
    constant + word
  let t2 := bigSigma0 state.a + majority state.a state.b state.c
  ⟨t1 + t2, state.a, state.b, state.c, state.d + t1, state.e, state.f, state.g⟩

/-- The word that follows a window of sixteen schedule words. -/
def nextWord (window : List UInt32) : UInt32 :=
  smallSigma1 (window.getD 14 0) + window.getD 9 0 +
    smallSigma0 (window.getD 1 0) + window.getD 0 0

def rounds : List UInt32 → List UInt32 → State → State
  | [], _, state => state
  | constant :: constants, window, state =>
      rounds constants (window.drop 1 ++ [nextWord window])
        (round state constant (window.getD 0 0))

def addStates (left right : State) : State :=
  ⟨left.a + right.a, left.b + right.b, left.c + right.c, left.d + right.d,
    left.e + right.e, left.f + right.f, left.g + right.g, left.h + right.h⟩

/-- The big-endian words of a byte string. -/
def words : Bytes → List UInt32
  | first :: second :: third :: fourth :: rest =>
      UInt32.ofNat (beValue [first, second, third, fourth]) :: words rest
  | _ => []

def compress (state : State) (block : Bytes) : State :=
  addStates state (rounds roundConstants (words block) state)

/-- A one bit, zeros up to 56 bytes modulo 64, and the length in bits. -/
def pad (message : Bytes) : Bytes :=
  message ++ 0x80 :: List.replicate ((119 - message.length % 64) % 64) 0 ++
    beBytes 8 (8 * message.length)

/-- Compresses `count` blocks of 64 bytes. -/
def compressBlocks : Nat → Bytes → State → State
  | 0, _, state => state
  | count + 1, bytes, state =>
      compressBlocks count (bytes.drop 64) (compress state (bytes.take 64))

def stateBytes (state : State) : Bytes :=
  [state.a, state.b, state.c, state.d, state.e, state.f, state.g, state.h].flatMap
    fun word => beBytes 4 word.toNat

theorem length_stateBytes (state : State) : (stateBytes state).length = 32 := by
  simp [stateBytes]

/-- The SHA-256 digest of a message. -/
def hash (message : Bytes) : Digest :=
  ⟨stateBytes (compressBlocks ((pad message).length / 64) (pad message)
    initialState), length_stateBytes _⟩

example : (hash (utf8 "abc")).val =
    [0xba, 0x78, 0x16, 0xbf, 0x8f, 0x01, 0xcf, 0xea, 0x41, 0x41, 0x40, 0xde,
      0x5d, 0xae, 0x22, 0x23, 0xb0, 0x03, 0x61, 0xa3, 0x96, 0x17, 0x7a, 0x9c,
      0xb4, 0x10, 0xff, 0x61, 0xf2, 0x00, 0x15, 0xad] := by
  decide +kernel

end Sha256

/-- The pair of hashes that stands for a signature. -/
def keyedHash (key : ByteArr 32) (message : Bytes) : ByteArr 64 :=
  ⟨(Sha256.hash (key.val ++ message)).val ++ (Sha256.hash (message ++ key.val)).val,
    by simp [(Sha256.hash _).property]⟩

/-- SHA-256 with a keyed hash in place of Ed25519: computable primitives under
which signatures verify exactly when they were made with the same key over the
same message. -/
abbrev keyedHashCryptography : Cryptography where
  sha256 := Sha256.hash
  verifyingKey seed := seed
  sign := keyedHash
  verify key message signature := decide (signature = keyedHash key message)

end Foundation
end RootPermit
