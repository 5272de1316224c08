import RootPermit.Foundation.Cryptography
import RootPermit.Protocol.CborNormal

/-!
# Domain-separated digests

This module embeds `rp-protocol/src/digest.rs`.  A digest hashes a domain label
followed by the deterministic encoding of a value.  Every label ends with a zero
byte and has no other, so no label is a prefix of another one and the hashed
bytes determine both the domain and the encoding.
-/

namespace RootPermit
namespace Protocol

open Foundation

inductive Domain where
  | request
  | aptPlan
  | decision
  | webAuthnChallenge
  | enrollment
  | serviceKeyset
  | decisionAccepted
  | revocation
  | receipt
  deriving DecidableEq, Repr

def Domain.label : Domain → Bytes
  | .request => utf8 "rootpermit/v1/request\x00"
  | .aptPlan => utf8 "rootpermit/v1/apt-plan\x00"
  | .decision => utf8 "rootpermit/v1/decision\x00"
  | .webAuthnChallenge => utf8 "rootpermit/v1/webauthn.challenge\x00"
  | .enrollment => utf8 "rootpermit/v1/enrollment\x00"
  | .serviceKeyset => utf8 "rootpermit/v1/service-keyset\x00"
  | .decisionAccepted => utf8 "rootpermit/v1/decision-accepted\x00"
  | .revocation => utf8 "rootpermit/v1/revocation\x00"
  | .receipt => utf8 "rootpermit/v1/receipt\x00"

/-- The bytes that are hashed for a value under a domain. -/
def digestPreimage (domain : Domain) (value : CborValue) :
    Except EncodeError Bytes := do
  let encoded ← encode value
  return domain.label ++ encoded

/-- Hashes `domain-label || deterministic-CBOR(value)`. -/
def digestCbor [Cryptography] (domain : Domain) (value : CborValue) :
    Except EncodeError Digest := do
  let preimage ← digestPreimage domain value
  return sha256 preimage

theorem digestPreimage_eq_ok_iff {domain : Domain} {value : CborValue}
    {preimage : Bytes} :
    digestPreimage domain value = .ok preimage ↔
      ∃ encoded, encode value = .ok encoded ∧
        preimage = domain.label ++ encoded := by
  simp only [digestPreimage, bind_eq_ok_iff, pure_eq_ok, Except.ok.injEq,
    eq_comm (b := preimage)]

theorem digestCbor_eq_ok_iff [Cryptography] {domain : Domain}
    {value : CborValue} {digest : Digest} :
    digestCbor domain value = .ok digest ↔
      ∃ preimage, digestPreimage domain value = .ok preimage ∧
        digest = sha256 preimage := by
  simp only [digestCbor, bind_eq_ok_iff, pure_eq_ok, Except.ok.injEq,
    eq_comm (b := digest)]

/-! ### Separation -/

theorem label_prefixFree {first second : Domain}
    (h : first.label <+: second.label) : first = second := by
  cases first <;> cases second <;>
    first
    | rfl
    | exact absurd h (by decide +kernel)

/-- A label and what follows it can be told apart. -/
theorem label_append_inj {first second : Domain} {rest rest' : Bytes}
    (h : first.label ++ rest = second.label ++ rest') :
    first = second ∧ rest = rest' := by
  have hFirst : first.label <+: second.label ++ rest' := ⟨rest, h⟩
  have hSecond : second.label <+: second.label ++ rest' := ⟨rest', rfl⟩
  have hSame : first = second := by
    rcases List.prefix_or_prefix_of_prefix hFirst hSecond with hPrefix | hPrefix
    · exact label_prefixFree hPrefix
    · exact (label_prefixFree hPrefix).symm
  subst hSame
  exact ⟨rfl, List.append_cancel_left h⟩

/-- The hashed bytes determine the domain and, up to the order of map entries,
the value. -/
theorem digestPreimage_inj {first second : Domain} {value other : CborValue}
    {preimage : Bytes} (hFirst : digestPreimage first value = .ok preimage)
    (hSecond : digestPreimage second other = .ok preimage) :
    first = second ∧ normalize value = normalize other := by
  obtain ⟨encoded, hValue, rfl⟩ := digestPreimage_eq_ok_iff.mp hFirst
  obtain ⟨encoded', hOther, hSame⟩ := digestPreimage_eq_ok_iff.mp hSecond
  obtain ⟨hDomain, rfl⟩ := label_append_inj hSame
  rw [encode_eq_ok_iff_decode] at hValue hOther
  rw [hValue, Except.ok.injEq] at hOther
  exact ⟨hDomain, hOther⟩

end Protocol
end RootPermit
