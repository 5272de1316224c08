import Mathlib.Data.Set.Function
import RootPermit.Foundation.Sha256
import RootPermit.Protocol.SchemaRoundTrip

/-!
# Separation of digests

Equal digests come from equal messages under equal domains, as far as the hash
function does not collide on the bytes that are hashed.  A collision-free hash
does not exist on all byte strings, so the assumption is made on a set of
preimages: those that the parties have hashed.
-/

namespace RootPermit
namespace Protocol

open Foundation

section Separation

variable [Cryptography]

/-- The bytes hashed for a value under a domain, if it can be encoded, are among
the preimages considered. -/
def HashedIn (preimages : Set Bytes) (domain : Domain) (value : CborValue) : Prop :=
  ∀ preimage, digestPreimage domain value = .ok preimage → preimage ∈ preimages

theorem digestCbor_inj {preimages : Set Bytes}
    (hInjective : Set.InjOn sha256 preimages) {domain domain' : Domain}
    {value value' : CborValue} {digest : Digest}
    (hValue : HashedIn preimages domain value)
    (hValue' : HashedIn preimages domain' value')
    (hDigest : digestCbor domain value = .ok digest)
    (hDigest' : digestCbor domain' value' = .ok digest) :
    domain = domain' ∧ normalize value = normalize value' := by
  obtain ⟨preimage, hPreimage, rfl⟩ := digestCbor_eq_ok_iff.mp hDigest
  obtain ⟨preimage', hPreimage', hSame⟩ := digestCbor_eq_ok_iff.mp hDigest'
  have hEq : preimage = preimage' :=
    hInjective (hValue preimage hPreimage) (hValue' preimage' hPreimage') hSame
  subst hEq
  exact digestPreimage_inj hPreimage hPreimage'

theorem webauthnChallenge_eq_ok {context : ApprovalContext} {challenge : Digest}
    (h : context.webauthnChallenge = .ok challenge) :
    ApprovalContext.layout.Valid context ∧
      digestCbor .webAuthnChallenge context.toCbor = .ok challenge := by
  simp only [ApprovalContext.webauthnChallenge, digestWith, bind_eq_ok_iff,
    mapError_eq_ok_iff, ApprovalContext.validate, validateWith,
    ApprovalContext.fromCbor_toCbor_iff] at h
  obtain ⟨_, ⟨_, ⟨-, hValid⟩, -⟩, hDigest⟩ := h
  exact ⟨hValid, hDigest⟩

omit [Cryptography] in
theorem approvalContext_toCbor_inj {context context' : ApprovalContext}
    (hValid : ApprovalContext.layout.Valid context)
    (h : context.toCbor = context'.toCbor) : context = context' := by
  have hRead : ApprovalContext.fromCbor context.toCbor = .ok context :=
    ApprovalContext.fromCbor_toCbor_iff.mpr ⟨rfl, hValid⟩
  rw [h] at hRead
  exact (ApprovalContext.fromCbor_toCbor_iff.mp hRead).1

theorem webauthnChallenge_inj {preimages : Set Bytes}
    (hInjective : Set.InjOn sha256 preimages)
    {context context' : ApprovalContext} {challenge : Digest}
    (hContext : HashedIn preimages .webAuthnChallenge context.toCbor)
    (hContext' : HashedIn preimages .webAuthnChallenge context'.toCbor)
    (h : context.webauthnChallenge = .ok challenge)
    (h' : context'.webauthnChallenge = .ok challenge) : context = context' := by
  obtain ⟨hValid, hDigest⟩ := webauthnChallenge_eq_ok h
  obtain ⟨-, hDigest'⟩ := webauthnChallenge_eq_ok h'
  obtain ⟨-, hSame⟩ :=
    digestCbor_inj hInjective hContext hContext' hDigest hDigest'
  rw [context.normalize_toCbor, context'.normalize_toCbor] at hSame
  exact approvalContext_toCbor_inj hValid hSame

/-- Preimages determine the domain and, up to the order of map entries, the
value.  So, where SHA-256 is injective on the preimages considered, a WebAuthn
challenge determines every field of its context, the decision included, and is
no digest of any value under another domain. -/
theorem digest_separation {preimages : Set Bytes}
    (hInjective : Set.InjOn sha256 preimages) :
    (∀ (first second : Domain) (value value' : CborValue) (encoded encoded' : Bytes),
      encode value = .ok encoded → encode value' = .ok encoded' →
      first.label ++ encoded = second.label ++ encoded' →
      first = second ∧ Reordered value value') ∧
    (∀ (context context' : ApprovalContext) (challenge : Digest),
      HashedIn preimages .webAuthnChallenge context.toCbor →
      HashedIn preimages .webAuthnChallenge context'.toCbor →
      context.webauthnChallenge = .ok challenge →
      context'.webauthnChallenge = .ok challenge → context = context') ∧
    (∀ (context : ApprovalContext) (challenge : Digest) (other : Domain)
      (value : CborValue) (digest : Digest), other ≠ .webAuthnChallenge →
      HashedIn preimages .webAuthnChallenge context.toCbor →
      HashedIn preimages other value →
      context.webauthnChallenge = .ok challenge →
      digestCbor other value = .ok digest → challenge ≠ digest) := by
  refine ⟨?_, ?_, ?_⟩
  · intro first second value value' encoded encoded' hValue hValue' hSame
    have hFirst : digestPreimage first value = .ok (first.label ++ encoded) :=
      digestPreimage_eq_ok_iff.mpr ⟨encoded, hValue, rfl⟩
    have hSecond : digestPreimage second value' = .ok (first.label ++ encoded) :=
      digestPreimage_eq_ok_iff.mpr ⟨encoded', hValue', hSame⟩
    obtain ⟨hDomain, hNormal⟩ := digestPreimage_inj hFirst hSecond
    exact ⟨hDomain, reordered_of_normalize_eq hNormal⟩
  · intro context context' challenge hContext hContext' h h'
    exact webauthnChallenge_inj hInjective hContext hContext' h h'
  · intro context challenge other value digest hOther hContext hValue hChallenge
      hDigest hSame
    subst hSame
    obtain ⟨-, hOwn⟩ := webauthnChallenge_eq_ok hChallenge
    obtain ⟨hDomain, -⟩ := digestCbor_inj hInjective hContext hValue hOwn hDigest
    exact hOther hDomain.symm

end Separation

/-- The context of the two decisions on one request. -/
def sampleContext (decision : Decision) : ApprovalContext where
  requestId := ByteArr.fill 16 1
  deviceId := ByteArr.fill 16 2
  brokerEpoch := 3
  requestDigest := ByteArr.fill 32 4
  generation := 5
  nonce := ByteArr.fill 32 6
  rpId := "rootpermit.test"
  origin := "https://rootpermit.test"
  decision := decision
  expiresUtc := 7

/-- The preimage of the challenge of one decision. -/
def samplePreimage (decision : Decision) : Bytes :=
  Domain.webAuthnChallenge.label ++ referenceEncoding (sampleContext decision).toCbor

theorem samplePreimage_eq (decision : Decision) :
    digestPreimage .webAuthnChallenge (sampleContext decision).toCbor =
      .ok (samplePreimage decision) := by
  cases decision <;> decide +kernel

/-- SHA-256 does not collide on the two challenges of the sample request, which
are therefore different. -/
theorem digest_separation_sample :
    Set.InjOn Sha256.hash {samplePreimage .approve, samplePreimage .deny} ∧
      @ApprovalContext.webauthnChallenge keyedHashCryptography
          (sampleContext .approve) ≠
        @ApprovalContext.webauthnChallenge keyedHashCryptography
          (sampleContext .deny) := by
  have hDistinct : Sha256.hash (samplePreimage .approve) ≠
      Sha256.hash (samplePreimage .deny) := by
    decide +kernel
  have hInjective : Set.InjOn Sha256.hash
      {samplePreimage .approve, samplePreimage .deny} := by
    rw [Set.injOn_pair]
    intro hSame
    exact absurd hSame hDistinct
  refine ⟨hInjective, ?_⟩
  intro hSame
  let _ : Cryptography := keyedHashCryptography
  have hHashed : ∀ decision, HashedIn
      {samplePreimage .approve, samplePreimage .deny} .webAuthnChallenge
      (sampleContext decision).toCbor := by
    intro decision preimage hPreimage
    rw [samplePreimage_eq, Except.ok.injEq] at hPreimage
    subst hPreimage
    cases decision with
    | approve => exact .inl rfl
    | deny => exact .inr rfl
  cases hChallenge : (sampleContext .approve).webauthnChallenge with
  | error fault =>
      have hOk : (sampleContext .approve).webauthnChallenge.isOk = true := by
        decide +kernel
      rw [hChallenge] at hOk
      cases hOk
  | ok challenge =>
      have hContexts : sampleContext .approve = sampleContext .deny :=
        (digest_separation hInjective).2.1 _ _ challenge (hHashed .approve)
          (hHashed .deny) hChallenge (hSame ▸ hChallenge)
      cases congrArg ApprovalContext.decision hContexts

end Protocol
end RootPermit
