import RootPermit.Foundation.Run
import RootPermit.Hosted.Runtime
import RootPermit.Web.ApprovalPage

/-!
# Ceremonies of a page

This module embeds `service/web/src/webauthn-ceremony.ts`: the contexts that are taken
from verified requests, and the options that a browser is given for a ceremony.

A page verifies requests and takes contexts from them, in any order.  Both kinds of
objects are frozen and are known by their places in the lists of their kind.

* `PageSession.Coherent.step` — requests stay bound and contexts stay those of a request;
* `browserCeremonyRequest_eq_ok_iff` — when a ceremony is offered, and which one;
* `ceremony_bound_iff` — for which requests and contexts it belongs to the request.
-/

namespace RootPermit
namespace Web

open Foundation

/-! ### Contexts -/

structure VerifiedApprovalContext where
  decision : Decision
  requestId : Text
  requestDigest : Bytes
  deviceId : Text
  policyId : Text
  policyVersion : Double
  expiresAtUnixMs : Double
  contextDigest : Bytes
  webauthnChallenge : Bytes
  deriving DecidableEq, Repr

/-- A context with the place of the request that it was taken from, which the page does
not keep. -/
structure TakenContext where
  context : VerifiedApprovalContext
  source : Nat
  deriving DecidableEq, Repr

/-- The requests that were verified in a page and the contexts that were taken. -/
structure PageSession where
  verifiedRequests : List VerifiedBrokerRequest := []
  verifiedContexts : List TakenContext := []
  deriving DecidableEq, Repr

/-- The context of a request for a decision. -/
def contextOf (request : VerifiedBrokerRequest) (decision : Decision) :
    VerifiedApprovalContext :=
  let context := request.webauthn.contexts.get decision
  { decision
    requestId := context.requestId
    requestDigest := context.requestDigest
    deviceId := context.deviceId
    policyId := context.policyId
    policyVersion := context.policyVersion
    expiresAtUnixMs := context.expiresAtUnixMs
    contextDigest := context.contextDigest
    webauthnChallenge := context.webauthnChallenge }

def approvalContextFromVerifiedRequest (session : PageSession) (request : Nat)
    (decision : Decision) (nowUnixMs : Double) :
    Except WebError VerifiedApprovalContext := do
  let request ← assertVerifiedBrokerRequest session.verifiedRequests request
  rejectIf (request.expiresAtUnixMs.le nowUnixMs = true)
    (.ceremonyUnavailable .requestExpired)
  return contextOf request decision

/-! ### Ceremonies -/

structure CredentialDescriptor where
  type : Text
  id : Bytes
  deriving DecidableEq, Repr

/-- The `publicKey` member of the options. -/
structure BrowserCeremonyRequest where
  challenge : Bytes
  rpId : Text
  timeout : Double
  userVerification : Text
  allowCredentials : List CredentialDescriptor
  deriving DecidableEq, Repr

def boundedTimeout (remainingMs : Double) : Double :=
  Double.max (.finite 1000) (Double.min remainingMs (.finite 120000))

/-- The six-bit value of a symbol of either alphabet. -/
def base64Sextet (unit : UInt16) : Option Nat :=
  if unit = 0x2b then some 62
  else if unit = 0x2f then some 63
  else if unit < 0x80 then Base64Url.sextet? unit.toUInt8
  else none

/-- `Buffer.from(base64, "base64")` passes over characters that are no symbols, which
padding is not. -/
def base64UrlBytes (value : Text) : Except WebError Bytes := do
  let base64 := value.map fun unit =>
    if unit = 0x2d then 0x2b else if unit = 0x5f then 0x2f else unit
  let bytes := Hosted.M3.bufferFromBase64Url (base64.filterMap base64Sextet)
  rejectIf (bytes.length ≠ 16) (.error "pinned credential id must decode to 16 bytes")
  return bytes

def pinnedDescriptor (credential : BrokerPinnedCredential) :
    Except WebError CredentialDescriptor := do
  let id ← base64UrlBytes credential.id
  return { type := literal "public-key", id }

def browserCeremonyRequest (session : PageSession) (request context : Nat)
    (browserOrigin : Text) (nowUnixMs : Double) :
    Except WebError BrowserCeremonyRequest := do
  let request ← assertVerifiedBrokerRequest session.verifiedRequests request
  let taken ← orFault (.error "approval context is not verified")
    session.verifiedContexts[context]?
  let context := taken.context
  rejectIf (context.expiresAtUnixMs.le nowUnixMs = true)
    (.ceremonyUnavailable .requestExpired)
  rejectIf (browserOrigin ≠ request.webauthn.origin)
    (.ceremonyUnavailable .webauthnOriginMismatch)
  let credentials ← request.webauthn.credentials.mapM pinnedDescriptor
  return { challenge := context.webauthnChallenge
           rpId := request.webauthn.rpId
           timeout := boundedTimeout (context.expiresAtUnixMs.sub nowUnixMs)
           userVerification := literal "required"
           allowCredentials := credentials }

/-! ### The session of a page -/

inductive Action where
  | verifyBrokerEnvelope (envelope : Bytes) (verifier : BrokerEnvelopeVerifier)
  | approvalContextFromVerifiedRequest (request : Nat) (decision : Decision)
      (nowUnixMs : Double)

/-- The session after an action; one that throws leaves it as it was. -/
def PageSession.step [UrlParser] (session : PageSession) : Action → PageSession
  | .verifyBrokerEnvelope envelope verifier =>
      match Web.verifyBrokerEnvelope envelope verifier with
      | .ok request =>
          { session with verifiedRequests := session.verifiedRequests ++ [request] }
      | .error _ => session
  | .approvalContextFromVerifiedRequest request decision nowUnixMs =>
      match Web.approvalContextFromVerifiedRequest session request decision nowUnixMs with
      | .ok context =>
          { session with
            verifiedContexts :=
              session.verifiedContexts ++ [{ context, source := request }] }
      | .error _ => session

/-- Every request is bound, and every context is that of the request it was taken
from. -/
structure PageSession.Coherent (session : PageSession) : Prop where
  requests : ∀ request ∈ session.verifiedRequests, Bound request
  contexts : ∀ taken ∈ session.verifiedContexts,
    ∃ source, session.verifiedRequests[taken.source]? = some source ∧
      taken.context = contextOf source taken.context.decision

theorem PageSession.Coherent.step [UrlParser] {session : PageSession} {action : Action}
    (h : session.Coherent) : (session.step action).Coherent := by
  cases action with
  | verifyBrokerEnvelope envelope verifier =>
      rw [PageSession.step]
      split
      · rename_i request hVerified
        refine ⟨?_, ?_⟩
        · exact List.forall_mem_append.mpr
            ⟨h.requests, List.forall_mem_singleton.mpr (verifyBrokerEnvelope_bound hVerified)⟩
        · intro taken hTaken
          obtain ⟨source, hSource, hContext⟩ := h.contexts taken hTaken
          refine ⟨source, ?_, hContext⟩
          show (session.verifiedRequests ++ [request])[taken.source]? = some source
          rw [List.getElem?_append_left (List.getElem?_eq_some_iff.mp hSource).1, hSource]
      · exact h
  | approvalContextFromVerifiedRequest request decision nowUnixMs =>
      rw [PageSession.step]
      split
      · rename_i context hTaken
        simp only [approvalContextFromVerifiedRequest, assertVerifiedBrokerRequest,
          bind_eq_ok_iff, orFault_eq_ok_iff, rejectIf_eq_ok_iff, pure_eq_ok,
          Except.ok.injEq] at hTaken
        obtain ⟨source, hSource, _, -, rfl⟩ := hTaken
        refine ⟨h.requests, ?_⟩
        exact List.forall_mem_append.mpr
          ⟨h.contexts, List.forall_mem_singleton.mpr ⟨source, hSource, rfl⟩⟩
      · exact h

theorem PageSession.Coherent.run [UrlParser] (actions : List Action) :
    (run PageSession.step {} actions).Coherent := by
  have hEmpty : PageSession.Coherent {} :=
    ⟨fun _ hRequest => absurd hRequest List.not_mem_nil,
      fun _ hTaken => absurd hTaken List.not_mem_nil⟩
  exact run_invariant hEmpty (fun _ _ hSession => hSession.step) actions

/-! ### Credentials -/

theorem length_bufferFromBase64Url (sextets : List Nat) :
    (Hosted.M3.bufferFromBase64Url sextets).length = sextets.length * 3 / 4 := by
  induction sextets using Hosted.M3.bufferFromBase64Url.induct with
  | case1 a b c d rest ih =>
      simp only [Hosted.M3.bufferFromBase64Url, List.length_cons, ih]
      omega
  | case2 a b c => simp [Hosted.M3.bufferFromBase64Url]
  | case3 a b => simp [Hosted.M3.bufferFromBase64Url]
  | case4 rest h1 h2 h3 =>
      match rest with
      | [] => rfl
      | [a] => simp [Hosted.M3.bufferFromBase64Url]
      | [a, b] => exact absurd rfl (h3 a b)
      | [a, b, c] => exact absurd rfl (h2 a b c)
      | a :: b :: c :: d :: others => exact absurd rfl (h1 a b c d others)

/-- The characters of a public id are symbols. -/
theorem base64Sextet_isSome {value : Text} {unit : UInt16} (h : isPublicId value = true)
    (hUnit : unit ∈ value) :
    (base64Sextet (if unit = 0x2d then 0x2b else if unit = 0x5f then 0x2f else unit)).isSome =
      true := by
  have hAll : ∀ number < 128, (isUppercase (UInt16.ofNat number) ||
      isLowercase (UInt16.ofNat number) || isDigit (UInt16.ofNat number) ||
      UInt16.ofNat number == 0x5f || UInt16.ofNat number == 0x2d) = true →
      (base64Sextet (if UInt16.ofNat number = 0x2d then 0x2b
        else if UInt16.ofNat number = 0x5f then 0x2f else UInt16.ofNat number)).isSome =
          true := by
    decide +kernel
  rw [isPublicId, Bool.and_eq_true, List.all_eq_true] at h
  have hClass := h.2 unit hUnit
  have hSmall : unit.toNat < 128 := by
    simp only [isUppercase, isLowercase, isDigit, Bool.or_eq_true, decide_eq_true_eq,
      beq_iff_eq, UInt16.le_iff_toNat_le, ← UInt16.toNat_inj] at hClass
    simp at hClass
    omega
  have hUnit := hAll unit.toNat hSmall
  rw [UInt16.ofNat_toNat] at hUnit
  exact hUnit hClass

/-- The id of a credential of a verified request is decoded. -/
theorem pinnedDescriptor_isOk {credential : BrokerPinnedCredential}
    (h : isPublicId credential.id = true) :
    ∃ descriptor, pinnedDescriptor credential = .ok descriptor := by
  have hLength : credential.id.length = 22 := by
    rw [isPublicId, Bool.and_eq_true] at h
    exact of_decide_eq_true h.1
  have hAll : ((credential.id.map fun unit => if unit = 0x2d then 0x2b
      else if unit = 0x5f then 0x2f else unit).filterMap base64Sextet).length = 22 := by
    rw [← hLength, List.filterMap_map, List.filterMap_length_eq_length]
    intro unit hUnit
    exact base64Sextet_isSome h hUnit
  refine ⟨_, bind_eq_ok_iff.mpr ⟨_, bind_eq_ok_iff.mpr ⟨(), ?_, rfl⟩, rfl⟩⟩
  rw [rejectIf_eq_ok_iff, length_bufferFromBase64Url, hAll]
  decide

/-! ### Which ceremonies are offered -/

/-- A ceremony is offered to a request before the context expires and at the
request's origin; its challenge is that of the context. -/
theorem browserCeremonyRequest_eq_ok_iff {session : PageSession} {request context : Nat}
    {verified : VerifiedBrokerRequest} {taken : TakenContext} {origin : Text}
    {now : Double} {options : BrowserCeremonyRequest}
    (hRequest : session.verifiedRequests[request]? = some verified)
    (hContext : session.verifiedContexts[context]? = some taken) :
    browserCeremonyRequest session request context origin now = .ok options ↔
      taken.context.expiresAtUnixMs.le now = false ∧ origin = verified.webauthn.origin ∧
        ∃ descriptors,
          verified.webauthn.credentials.mapM pinnedDescriptor = .ok descriptors ∧
          options =
            { challenge := taken.context.webauthnChallenge
              rpId := verified.webauthn.rpId
              timeout := boundedTimeout (taken.context.expiresAtUnixMs.sub now)
              userVerification := literal "required"
              allowCredentials := descriptors } := by
  simp only [browserCeremonyRequest, assertVerifiedBrokerRequest, hRequest, hContext,
    orFault, ok_bind, bind_eq_ok_iff, rejectIf_eq_ok_iff, not_not, Bool.not_eq_true,
    pure_eq_ok, Except.ok.injEq]
  constructor
  · rintro ⟨_, hTime, _, hOrigin, descriptors, hDescriptors, rfl⟩
    exact ⟨hTime, hOrigin, descriptors, hDescriptors, rfl⟩
  · rintro ⟨hTime, hOrigin, descriptors, hDescriptors, rfl⟩
    exact ⟨(), hTime, (), hOrigin, descriptors, hDescriptors, rfl⟩

/-- The context and the options of a ceremony belong to a request. -/
structure BoundCeremony (request : VerifiedBrokerRequest)
    (context : VerifiedApprovalContext) (origin : Text) (now : Double)
    (options : BrowserCeremonyRequest) : Prop where
  requestId : context.requestId = request.requestId
  requestDigest : context.requestDigest = request.requestDigest
  challenge : options.challenge =
    (request.webauthn.contexts.get context.decision).webauthnChallenge
  rpId : options.rpId = request.webauthn.rpId
  allowCredentials :
    request.webauthn.credentials.mapM pinnedDescriptor = .ok options.allowCredentials
  origin : origin = request.webauthn.origin
  inTime : now.lt request.expiresAtUnixMs = true

/-- The request has the id and the digest of the other and the same challenge for the
decision. -/
structure Matches (source request : VerifiedBrokerRequest) (decision : Decision) :
    Prop where
  requestId : source.requestId = request.requestId
  requestDigest : source.requestDigest = request.requestDigest
  challenge : (source.webauthn.contexts.get decision).webauthnChallenge =
    (request.webauthn.contexts.get decision).webauthnChallenge

/-- In every page, a ceremony belongs to the request it is offered to exactly when it is
not offered, because the context has expired or the origin is another one, or when the
request that the context was taken from matches that request and the clock shows a time
before its expiry. -/
theorem ceremony_bound_iff [UrlParser] (actions : List Action) (request context : Nat)
    (origin : Text) (now : Double) (verified source : VerifiedBrokerRequest)
    (taken : TakenContext) :
    let session := run PageSession.step {} actions
    session.verifiedRequests[request]? = some verified →
    session.verifiedContexts[context]? = some taken →
    session.verifiedRequests[taken.source]? = some source →
    ((∀ options,
        browserCeremonyRequest session request context origin now = .ok options →
        BoundCeremony verified taken.context origin now options) ↔
      source.expiresAtUnixMs.le now = true ∨ origin ≠ verified.webauthn.origin ∨
        (Matches source verified taken.context.decision ∧
          now.lt verified.expiresAtUnixMs = true)) := by
  intro session hRequest hContext hSource
  have hCoherent : session.Coherent := PageSession.Coherent.run actions
  have hVerified := hCoherent.requests verified (List.mem_of_getElem? hRequest)
  have hBound := (hCoherent.requests source (List.mem_of_getElem? hSource)).context
    taken.context.decision
  obtain ⟨found, hFound, hTaken⟩ :=
    hCoherent.contexts taken (List.mem_of_getElem? hContext)
  obtain rfl : source = found := Option.some.inj (hSource.symm.trans hFound)
  -- The fields of the context are those of the request that it was taken from.
  have hId : taken.context.requestId = source.requestId := by
    rw [hTaken]
    exact hBound.requestId
  have hDigest : taken.context.requestDigest = source.requestDigest := by
    rw [hTaken]
    exact hBound.requestDigest
  have hExpiry : taken.context.expiresAtUnixMs = source.expiresAtUnixMs := by
    rw [hTaken]
    exact hBound.expiresAtUnixMs
  have hChallenge : taken.context.webauthnChallenge =
      (source.webauthn.contexts.get taken.context.decision).webauthnChallenge := by
    rw [hTaken]
    rfl
  simp only [browserCeremonyRequest_eq_ok_iff hRequest hContext, hExpiry]
  constructor
  · intro h
    by_cases hLate : source.expiresAtUnixMs.le now = true
    · exact .inl hLate
    by_cases hOrigin : origin = verified.webauthn.origin
    · obtain ⟨descriptors, hDescriptors⟩ := exists_mapM_eq_ok fun credential hCredential =>
        pinnedDescriptor_isOk (hVerified.credentials credential hCredential)
      have hCeremony := h _ ⟨by simpa using hLate, hOrigin, descriptors, hDescriptors, rfl⟩
      exact .inr (.inr ⟨⟨hId.symm.trans hCeremony.requestId,
        hDigest.symm.trans hCeremony.requestDigest,
        hChallenge.symm.trans hCeremony.challenge⟩, hCeremony.inTime⟩)
    · exact .inr (.inl hOrigin)
  · rintro h options ⟨hEarly, hOrigin, descriptors, hDescriptors, rfl⟩
    rcases h with hLate | hOther | ⟨hMatches, hInTime⟩
    · rw [hEarly] at hLate
      cases hLate
    · exact absurd hOrigin hOther
    · exact {
        requestId := hId.trans hMatches.requestId
        requestDigest := hDigest.trans hMatches.requestDigest
        challenge := hChallenge.trans hMatches.challenge
        rpId := rfl
        allowCredentials := hDescriptors
        origin := hOrigin
        inTime := hInTime }

/-- With a context of its own a request gets a ceremony that belongs to it, on every
clock that shows a time. -/
theorem own_context_bound [UrlParser] {actions : List Action} {request context : Nat}
    {origin : Text} {now : Double} {verified : VerifiedBrokerRequest}
    {taken : TakenContext} {options : BrowserCeremonyRequest} (hNow : now ≠ .nan)
    (hOwn : taken.source = request) :
    let session := run PageSession.step {} actions
    session.verifiedRequests[request]? = some verified →
    session.verifiedContexts[context]? = some taken →
    browserCeremonyRequest session request context origin now = .ok options →
    BoundCeremony verified taken.context origin now options := by
  intro session hRequest hContext hOptions
  have hCoherent : session.Coherent := PageSession.Coherent.run actions
  obtain ⟨time, hTime⟩ :=
    (hCoherent.requests verified (List.mem_of_getElem? hRequest)).expires
  by_cases hLate : verified.expiresAtUnixMs.le now = true
  · exact (ceremony_bound_iff actions request context origin now verified verified taken
      hRequest hContext (hOwn ▸ hRequest)).mpr (.inl hLate) options hOptions
  · have hInTime : now.lt verified.expiresAtUnixMs = true := by
      rw [hTime] at hLate ⊢
      exact Double.lt_iff_not_le.mpr ⟨by simpa using hLate, hNow, nofun⟩
    exact (ceremony_bound_iff actions request context origin now verified verified taken
      hRequest hContext (hOwn ▸ hRequest)).mpr
        (.inr (.inr ⟨⟨rfl, rfl, rfl⟩, hInTime⟩)) options hOptions

/-! ### Two requests in one page -/

def sampleOrigin : Text := literal "https://rootpermit.example"

abbrev sampleUrlParser : UrlParser where
  parse value :=
    if value = sampleOrigin then
      some { protocol := literal "https:", pathname := literal "/", search := [], hash := [] }
    else none

def sampleContext (requestId : Text) (decision : Decision) (fill : UInt8) :
    BrokerApprovalContext where
  requestId
  requestDigest := List.replicate 32 fill
  deviceId := literal "AQEBAQEBAQEBAQEBAQEBAQ"
  policyId := literal "default-install"
  policyVersion := .finite 12
  expiresAtUnixMs := .finite 1800000300000
  decision
  contextDigest := List.replicate 32 (fill + if decision = .approve then 1 else 2)
  webauthnChallenge := List.replicate 32 (fill + if decision = .approve then 3 else 4)

/-- Claims that differ in the request id and in all digests and challenges. -/
def sampleClaims (requestId : Text) (fill : UInt8) : BrokerRequestClaims where
  requestId
  requestDigest := List.replicate 32 fill
  device := { id := literal "AQEBAQEBAQEBAQEBAQEBAQ", displayName := literal "build-vm-01" }
  policy := { id := literal "default-install", version := .finite 12 }
  expiresAtUnixMs := .finite 1800000300000
  consequences :=
    { target := { name := literal "ffmpeg", version := literal "7:6.1.1-3ubuntu5" }
      dependencies := []
      removals := []
      downgrades := []
      origin := literal "Ubuntu noble / amd64"
      archiveBytes := .finite 42000000
      diskBytes := .finite 94000000 }
  agentNote := none
  webauthn :=
    { rpId := literal "rootpermit.example"
      origin := sampleOrigin
      credentials := [{ id := literal "AgICAgICAgICAgICAgICAg", algorithm := literal "ES256" }]
      contexts :=
        { approve := some (sampleContext requestId .approve fill)
          deny := some (sampleContext requestId .deny fill) } }

def firstId : Text := literal "AAAAAAAAAAAAAAAAAAAAAA"

def secondId : Text := literal "BAAAAAAAAAAAAAAAAAAAAA"

/-- Two requests are verified, and a context is taken from the first. -/
def sampleActions : List Action :=
  [.verifyBrokerEnvelope [0xd2, 0x84] fun _ => .ok (sampleClaims firstId 10),
    .verifyBrokerEnvelope [0xd2, 0x85] fun _ => .ok (sampleClaims secondId 20),
    .approvalContextFromVerifiedRequest 0 .approve (.finite 1800000000000)]

/-- The request that is made of the claims. -/
def sampleVerified (requestId : Text) (fill : UInt8) : VerifiedBrokerRequest :=
  { sampleClaims requestId fill with
    webauthn :=
      { (sampleClaims requestId fill).webauthn with
        contexts :=
          { approve := sampleContext requestId .approve fill
            deny := sampleContext requestId .deny fill } } }

def sampleSession : PageSession where
  verifiedRequests := [sampleVerified firstId 10, sampleVerified secondId 20]
  verifiedContexts :=
    [{ context := contextOf (sampleVerified firstId 10) .approve, source := 0 }]

theorem run_sampleActions :
    let _ : UrlParser := sampleUrlParser
    run PageSession.step {} sampleActions = sampleSession := by
  decide +kernel

theorem ceremony_bound_iff_sample :
    let _ : UrlParser := sampleUrlParser
    let session := run PageSession.step {} sampleActions
    ∀ options, browserCeremonyRequest session 0 0 sampleOrigin (.finite 1800000000001) =
        .ok options →
      BoundCeremony (sampleVerified firstId 10)
        (contextOf (sampleVerified firstId 10) .approve) sampleOrigin
        (.finite 1800000000001) options := by
  intro parser session
  have hSession : session = sampleSession := run_sampleActions
  have hRequest : session.verifiedRequests[0]? = some (sampleVerified firstId 10) := by
    rw [hSession]
    rfl
  have hContext : session.verifiedContexts[0]? =
      some { context := contextOf (sampleVerified firstId 10) .approve, source := 0 } := by
    rw [hSession]
    rfl
  exact (ceremony_bound_iff sampleActions 0 0 sampleOrigin (.finite 1800000000001)
    (sampleVerified firstId 10) (sampleVerified firstId 10)
    { context := contextOf (sampleVerified firstId 10) .approve, source := 0 } hRequest
    hContext hRequest).mpr (.inr (.inr ⟨⟨rfl, rfl, rfl⟩, by decide +kernel⟩))

/-- The second request is offered a ceremony with the challenge of the first. -/
theorem foreign_context_is_accepted :
    let _ : UrlParser := sampleUrlParser
    let session := run PageSession.step {} sampleActions
    ∃ verified taken options, session.verifiedRequests[1]? = some verified ∧
      session.verifiedContexts[0]? = some taken ∧
      browserCeremonyRequest session 1 0 sampleOrigin (.finite 1800000000001) =
        .ok options ∧
      ¬ BoundCeremony verified taken.context sampleOrigin (.finite 1800000000001)
        options := by
  intro parser session
  have hSession : session = sampleSession := run_sampleActions
  have hOffered : (browserCeremonyRequest sampleSession 1 0 sampleOrigin
      (.finite 1800000000001)).toOption.isSome = true := by decide +kernel
  cases hOptions : browserCeremonyRequest sampleSession 1 0 sampleOrigin
      (.finite 1800000000001) with
  | error fault =>
      rw [hOptions] at hOffered
      cases hOffered
  | ok options =>
      refine ⟨sampleVerified secondId 20,
        { context := contextOf (sampleVerified firstId 10) .approve, source := 0 },
        options, ?_, ?_, ?_, ?_⟩
      · rw [hSession]
        rfl
      · rw [hSession]
        rfl
      · rw [hSession, hOptions]
      · intro hBound
        have hOther : firstId ≠ secondId := by decide +kernel
        exact hOther hBound.requestId

end Web
end RootPermit
