import RootPermit.Foundation.Double
import RootPermit.Foundation.Segment
import RootPermit.Hosted.Projection

/-!
# The runtime of the hosted service

This module embeds `M3Runtime` of `m3-runtime.ts`.  A route of `handle` runs in
segments, one from each `await` to the next; the trusted calls are single segments.
What a segment reads of the clock and of the random source comes with it, and what
the injected functions give back comes with the resumption: all of it is arbitrary.

The maps of the runtime are tables.  A route that holds an entry across an `await`
names it by its key, since entries of `pairings`, `credentials` and `requests` are
neither replaced nor removed.
-/

namespace RootPermit
namespace Hosted
namespace M3

open Foundation

def MAX_RELAY_BYTES : Nat := 262144

def SESSION_TTL_MS : Double := .ofInt (8 * 60 * 60 * 1000)

/-! ### The state -/

structure AccountIdentity where
  tenantId : String
  accountId : String
  deriving DecidableEq, Repr

structure Session extends AccountIdentity where
  token : String
  csrfToken : String
  expiresAt : Double
  deriving DecidableEq, Repr

structure Pairing where
  id : String
  devicePublicId : String
  brokerKeyDigest : Digest
  nonceDigest : Digest
  comparisonCodeDigest : Digest
  expiresAt : Double
  claimedBy : Option AccountIdentity
  rootConfirmed : Bool
  webConfirmed : Bool
  consumed : Bool
  deriving DecidableEq, Repr

inductive EnrollmentState where
  | active
  | approvalLocked
  deriving DecidableEq, Repr

structure Device where
  publicId : String
  tenantId : String
  displayName : String
  enrollmentState : EnrollmentState
  deriving DecidableEq, Repr

structure Credential where
  publicId : String
  tenantId : String
  devicePublicId : String
  generation : Number
  quarantined : Bool
  deriving DecidableEq, Repr

inductive RequestProjection where
  | pending
  | approved
  | denied
  | frozenGap
  | terminal
  deriving DecidableEq, Repr

structure RequestRecord where
  publicId : String
  tenantId : String
  devicePublicId : String
  envelope : Bytes
  expiresAt : Double
  projection : RequestProjection
  deriving DecidableEq, Repr

inductive RelayDirection where
  | brokerToService
  | serviceToBroker
  deriving DecidableEq, Repr

inductive RelayKind where
  | decisionSubmission
  | revocationEvent
  deriving DecidableEq, Repr

/-- A message of a mailbox; those of the inbox are stored without a kind. -/
structure RelayMessage where
  direction : RelayDirection
  kind : Option RelayKind
  envelopeId : String
  idempotencyKey : String
  payload : Bytes
  deriving DecidableEq, Repr

structure M3Runtime where
  officialOrigin : String
  sessions : List Session := []
  pairings : List Pairing := []
  devices : List Device := []
  credentials : List Credential := []
  requests : List RequestRecord := []
  relayInbox : List (String × RelayMessage) := []
  relayOutbox : List RelayMessage := []
  deriving DecidableEq, Repr

def M3Runtime.credential? (runtime : M3Runtime) (publicId : String) :
    Option Credential :=
  Table.lookup Credential.publicId publicId runtime.credentials

def M3Runtime.request? (runtime : M3Runtime) (publicId : String) :
    Option RequestRecord :=
  Table.lookup RequestRecord.publicId publicId runtime.requests

/-! ### Requests and responses -/

/-- A value of a JSON document. -/
inductive Json where
  | null
  | bool (value : Bool)
  | number (value : Double)
  | string (value : String)
  | array (items : List Json)
  | object (fields : List (String × Json))
  deriving Repr

/-- How a number is shown in a document: what is not finite, as `null`. -/
def Json.ofNumber : Double → Json
  | .finite value => .number (.finite value)
  | _ => .null

structure Request where
  method : String
  pathname : String
  origin : Option String
  csrf : Option String
  cookie : Option String
  deriving DecidableEq, Repr

structure Response where
  status : Nat
  headers : List (String × String)
  body : Option Json
  deriving Repr

def secureHeaders : List (String × String) :=
  [("cache-control", "no-store"),
    ("content-security-policy", "default-src 'self'; base-uri 'none'; " ++
      "frame-ancestors 'none'; form-action 'self'"),
    ("x-content-type-options", "nosniff"),
    ("referrer-policy", "no-referrer")]

def json (value : Json) (status : Nat) (headers : List (String × String)) :
    Response where
  status
  headers := secureHeaders ++
    ("content-type", "application/problem+json; charset=utf-8") :: headers
  body := some value

def problem (status : Nat) (code detail : String) : Response :=
  json (.object [("type", .string ("https://rootpermit.example/problems/" ++ code)),
    ("title", .string code), ("status", .number (.ofInt status)),
    ("detail", .string detail)]) status []

/-- The response to an error with this message. -/
def mapError (code : String) : Response :=
  if code ∈ ["session_expired", "authentication_failed"] then
    problem 401 code "Sign in is required."
  else if code ∈ ["csrf_failed", "relay_authentication_failed"] then
    problem 403 code "This request was rejected by RootPermit security checks."
  else if code ∈ ["not_found_or_not_authorized", "pairing_mismatch"] then
    problem 404 "not_found_or_not_authorized"
      "The requested RootPermit resource is unavailable."
  else if code ∈ ["credential_quarantined", "request_not_pending",
      "invalid_decision", "pairing_replayed", "request_replayed",
      "credential_limit_reached"] then
    problem 409 code "This RootPermit action is no longer available."
  -- Whatever else was thrown is shown as an invalid input.
  else problem 400 "invalid_input" "RootPermit could not process that request."

def EnrollmentState.text : EnrollmentState → String
  | .active => "active"
  | .approvalLocked => "approval_locked"

def RequestProjection.text : RequestProjection → String
  | .pending => "pending"
  | .approved => "approved"
  | .denied => "denied"
  | .frozenGap => "frozen_gap"
  | .terminal => "terminal"

def RelayKind.text : RelayKind → String
  | .decisionSubmission => "decision_submission"
  | .revocationEvent => "revocation_event"

/-! ### Checks of inputs -/

def requirePublicId (value name : String) : Except String Unit :=
  rejectIf (Broker.isPublicId value = false) (name ++ " is invalid")

def requireBytes (value : Bytes) (length : Nat) (name : String) :
    Except String Unit :=
  rejectIf (value.length ≠ length) (name ++ " is invalid")

def requireOpaqueEnvelope (value : Bytes) (name : String) : Except String Unit :=
  rejectIf (value.length < 1 ∨ MAX_RELAY_BYTES < value.length)
    (name ++ " is invalid")

def jsonObject : Json → Except String (List (String × Json))
  | .object fields => .ok fields
  | _ => .error "invalid_input"

/-- `String.length` of the language: the number of UTF-16 code units. -/
def utf16Length (text : String) : Nat :=
  (text.toList.map fun char => if 0xffff < char.toNat then 2 else 1).sum

def stringField (fields : List (String × Json)) (name : String) (maximum : Nat) :
    Except String String :=
  match Table.lookup Prod.fst name fields with
  | some (_, .string item) =>
      if utf16Length item < 1 ∨ maximum < utf16Length item then
        .error "invalid_input"
      else .ok item
  | _ => .error "invalid_input"

/-- `Buffer.from(text, "base64url")` of a text of base64url symbols: left-over bits
are dropped. -/
def bufferFromBase64Url : List Nat → Bytes
  | a :: b :: c :: d :: rest =>
      let group := a * 262144 + b * 4096 + c * 64 + d
      UInt8.ofNat (group / 65536) :: UInt8.ofNat (group / 256) ::
        UInt8.ofNat group :: bufferFromBase64Url rest
  | [a, b, c] =>
      let group := a * 4096 + b * 64 + c
      [UInt8.ofNat (group / 1024), UInt8.ofNat (group / 4)]
  | [a, b] => [UInt8.ofNat ((a * 64 + b) / 16)]
  | _ => []

def base64UrlField (fields : List (String × Json)) (name : String) (maximum : Nat) :
    Except String Bytes := do
  let text ← stringField fields name ((maximum * 4 + 2) / 3)
  let sextets ← orFault "invalid_input" ((utf8 text).mapM Base64Url.sextet?)
  let bytes := bufferFromBase64Url sextets
  rejectIf (bytes.length < 1 ∨ maximum < bytes.length) "invalid_input"
  return bytes

/-- The characters that `String.trim` of the language removes. -/
def isTrimmed (char : Char) : Bool :=
  decide (char.toNat ∈ [9, 10, 11, 12, 13, 32, 0xa0, 0x1680, 0x2028, 0x2029, 0x202f,
    0x205f, 0x3000, 0xfeff]) ||
    decide (0x2000 ≤ char.toNat ∧ char.toNat ≤ 0x200a)

def trim (text : List Char) : List Char :=
  ((text.dropWhile isTrimmed).reverse.dropWhile isTrimmed).reverse

/-- The value of the first entry of a cookie header with this name. -/
def cookieValue (header : Option String) (name : String) : Option String := do
  let header ← header
  let entry ← ((header.toList.splitOn ';').map trim).find?
    fun part => (name ++ "=").toList.isPrefixOf part
  return String.ofList (entry.drop (name ++ "=").length)

def digest [Cryptography] (domain : String) (value : Bytes) : Digest :=
  sha256 (utf8 ("rootpermit/" ++ domain ++ "/v1\x00") ++ value)

def digestText [Cryptography] (domain value : String) : Digest :=
  digest domain (utf8 value)

/-! ### Routes -/

abbrev Handler := Segment M3Runtime String

/-- The clock readings and the random bytes of one segment: `admittedAt` is read by
`requireSession`, `now` by what follows it. -/
structure Surroundings where
  admittedAt : Double
  now : Double
  firstToken : ByteArr 32
  secondToken : ByteArr 32
  firstId : ByteArr 16
  secondId : ByteArr 16

def randomToken (bytes : ByteArr 32) : String := Base64Url.encodeText bytes.val

def randomPublicId (bytes : ByteArr 16) : String := Base64Url.encodeText bytes.val

/-- What the verifier of a ceremony gives back. -/
structure VerifiedBrokerCeremonyInput where
  credentialBindingPublicId : String
  assertionBytes : Bytes
  decision : String
  brokerDecisionSubmission : Bytes
  deriving DecidableEq, Repr

/-- Where a route is suspended, with what it holds. -/
inductive Point where
  | sessionBody
  | sessionIdentity (email password : String)
  | relayInboxAuthentication
  | relayInboxBody
  | relayOutboxAuthentication
  | pairingBody (session : Session) (pairingId : String)
  | decisionBody (session : Session) (requestId : String)
  | decisionCeremony (session : Session) (requestId : String)
      (payload : List (String × Json))
  | revocationProof (session : Session) (credentialId devicePublicId : String)

/-- How what a route waits for settles. -/
inductive Settled where
  | rejected (message : String)
  | body (value : Json)
  | identity (found : Option AccountIdentity)
  | relay (authenticated : Bool)
  | ceremony (input : Option VerifiedBrokerCeremonyInput)
  | proof (bytes : Bytes)

/-- A call of `handle` answers with a response; a trusted call returns or throws. -/
inductive Answer where
  | response (response : Response)
  | returned
  | threw (message : String)

abbrev Progress := Task Point Answer

def respond (response : Response) : Handler Progress :=
  pure (.answered (.response response))

def await (point : Point) : Handler Progress :=
  pure (.suspended point)

def requireOfficialOrigin (request : Request) : Handler Unit :=
  .check fun runtime =>
    rejectIf (request.origin ≠ some runtime.officialOrigin) "csrf_failed"

def requireCsrf (request : Request) (session : Session) : Handler Unit := do
  requireOfficialOrigin request
  .check fun _ =>
    rejectIf (request.csrf.map utf8 ≠ some (utf8 session.csrfToken)) "csrf_failed"

def requireSession (request : Request) (now : Double) : Handler Session :=
  .check fun runtime => do
    let token ← orFault "session_expired" (cookieValue request.cookie "rp_session")
    let session ← orFault "session_expired"
      (Table.lookup Session.token token runtime.sessions)
    rejectIf (session.expiresAt.le now = true) "session_expired"
    return session

def queueOpaqueToBroker (kind : RelayKind) (payload : Bytes) (envelopeId : ByteArr 16)
    (idempotencyKey : ByteArr 32) : Handler Unit :=
  .change fun runtime =>
    { runtime with
      relayOutbox := runtime.relayOutbox ++
        [{ direction := .serviceToBroker, kind := some kind
           envelopeId := randomPublicId envelopeId
           idempotencyKey := randomToken idempotencyKey, payload }] }

/-! #### Sessions -/

def createSession (request : Request) : Handler Progress := do
  requireOfficialOrigin request
  await .sessionBody

def createSessionWithBody (body : Json) : Handler Progress := do
  let (email, password) ← .check fun _ => do
    let fields ← jsonObject body
    let email ← stringField fields "email" 320
    let password ← stringField fields "password" 1024
    return (email, password)
  await (.sessionIdentity email password)

def createSessionWithIdentity (identity : Option AccountIdentity)
    (surroundings : Surroundings) : Handler Progress :=
  match identity with
  | none =>
      respond (problem 401 "authentication_failed" "Sign in could not be completed.")
  | some identity => do
      let session : Session :=
        { toAccountIdentity := identity
          token := randomToken surroundings.firstToken
          csrfToken := randomToken surroundings.secondToken
          expiresAt := surroundings.now.add SESSION_TTL_MS }
      .change fun runtime =>
        { runtime with
          sessions := Table.put Session.token session runtime.sessions }
      respond (json (.object [("csrfToken", .string session.csrfToken),
        ("expiresAt", .ofNumber session.expiresAt)]) 201
        [("set-cookie", "rp_session=" ++ session.token ++
          "; HttpOnly; Secure; SameSite=Strict; Path=/; Max-Age=28800")])

/-! #### Pairings -/

def updatePairing (pairingId : String) (change : Pairing → Pairing) : Handler Unit :=
  .change fun runtime =>
    { runtime with
      pairings := Table.update (fun pairing => decide (pairing.id = pairingId))
        change runtime.pairings }

/-- A pairing that is held by its key. -/
def heldPairing (pairingId : String) : Handler Pairing :=
  .check fun runtime => orFault "service_unavailable"
    (Table.lookup Pairing.id pairingId runtime.pairings)

/-- A pairing that may still be used; one that has run out is consumed. -/
def livePairing (pairingId : String) (now : Double) : Handler Pairing := do
  let found ← .check fun runtime =>
    .ok (Table.lookup Pairing.id pairingId runtime.pairings)
  match found with
  | none => throw "not_found_or_not_authorized"
  | some pairing =>
      if pairing.consumed = true ∨ pairing.expiresAt.le now = true then do
        -- The pairing stays consumed although the call throws.
        updatePairing pairingId fun pairing => { pairing with consumed := true }
        throw "not_found_or_not_authorized"
      else return pairing

def tryActivate (pairingId : String) : Handler Unit := do
  let pairing ← heldPairing pairingId
  match pairing.claimedBy with
  | none => pure ()
  | some account =>
      if pairing.rootConfirmed = true ∧ pairing.webConfirmed = true ∧
          pairing.consumed = false then do
        -- A device that is stored under this public id is replaced.
        .change fun runtime =>
          { runtime with
            devices := Table.put Device.publicId
              { publicId := pairing.devicePublicId, tenantId := account.tenantId
                displayName := "RootPermit device", enrollmentState := .active }
              runtime.devices }
        updatePairing pairingId fun pairing => { pairing with consumed := true }
      else pure ()

structure PairingInput where
  pairingId : String
  devicePublicId : String
  brokerPublicKey : Bytes
  nonce : Bytes
  comparisonCode : String
  expiresAt : Double
  deriving DecidableEq, Repr

def isComparisonCode (code : String) : Bool :=
  decide (code.toList.length = 6) &&
    code.toList.all fun char => decide ('0' ≤ char ∧ char ≤ '9')

def preparePairing [Cryptography] (input : PairingInput) (now : Double) :
    Handler Unit := do
  .check fun _ => requirePublicId input.pairingId "pairing id"
  .check fun _ => requirePublicId input.devicePublicId "device id"
  .check fun _ => requireBytes input.brokerPublicKey 32 "broker public key"
  .check fun _ => requireBytes input.nonce 32 "pairing nonce"
  .check fun _ => rejectIf
    (isComparisonCode input.comparisonCode = false ∨ input.expiresAt.le now = true)
    "invalid pairing transcript"
  .check fun runtime => rejectIf
    ((Table.lookup Pairing.id input.pairingId runtime.pairings).isSome = true)
    "pairing_replayed"
  .change fun runtime =>
    { runtime with
      pairings := Table.put Pairing.id
        { id := input.pairingId, devicePublicId := input.devicePublicId
          brokerKeyDigest := digest "broker-key" input.brokerPublicKey
          nonceDigest := digest "pairing-nonce" input.nonce
          comparisonCodeDigest := digestText "comparison-code" input.comparisonCode
          expiresAt := input.expiresAt, claimedBy := none
          rootConfirmed := false, webConfirmed := false, consumed := false }
        runtime.pairings }

def confirmPairingFromBroker [Cryptography] (pairingId : String)
    (nonce brokerPublicKey : Bytes) (now : Double) : Handler Unit := do
  let pairing ← livePairing pairingId now
  if pairing.nonceDigest ≠ digest "pairing-nonce" nonce ∨
      pairing.brokerKeyDigest ≠ digest "broker-key" brokerPublicKey then do
    -- A wrong nonce or key uses the pairing up.
    updatePairing pairingId fun pairing => { pairing with consumed := true }
    throw "pairing_mismatch"
  else do
    updatePairing pairingId fun pairing => { pairing with rootConfirmed := true }
    tryActivate pairingId

def pairingRoute (session : Session) (pairingId action : String) (request : Request)
    (now : Double) : Handler Progress := do
  requireCsrf request session
  let pairing ← livePairing pairingId now
  if action = "claim" then do
    -- The same account may claim again.
    .check fun _ => rejectIf
      (pairing.claimedBy ≠ none ∧
        pairing.claimedBy ≠ some session.toAccountIdentity)
      "not_found_or_not_authorized"
    updatePairing pairingId fun pairing =>
      { pairing with claimedBy := some session.toAccountIdentity }
    respond (json (.object [("state", .string "web_claimed")]) 200 [])
  else do
    .check fun _ => rejectIf (pairing.claimedBy ≠ some session.toAccountIdentity)
      "not_found_or_not_authorized"
    await (.pairingBody session pairingId)

def pairingRouteWithBody [Cryptography] (pairingId : String) (body : Json) :
    Handler Progress := do
  let code ← .check fun _ => do
    let fields ← jsonObject body
    stringField fields "comparisonCode" 6
  -- Neither its expiry nor its consumption is checked again after the await.
  let pairing ← heldPairing pairingId
  if pairing.comparisonCodeDigest ≠ digestText "comparison-code" code then do
    updatePairing pairingId fun pairing => { pairing with consumed := true }
    throw "pairing_mismatch"
  else do
    updatePairing pairingId fun pairing => { pairing with webConfirmed := true }
    tryActivate pairingId
    let pairing ← heldPairing pairingId
    respond (json (.object [("state",
      .string (if pairing.consumed = true then "active" else "codes_confirmed"))])
      200 [])

/-! #### Credentials -/

structure CredentialInput where
  publicId : String
  tenantId : String
  devicePublicId : String
  generation : Number
  deriving DecidableEq, Repr

/-- The credentials of a device that are not quarantined. -/
def M3Runtime.usable (runtime : M3Runtime) (devicePublicId : String) :
    List Credential :=
  runtime.credentials.filter fun credential =>
    decide (credential.devicePublicId = devicePublicId) && !credential.quarantined

def isGeneration : Number → Bool
  | .integer value => (Number.integer value).isSafeInteger && decide (1 ≤ value)
  | .other => false

def enrollCredential (input : CredentialInput) : Handler Unit := do
  .check fun _ => requirePublicId input.publicId "credential id"
  .check fun runtime => rejectIf
    (¬ ∃ device ∈ Table.lookup Device.publicId input.devicePublicId runtime.devices,
      device.tenantId = input.tenantId ∧ device.enrollmentState = .active)
    "device_not_active"
  .check fun _ => rejectIf (isGeneration input.generation = false)
    "invalid credential generation"
  .check fun runtime => rejectIf
    -- A quarantined credential does not count, but its identifier stays taken.
    (5 ≤ (runtime.usable input.devicePublicId).length ∨
      (runtime.credential? input.publicId).isSome = true)
    "credential_limit_reached"
  .change fun runtime =>
    { runtime with
      credentials := Table.put Credential.publicId
        { publicId := input.publicId, tenantId := input.tenantId
          devicePublicId := input.devicePublicId, generation := input.generation
          quarantined := false }
        runtime.credentials }

def updateCredential (credentialId : String) (change : Credential → Credential) :
    Handler Unit :=
  .change fun runtime =>
    { runtime with
      credentials := Table.update
        (fun credential => decide (credential.publicId = credentialId)) change
        runtime.credentials }

def revocationRoute (session : Session) (credentialId : String) (request : Request) :
    Handler Progress := do
  requireCsrf request session
  let credential ← .check fun runtime => do
    let credential ← orFault "not_found_or_not_authorized"
      (runtime.credential? credentialId)
    rejectIf (credential.tenantId ≠ session.tenantId) "not_found_or_not_authorized"
    return credential
  await (.revocationProof session credentialId credential.devicePublicId)

/-- The device of a credential; the source takes it to be there. -/
def deviceOf (devicePublicId : String) : Handler Device :=
  .check fun runtime => orFault "service_unavailable"
    (Table.lookup Device.publicId devicePublicId runtime.devices)

/-- A device without a usable credential is locked. -/
def lockDevice (devicePublicId : String) (remaining : Nat) : Handler Unit :=
  if remaining = 0 then do
    let _ ← deviceOf devicePublicId
    .change fun runtime =>
      { runtime with
        devices := Table.update
          (fun device => decide (device.publicId = devicePublicId))
          (fun device => { device with enrollmentState := .approvalLocked })
          runtime.devices }
  else pure ()

/-- What follows the quarantine of a credential. -/
def finishRevocation (devicePublicId : String) (proof : Bytes)
    (surroundings : Surroundings) : Handler Progress := do
  let remaining ← .check fun runtime => .ok (runtime.usable devicePublicId).length
  lockDevice devicePublicId remaining
  queueOpaqueToBroker .revocationEvent proof surroundings.firstId
    surroundings.firstToken
  let device ← deviceOf devicePublicId
  respond (json (.object [("quarantined", .bool true),
    ("enrollmentState", .string device.enrollmentState.text)]) 202 [])

def revocationRouteWithProof (credentialId devicePublicId : String) (proof : Bytes)
    (surroundings : Surroundings) : Handler Progress := do
  .check fun _ => requireOpaqueEnvelope proof "revocation proof"
  updateCredential credentialId fun credential =>
    { credential with quarantined := true }
  finishRevocation devicePublicId proof surroundings

/-! #### Requests -/

structure RequestInput where
  publicId : String
  tenantId : String
  devicePublicId : String
  envelope : Bytes
  expiresAt : Double
  deriving DecidableEq, Repr

/-- The record was made from the same input. -/
def RequestRecord.Matches (record : RequestRecord) (input : RequestInput) : Prop :=
  record.tenantId = input.tenantId ∧ record.devicePublicId = input.devicePublicId ∧
    record.expiresAt.strictEq input.expiresAt = true ∧
      record.envelope = input.envelope

instance (record : RequestRecord) (input : RequestInput) :
    Decidable (record.Matches input) :=
  inferInstanceAs (Decidable (_ ∧ _))

def ingestVerifiedRequest (input : RequestInput) : Handler Unit := do
  .check fun _ => requirePublicId input.publicId "request id"
  .check fun runtime => rejectIf
    ((¬ ∃ device ∈ Table.lookup Device.publicId input.devicePublicId runtime.devices,
        device.tenantId = input.tenantId) ∨
      input.envelope.length < 1 ∨ MAX_RELAY_BYTES < input.envelope.length)
    "invalid_envelope"
  let existing ← .check fun runtime => .ok (runtime.request? input.publicId)
  match existing with
  | some existing =>
      if existing.Matches input then pure () else throw "request_replayed"
  | none =>
      .change fun runtime =>
        { runtime with
          requests := Table.put RequestRecord.publicId
            { publicId := input.publicId, tenantId := input.tenantId
              devicePublicId := input.devicePublicId, envelope := input.envelope
              expiresAt := input.expiresAt, projection := .pending }
            runtime.requests }

def setProjection (requestId : String) (projection : RequestProjection) :
    Handler Unit :=
  .change fun runtime =>
    { runtime with
      requests := Table.update (fun record => decide (record.publicId = requestId))
        (fun record => { record with projection }) runtime.requests }

inductive TerminalState where
  | succeeded
  | failed
  | denied
  deriving DecidableEq, Repr

def ingestVerifiedBrokerReceipt (requestPublicId : String)
    (terminalState : TerminalState) : Handler Unit := do
  .check fun runtime => rejectIf
    ((runtime.request? requestPublicId).isNone = true) "invalid_receipt"
  -- The projection before the receipt does not matter.
  setProjection requestPublicId
    (if terminalState = .denied then .denied else .terminal)

/-- The request, when it is of the tenant of the session. -/
def scopedRequest (session : Session) (requestId : String) : Handler RequestRecord :=
  .check fun runtime => do
    let record ← orFault "not_found_or_not_authorized" (runtime.request? requestId)
    rejectIf (record.tenantId ≠ session.tenantId) "not_found_or_not_authorized"
    return record

/-- The record still awaits a decision. -/
def requirePending (record : RequestRecord) (now : Double) : Except String Unit :=
  rejectIf (record.projection ≠ .pending ∨ record.expiresAt.le now = true)
    "request_not_pending"

def requestRoute (session : Session) (requestId : String) (suffix : Option String)
    (request : Request) (now : Double) : Handler Progress := do
  let record ← scopedRequest session requestId
  if suffix = none ∧ request.method = "GET" then
    respond (json (.object
      [("envelope", .string (Base64Url.encodeText record.envelope)),
        ("projection", .string record.projection.text),
        ("expiresAt", .ofNumber record.expiresAt)]) 200 [])
  else if suffix = some "status" ∧ request.method = "GET" then
    respond (json (.object [("projection", .string record.projection.text),
      ("expiresAt", .ofNumber record.expiresAt)]) 200 [])
  else if suffix = some "decisions" ∧ request.method = "POST" then do
    -- The reads above need no token; a decision does.
    requireCsrf request session
    .check fun _ => requirePending record now
    await (.decisionBody session requestId)
  else throw "not_found_or_not_authorized"

def decisionWithBody (session : Session) (requestId : String) (body : Json) :
    Handler Progress := do
  let payload ← .check fun _ => jsonObject body
  await (.decisionCeremony session requestId payload)

/-- `verifiedApprovalCeremonyFromWebAuthn`. -/
def verifiedApprovalCeremonyFromWebAuthn [Cryptography]
    (input : VerifiedBrokerCeremonyInput) :
    Except String VerifiedApprovalCeremony := do
  rejectIf (Broker.isPublicId input.credentialBindingPublicId = false)
    "credential binding public id must be a 16-byte base64url value"
  let decision ← orFault "decision must be approve or deny"
    (if input.decision = "approve" then some DecisionValue.approve
      else if input.decision = "deny" then some .deny else none)
  rejectIf (input.assertionBytes.length < 1 ∨
      64 * 1024 < input.assertionBytes.length)
    "WebAuthn assertion exceeds bounded decision input"
  return { credentialBindingPublicId := input.credentialBindingPublicId
           assertionReference :=
             (sha256 (utf8 "rootpermit/webauthn-assertion-reference/v1\x00" ++
               input.assertionBytes)).val
           decision }

/-- The checks that follow the ceremony. -/
def admitDecision [Cryptography] (runtime : M3Runtime) (session : Session)
    (requestId : String) (input : Option VerifiedBrokerCeremonyInput) (now : Double) :
    Except String (VerifiedBrokerCeremonyInput × VerifiedApprovalCeremony) := do
  let input ← orFault "invalid_decision" input
  requireOpaqueEnvelope input.brokerDecisionSubmission "broker decision submission"
  let record ← orFault "service_unavailable" (runtime.request? requestId)
  -- Checked a second time: the ceremony was awaited in between.
  requirePending record now
  let credential ← orFault "not_found_or_not_authorized"
    (runtime.credential? input.credentialBindingPublicId)
  rejectIf (credential.tenantId ≠ session.tenantId ∨
      credential.devicePublicId ≠ record.devicePublicId)
    "not_found_or_not_authorized"
  rejectIf (credential.quarantined = true) "credential_quarantined"
  let ceremony ← verifiedApprovalCeremonyFromWebAuthn input
  return (input, ceremony)

def decisionAccepted (decisionId : ByteArr 16) : Response :=
  json (.object [("decisionId", .string (randomPublicId decisionId)),
    ("accepted", .bool true)]) 202 []

def decisionWithCeremony [Cryptography] (session : Session) (requestId : String)
    (input : Option VerifiedBrokerCeremonyInput) (surroundings : Surroundings) :
    Handler Progress := do
  let (input, ceremony) ← .check fun runtime =>
    admitDecision runtime session requestId input surroundings.now
  queueOpaqueToBroker .decisionSubmission input.brokerDecisionSubmission
    surroundings.secondId surroundings.firstToken
  setProjection requestId
    (if ceremony.decision = .approve then .approved else .denied)
  respond (decisionAccepted surroundings.firstId)

/-! #### Devices and mailboxes -/

def devicesRoute (session : Session) : Handler Progress := do
  let devices ← .check fun runtime => .ok
    (runtime.devices.filter fun device => decide (device.tenantId = session.tenantId))
  respond (json (.object [("devices", .array (devices.map fun device =>
    .object [("id", .string device.publicId),
      ("displayName", .string device.displayName),
      ("enrollmentState", .string device.enrollmentState.text)]))]) 200 [])

def requireRelay (authenticated : Bool) : Handler Unit :=
  .check fun _ => rejectIf (authenticated = false) "relay_authentication_failed"

/-- The fields of a message for the inbox. -/
def inboxFields (body : Json) : Except String (String × String × Bytes) := do
  let fields ← jsonObject body
  let envelopeId ← stringField fields "envelopeId" 22
  let idempotencyKey ← stringField fields "idempotencyKey" 43
  let payload ← base64UrlField fields "payload" MAX_RELAY_BYTES
  requirePublicId envelopeId "envelope id"
  return (envelopeId, idempotencyKey, payload)

def relayInboxWithBody (body : Json) : Handler Progress := do
  let (envelopeId, idempotencyKey, payload) ← .check fun _ => inboxFields body
  let key := envelopeId ++ ":" ++ idempotencyKey
  .change fun runtime =>
    -- A repeated message is accepted and dropped.
    if (Table.lookup Prod.fst key runtime.relayInbox).isSome = true then runtime
    else
      { runtime with
        relayInbox := Table.put Prod.fst
          (key, { direction := .brokerToService, kind := none, envelopeId
                  idempotencyKey, payload })
          runtime.relayInbox }
  respond { status := 202, headers := secureHeaders, body := none }

def relayOutboxRoute (authenticated : Bool) : Handler Progress := do
  requireRelay authenticated
  let messages ← .check fun runtime => .ok runtime.relayOutbox
  respond (json (.object [("messages", .array (messages.map fun message =>
    .object ([("envelopeId", .string message.envelopeId)] ++
      (message.kind.map fun kind => ("kind", .string kind.text)).toList ++
      [("idempotencyKey", .string message.idempotencyKey),
        ("payload", .string (Base64Url.encodeText message.payload))])))]) 200 [])

/-! #### The routes of a request -/

def pathSegments (pathname : String) : List String :=
  (pathname.toList.splitOn '/').map String.ofList

def pairingPath? (pathname : String) : Option (String × String) :=
  match pathSegments pathname with
  | ["", "v1", "pairings", id, action] =>
      if Broker.isPublicId id = true ∧ (action = "claim" ∨ action = "confirm") then
        some (id, action)
      else none
  | _ => none

def requestPath? (pathname : String) : Option (String × Option String) :=
  match pathSegments pathname with
  | ["", "v1", "requests", id] =>
      if Broker.isPublicId id = true then some (id, none) else none
  | ["", "v1", "requests", id, suffix] =>
      if Broker.isPublicId id = true ∧ (suffix = "status" ∨ suffix = "decisions") then
        some (id, some suffix)
      else none
  | _ => none

def revocationPath? (pathname : String) : Option String :=
  match pathSegments pathname with
  | ["", "v1", "credentials", id, "revocations"] =>
      if Broker.isPublicId id = true then some id else none
  | _ => none

/-- The routes that need a session. -/
def sessionRoutes (session : Session) (request : Request) (now : Double) :
    Handler Progress :=
  if request.pathname = "/v1/devices" ∧ request.method = "GET" then
    devicesRoute session
  else
    match pairingPath? request.pathname, decide (request.method = "POST") with
    | some (pairingId, action), true =>
        pairingRoute session pairingId action request now
    | _, _ =>
        match requestPath? request.pathname with
        | some (requestId, suffix) =>
            requestRoute session requestId suffix request now
        | none =>
            match revocationPath? request.pathname,
              decide (request.method = "POST") with
            | some credentialId, true => revocationRoute session credentialId request
            | _, _ => respond (problem 404 "not_found_or_not_authorized"
                "The requested RootPermit resource is unavailable.")

def handle (request : Request) (surroundings : Surroundings) : Handler Progress :=
  if request.pathname = "/v1/account/session" ∧ request.method = "POST" then
    createSession request
  else if request.pathname = "/v1/relay/inbox" ∧ request.method = "POST" then
    await .relayInboxAuthentication
  else if request.pathname = "/v1/relay/outbox" ∧ request.method = "GET" then
    await .relayOutboxAuthentication
  else do
    let session ← requireSession request surroundings.admittedAt
    sessionRoutes session request surroundings.now

/-- What a route does next, once what it waits for has settled; what cannot settle
here leaves it suspended. -/
def proceed [Cryptography] (point : Point) (settled : Settled)
    (surroundings : Surroundings) : Handler Progress :=
  match point, settled with
  | _, .rejected message => throw message
  | .sessionBody, .body value => createSessionWithBody value
  | .sessionIdentity _ _, .identity found =>
      createSessionWithIdentity found surroundings
  | .relayInboxAuthentication, .relay authenticated => do
      requireRelay authenticated
      await .relayInboxBody
  | .relayInboxBody, .body value => relayInboxWithBody value
  | .relayOutboxAuthentication, .relay authenticated =>
      relayOutboxRoute authenticated
  | .pairingBody _ pairingId, .body value => pairingRouteWithBody pairingId value
  | .decisionBody session requestId, .body value =>
      decisionWithBody session requestId value
  | .decisionCeremony session requestId _, .ceremony input =>
      decisionWithCeremony session requestId input surroundings
  | .revocationProof _ credentialId devicePublicId, .proof bytes =>
      revocationRouteWithProof credentialId devicePublicId bytes surroundings
  | point, _ => await point

/-! ### Calls -/

inductive Call where
  | preparePairing (input : PairingInput)
  | confirmPairingFromBroker (pairingId : String) (nonce brokerPublicKey : Bytes)
  | enrollCredential (input : CredentialInput)
  | ingestVerifiedRequest (input : RequestInput)
  | ingestVerifiedBrokerReceipt (requestPublicId : String)
      (terminalState : TerminalState)
  | handle (request : Request)

/-- The catch of `handle`: an error becomes a response. -/
def caught (outcome : Except String Progress × M3Runtime) : Progress × M3Runtime :=
  match outcome with
  | (.ok progress, runtime) => (progress, runtime)
  | (.error message, runtime) => (.answered (.response (mapError message)), runtime)

/-- A trusted call returns or throws. -/
def finished (outcome : Except String Unit × M3Runtime) : Progress × M3Runtime :=
  match outcome with
  | (.ok (), runtime) => (.answered .returned, runtime)
  | (.error message, runtime) => (.answered (.threw message), runtime)

def enter [Cryptography] (call : Call × Surroundings) (runtime : M3Runtime) :
    Progress × M3Runtime :=
  match call with
  | (.preparePairing input, surroundings) =>
      finished (preparePairing input surroundings.now runtime)
  | (.confirmPairingFromBroker pairingId nonce brokerPublicKey, surroundings) =>
      finished (confirmPairingFromBroker pairingId nonce brokerPublicKey
        surroundings.now runtime)
  | (.enrollCredential input, _) => finished (enrollCredential input runtime)
  | (.ingestVerifiedRequest input, _) =>
      finished (ingestVerifiedRequest input runtime)
  | (.ingestVerifiedBrokerReceipt requestPublicId terminalState, _) =>
      finished (ingestVerifiedBrokerReceipt requestPublicId terminalState runtime)
  | (.handle request, surroundings) => caught (handle request surroundings runtime)

def resume [Cryptography] (point : Point) (settled : Settled × Surroundings)
    (runtime : M3Runtime) : Progress × M3Runtime :=
  caught (proceed point settled.1 settled.2 runtime)

abbrev Service := Scene M3Runtime Point Answer

abbrev Turn := Act (Call × Surroundings) (Settled × Surroundings)

def routine [Cryptography] :
    Routine M3Runtime (Call × Surroundings) (Settled × Surroundings) Point Answer where
  enter := enter
  resume := resume

/-- One turn of the service. -/
def Service.turn [Cryptography] (service : Service) (turn : Turn) : Service :=
  Scene.step routine service turn

/-- The service before its first call. -/
def Service.fresh (officialOrigin : String) : Service where
  shared := { officialOrigin }
  tasks := []

end M3
end Hosted
end RootPermit
