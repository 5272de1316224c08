import RootPermit.Web.VerifiedEnvelope

/-!
# The approval page

This module embeds `service/web/src/approval-page.ts`: what the page shows of a verified
request, and the pages that are shown where no decision can be made.

The verified requests of a page are a list, in the order in which they were verified.
An object is known by its place in the list; one that was not verified has none.
-/

namespace RootPermit
namespace Web

open Foundation

/-- Only an object that was verified is accepted, whatever its fields are. -/
def assertVerifiedBrokerRequest (verifiedRequests : List VerifiedBrokerRequest)
    (request : Nat) : Except WebError VerifiedBrokerRequest :=
  orFault .envelopeVerification verifiedRequests[request]?

structure PageRequest where
  id : Text
  digest : Text
  device : Text
  policy : Text
  expiresAtUnixMs : Double
  deriving DecidableEq, Repr

structure ReadyApprovalPage where
  request : PageRequest
  consequences : Consequences
  untrustedAgentNote : Option Text
  allowedDecisions : List Decision
  deriving DecidableEq, Repr

inductive BlockedCode where
  | invalidEnvelope
  | requestExpired
  | sequenceGap
  deriving DecidableEq, Repr

def BlockedCode.text : BlockedCode → Text
  | .invalidEnvelope => literal "invalid_envelope"
  | .requestExpired => literal "request_expired"
  | .sequenceGap => literal "sequence_gap"

structure BlockedApprovalPage where
  code : BlockedCode
  heading : Text
  message : Text
  deriving DecidableEq, Repr

inductive ApprovalPage where
  | ready (page : ReadyApprovalPage)
  | blocked (page : BlockedApprovalPage)
  deriving DecidableEq, Repr

def sequenceGapPage : BlockedApprovalPage where
  code := .sequenceGap
  heading := literal "Request status needs resync"
  message := literal
    "Approval is paused until RootPermit verifies a complete broker update."

def invalidEnvelopePage : BlockedApprovalPage where
  code := .invalidEnvelope
  heading := literal "Request could not be verified"
  message := literal
    "No approval is available. Open RootPermit again or wait for a new request."

def expiredPage : BlockedApprovalPage where
  code := .requestExpired
  heading := literal "Request expired"
  message := literal ("This request can no longer be approved or denied. " ++
    "Ask the agent to create a new request.")

def hexDigit (nibble : Nat) : UInt16 :=
  if nibble < 10 then UInt16.ofNat (0x30 + nibble) else UInt16.ofNat (0x57 + nibble)

/-- Two digits for each byte. -/
def hex (value : Bytes) : Text :=
  value.flatMap fun byte => [hexDigit (byte.toNat / 16), hexDigit (byte.toNat % 16)]

/-- The page of a request. -/
def readyPage (request : VerifiedBrokerRequest) : ReadyApprovalPage where
  request :=
    { id := request.requestId
      digest := hex request.requestDigest
      device := request.device.displayName
      policy := request.policy.id ++ literal " v" ++ request.policy.version.toText
      expiresAtUnixMs := request.expiresAtUnixMs }
  consequences := request.consequences
  untrustedAgentNote := request.agentNote
  allowedDecisions := [.approve, .deny]

def approvalPageFromVerifiedRequest (verifiedRequests : List VerifiedBrokerRequest)
    (request : Nat) (nowUnixMs : Double) : Except WebError ApprovalPage := do
  let request ← assertVerifiedBrokerRequest verifiedRequests request
  rejectIf (nowUnixMs.isSafeInteger = false ∨ nowUnixMs.lt (.finite 0) = true)
    (.error "clock must be a Unix-millisecond safe integer")
  if request.expiresAtUnixMs.le nowUnixMs then return .blocked expiredPage
  else return .ready (readyPage request)

end Web
end RootPermit
