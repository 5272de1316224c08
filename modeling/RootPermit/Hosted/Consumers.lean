import RootPermit.Broker.Record
import RootPermit.Hosted.FrozenProjection

/-!
# Consumers of lifecycle events

A chain of a broker starts with event one, without a previous digest, in the state
`planning`.  The guard of the relay counts the same way.  The protocol schema wants a
previous digest from sequence one on, and the service starts at sequence zero and
does not know the state.  So no chain is accepted by all of them
(`chains_rejected`).
-/

namespace RootPermit
namespace Hosted

open Foundation Protocol
open Broker (PublicId IntactChain)

/-! ### What each consumer is given -/

/-- The protocol event carries the sequence and the link of a broker event; its other
fields are arbitrary. -/
def Carries (carried : Protocol.LifecycleEvent) (event : Broker.LifecycleEvent) :
    Prop :=
  carried.sequence = event.sequence ∧
    carried.previousEventDigest = event.previousEventDigest

/-- Every event passes the validation of the protocol schema. -/
def PassesValidation (events : List Broker.LifecycleEvent) : Prop :=
  ∀ event ∈ events, ∀ carried, Carries carried event →
    carried.validate = .ok ()

def relayEvent (event : Broker.LifecycleEvent) : Relay.VerifiedLifecycleEvent where
  sequence := event.sequence
  eventDigest := event.eventDigest

/-- The answers of the relay's guard to a list of events. -/
def relayAnswers (chain : Relay.ProjectionChain) :
    List Broker.LifecycleEvent → List Relay.ProjectionResult
  | [] => []
  | event :: events =>
      (chain.ingest (relayEvent event)).1 ::
        relayAnswers (chain.ingest (relayEvent event)).2 events

/-- A fresh guard applies every event. -/
def AppliedByRelay (events : List Broker.LifecycleEvent) : Prop :=
  relayAnswers Relay.ProjectionChain.empty events = events.map fun _ => .applied

def serviceEvent (requestId : PublicId) (event : Broker.LifecycleEvent) :
    VerifiedLifecycleEvent where
  requestPublicId := requestId.asStr
  sequence := .integer event.sequence.toNat
  eventDigest := event.eventDigest.val
  previousEventDigest := event.previousEventDigest.map Subtype.val
  state := event.state.asDb

/-- The answers of the service's repository; a call that throws changes nothing. -/
def serviceAnswers [Cryptography] (scope : TenantScope) (requestId : PublicId)
    (database : Database) :
    List Broker.LifecycleEvent → List (Except String ProjectionApplyResult)
  | [] => []
  | event :: events =>
      match applyVerifiedEvent scope (serviceEvent requestId event) database with
      | .ok (result, next) => .ok result :: serviceAnswers scope requestId next events
      | .error message =>
          .error message :: serviceAnswers scope requestId database events

/-- The repository applies every event of a known request without a projection. -/
def AppliedByService [Cryptography] (requestId : PublicId)
    (events : List Broker.LifecycleEvent) : Prop :=
  ∀ scope database key,
    scopedRequestForUpdate scope requestId.asStr database.toTables = .ok key →
    database.projectionOf key = [] →
    serviceAnswers scope requestId database events = events.map fun _ => .ok .applied

/-- All three consumers accept the chain. -/
def AcceptedByAll [Cryptography] (requestId : PublicId)
    (events : List Broker.LifecycleEvent) : Prop :=
  PassesValidation events ∧ AppliedByRelay events ∧ AppliedByService requestId events

/-! ### What each consumer answers -/

section Answers

variable {events : List Broker.LifecycleEvent}

theorem checkPrevious_of_validate {carried : Protocol.LifecycleEvent}
    (h : carried.validate = .ok ()) :
    Protocol.LifecycleEvent.checkPrevious carried = .ok () :=
  ((@Codec.validate_eq_ok_iff _ (Protocol.LifecycleEvent.layout.codec
    Protocol.LifecycleEvent.checkPrevious fun _ h => h) carried).mp h).2.2

/-- An event with a number but without a predecessor is invalid. -/
theorem validate_ne_ok {event : Broker.LifecycleEvent}
    (hSequence : event.sequence ≠ 0) (hPrevious : event.previousEventDigest = none)
    {carried : Protocol.LifecycleEvent} (hCarries : Carries carried event) :
    carried.validate ≠ .ok () := by
  intro hValid
  have hCheck := checkPrevious_of_validate hValid
  simp only [Protocol.LifecycleEvent.checkPrevious, bind_eq_ok_iff,
    rejectIf_eq_ok_iff] at hCheck
  obtain ⟨-, -, hLinked⟩ := hCheck
  apply hLinked
  rw [hCarries.1, hCarries.2, hPrevious]
  exact ⟨hSequence, rfl⟩

/-- A guard that expects the first number applies consecutive events. -/
theorem relayAnswers_of_range {chain : Relay.ProjectionChain}
    (hOpen : chain.frozenGap = false)
    (hRange : events.map (fun event => event.sequence.toNat) =
      List.range' chain.expected.toNat events.length) :
    relayAnswers chain events = events.map fun _ => .applied := by
  induction events generalizing chain with
  | nil => rfl
  | cons event events ih =>
      rw [List.length_cons, List.range'_succ, List.map_cons, List.cons.injEq]
        at hRange
      obtain ⟨hFirst, hRest⟩ := hRange
      have hExpected : (relayEvent event).sequence = chain.expected :=
        UInt64.toNat_inj.mp hFirst
      obtain ⟨hApplied, hStillOpen, hNext⟩ :=
        Relay.ProjectionChain.ingest_of_expected hOpen hExpected
      rw [relayAnswers, hApplied, List.map_cons]
      congr 1
      cases events with
      | nil => rfl
      | cons second events =>
          apply ih hStillOpen
          -- A second event shows that the counter has not reached its maximum.
          have hSecond : second.sequence.toNat = chain.expected.toNat + 1 := by
            rw [List.map_cons, List.length_cons, List.range'_succ] at hRest
            exact (List.cons.inj hRest).1
          have hSmall := second.sequence.toNat_lt
          have hSucc : (saturatingSucc chain.expected).toNat =
              chain.expected.toNat + 1 := toNat_saturatingSucc (by omega)
          have hStart : (chain.ingest (relayEvent event)).2.expected.toNat =
              chain.expected.toNat + 1 := by
            rw [Relay.ProjectionChain.expected, hNext, if_neg, hSucc]
            intro hZero
            rw [hZero] at hSucc
            simp at hSucc
          rw [hRest, hStart]

/-- The service throws at an event of a request that is being planned. -/
theorem validateEvent_of_planning {requestId : PublicId}
    {event : Broker.LifecycleEvent}
    (hPlanning : event.state = .planning) :
    ∀ sequence, validateEvent (serviceEvent requestId event) ≠ .ok sequence := by
  intro sequence hValid
  simp only [validateEvent, bind_eq_ok_iff, rejectIf_eq_ok_iff, not_or] at hValid
  obtain ⟨_, -, _, -, _, -, _, -, _, ⟨hKnown, -⟩, -⟩ := hValid
  apply hKnown
  show event.state.asDb ∉ LIFECYCLE_STATES
  rw [hPlanning]
  decide

end Answers

/-! ### No chain is accepted by all -/

section Chains

variable [Cryptography] {requestId : PublicId} {state : Broker.RequestState}
  {events : List Broker.LifecycleEvent}

/-- The first event of an intact chain has number one and no predecessor, and says
that the request is being planned. -/
theorem first_of_intact (h : IntactChain requestId state events) :
    ∃ event rest, events = event :: rest ∧ event.sequence = 1 ∧
      event.previousEventDigest = none ∧ event.state = .planning := by
  cases hEvents : events with
  | nil => exact absurd hEvents h.nonempty
  | cons event rest =>
      have hSequences := h.sequences
      rw [hEvents, List.map_cons, List.length_cons, List.range'_succ] at hSequences
      have hOne : event.sequence.toNat = 1 := (List.cons.inj hSequences).1
      obtain ⟨hPlanning, -, hPrevious⟩ := h.first event (by rw [hEvents]; rfl)
      exact ⟨event, rest, rfl, UInt64.toNat_inj.mp hOne, hPrevious, hPlanning⟩

theorem appliedByRelay_of_intact (h : IntactChain requestId state events) :
    AppliedByRelay events :=
  relayAnswers_of_range rfl h.sequences

/-- A database that knows the request. -/
def knowing (requestId : PublicId) : Database where
  requestEnvelopes :=
    [{ id := sampleKey.requestEnvelopeId, tenantId := sampleScope.tenantId
       publicId := requestId.asStr
       deviceId := "018f47f5-9f2a-7a30-9f7d-94c4bb5e9714" }]
  constraints := by
    constructor <;> simp [Table.Keyed]

theorem not_appliedByService_of_intact (h : IntactChain requestId state events) :
    ¬ AppliedByService requestId events := by
  intro hApplied
  obtain ⟨event, rest, rfl, -, -, hPlanning⟩ := first_of_intact h
  have hAnswers := hApplied sampleScope (knowing requestId) sampleKey (by
    simp [scopedRequestForUpdate, knowing, Table.lookup, sampleKey]) rfl
  have hThrows : ∃ message, applyVerifiedEvent sampleScope
      (serviceEvent requestId event) (knowing requestId) = .error message := by
    cases hOutcome : applyVerifiedEvent sampleScope (serviceEvent requestId event)
        (knowing requestId) with
    | error message => exact ⟨message, rfl⟩
    | ok outcome =>
        obtain ⟨_, sequence, hValid, -⟩ := applyVerifiedEvent_eq_ok hOutcome
        exact absurd hValid (validateEvent_of_planning hPlanning sequence)
  obtain ⟨message, hThrows⟩ := hThrows
  rw [serviceAnswers, hThrows] at hAnswers
  cases (List.cons.inj hAnswers).1

theorem not_passesValidation_of_intact (h : IntactChain requestId state events) :
    ¬ PassesValidation events := by
  intro hPasses
  obtain ⟨event, rest, rfl, hSequence, hPrevious, -⟩ := first_of_intact h
  let carried : Protocol.LifecycleEvent :=
    { requestId := ByteArr.fill 16 0, sequence := event.sequence
      previousEventDigest := event.previousEventDigest
      requestDigest := ByteArr.fill 32 0, brokerEpoch := 0, transition := 1
      occurredUtc := 0, detailCode := 0, detailDigest := none }
  have hNonzero : event.sequence ≠ 0 := by
    rw [hSequence]
    decide
  exact validate_ne_ok hNonzero hPrevious ⟨rfl, rfl⟩
    (hPasses event List.mem_cons_self carried ⟨rfl, rfl⟩)

/-- What becomes of an intact chain. -/
structure Rejected (requestId : PublicId) (events : List Broker.LifecycleEvent) :
    Prop where
  protocol : ¬ PassesValidation events
  relay : AppliedByRelay events
  service : ¬ AppliedByService requestId events
  all : ¬ AcceptedByAll requestId events

theorem rejected_of_intact (h : IntactChain requestId state events) :
    Rejected requestId events :=
  ⟨not_passesValidation_of_intact h, appliedByRelay_of_intact h,
    not_appliedByService_of_intact h,
    fun hAll => not_passesValidation_of_intact h hAll.1⟩

end Chains

/-- The chain of every record and of every request of a store is applied by the relay,
and rejected by the protocol schema and by the service. -/
theorem chains_rejected [Cryptography] :
    (∀ requestId receiptId requestedPackage requestDigest generation deadlineMonoNs
        actions, Rejected requestId
      (run Broker.Record.LifecycleRecord.step
        (Broker.Record.LifecycleRecord.new requestId receiptId requestedPackage
          requestDigest generation deadlineMonoNs) actions).events) ∧
    ∀ (calls : List Broker.Call) requestId row,
      (run Broker.BrokerStore.step Broker.BrokerStore.empty calls).database.request?
        requestId = some row →
      ∃ chain, Broker.events requestId
          (run Broker.BrokerStore.step Broker.BrokerStore.empty
            calls).database.toTables = .ok chain ∧
        Rejected requestId chain := by
  constructor
  · intro requestId receiptId requestedPackage requestDigest generation deadlineMonoNs
      actions
    obtain ⟨state, hChain⟩ := Broker.Record.record_intact requestId receiptId
      requestedPackage requestDigest generation deadlineMonoNs actions
    exact rejected_of_intact hChain
  · intro calls requestId row hRow
    have hSound := Broker.BrokerStore.sound_of_run calls
    obtain ⟨chain, hChain⟩ := (hSound.requests requestId row hRow).chain
    exact ⟨chain, hChain.events_eq, rejected_of_intact hChain.intact⟩

/-- The chain of the sample request in a store. -/
theorem chains_rejected_sample :
    ∃ chain, Broker.events Broker.sampleRequest.requestId
        (run (@Broker.BrokerStore.step keyedHashCryptography) Broker.BrokerStore.empty
          [.submit Broker.sampleRequest Broker.allowAll]).database.toTables =
            .ok chain ∧
      @Rejected keyedHashCryptography Broker.sampleRequest.requestId chain := by
  have hPresent : ((run (@Broker.BrokerStore.step keyedHashCryptography)
      Broker.BrokerStore.empty
      [.submit Broker.sampleRequest Broker.allowAll]).database.request?
        Broker.sampleRequest.requestId).isSome = true := by
    decide +kernel
  obtain ⟨row, hRow⟩ := Option.isSome_iff_exists.mp hPresent
  exact (@chains_rejected keyedHashCryptography).2 _ _ row hRow

/-- A new record with the bindings of the sample request. -/
def sampleRecord : Broker.Record.LifecycleRecord :=
  @Broker.Record.LifecycleRecord.new keyedHashCryptography
    Broker.sampleRequest.requestId Broker.sampleRequest.requestId
    Broker.sampleRequest.packageName (ByteArr.fill 32 4) 0 100

/-- The only event of a new record is rejected. -/
theorem new_record_rejected :
    ¬ @AcceptedByAll keyedHashCryptography Broker.sampleRequest.requestId
      sampleRecord.events := by
  obtain ⟨state, hChain⟩ := @Broker.Record.record_intact keyedHashCryptography
    Broker.sampleRequest.requestId Broker.sampleRequest.requestId
    Broker.sampleRequest.packageName (ByteArr.fill 32 4) 0 100 []
  have hRejected := @rejected_of_intact keyedHashCryptography _ _ _ hChain
  exact @Rejected.all keyedHashCryptography _ _ hRejected

end Hosted
end RootPermit
