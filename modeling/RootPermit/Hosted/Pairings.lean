import RootPermit.Hosted.Updates

/-!
# Effects of the segments

A turn runs one segment, which a call or the settling of a suspended route starts
(`Stimulus`).  This module says once what it can do:

* `pairingRouteWithBody_eq` — what a confirmation with the right code is answered;
* `run_effect` — a segment makes updates outside the pairings, or stores one pairing,
  and stores a device exactly when that completes the pairing.
-/

namespace RootPermit
namespace Hosted
namespace M3

open Foundation

/-! ### Segments and what starts them -/

/-- What starts a segment. -/
inductive Stimulus where
  | call (call : Call) (surroundings : Surroundings)
  | settled (point : Point) (settled : Settled) (surroundings : Surroundings)

/-- The session of a suspended route. -/
def Point.session? : Point → Option Session
  | .pairingBody session _ => some session
  | .decisionBody session _ => some session
  | .decisionCeremony session _ _ => some session
  | .revocationProof session _ _ => some session
  | _ => none

namespace Stimulus

def run [Cryptography] : Stimulus → M3Runtime → Progress × M3Runtime
  | .call made surroundings => enter (made, surroundings)
  | .settled point outcome surroundings => resume point (outcome, surroundings)

/-- The tenant of the session of a resumed route. -/
def tenant? : Stimulus → Option String
  | .call _ _ => none
  | .settled point _ _ => point.session?.map fun session => session.tenantId

/-- A resumed route holds what its point says. -/
def Holds (stimulus : Stimulus) (runtime : M3Runtime) : Prop :=
  ∀ point outcome surroundings, stimulus = .settled point outcome surroundings →
    Held point runtime

end Stimulus

/-- What starts the segment of a turn, if the turn runs one. -/
def Service.stimulus? (service : Service) : Turn → Option Stimulus
  | .enter (call, surroundings) => some (.call call surroundings)
  | .resume index (settled, surroundings) =>
      match service.tasks[index]? with
      | some (.suspended point) => some (.settled point settled surroundings)
      | _ => none

/-! ### The pairing of a segment -/

/-- The device of a completed pairing. -/
def Pairing.device (pairing : Pairing) (account : AccountIdentity) : Device where
  publicId := pairing.devicePublicId
  tenantId := account.tenantId
  displayName := "RootPermit device"
  enrollmentState := .active

/-- The account for which the pairing is completed. -/
def Pairing.completedFor? (pairing : Pairing) : Option AccountIdentity :=
  if pairing.rootConfirmed = true ∧ pairing.webConfirmed = true ∧
      pairing.consumed = false then pairing.claimedBy
  else none

theorem Pairing.completedFor?_eq_some_iff {pairing : Pairing}
    {account : AccountIdentity} :
    pairing.completedFor? = some account ↔ pairing.rootConfirmed = true ∧
      pairing.webConfirmed = true ∧ pairing.consumed = false ∧
      pairing.claimedBy = some account := by
  unfold Pairing.completedFor?
  split
  · rename_i hOpen
    simp [hOpen]
  · rename_i hClosed
    simp only [not_and] at hClosed
    simp only [reduceCtorEq, false_iff, not_and]
    exact fun hRoot hWeb hLive => absurd hLive (hClosed hRoot hWeb)

def Pairing.consume (pairing : Pairing) : Pairing :=
  { pairing with consumed := true }

def Pairing.claimFor (account : AccountIdentity) (pairing : Pairing) : Pairing :=
  { pairing with claimedBy := some account }

def Pairing.confirmByBroker (pairing : Pairing) : Pairing :=
  { pairing with rootConfirmed := true }

def Pairing.confirmByAccount (pairing : Pairing) : Pairing :=
  { pairing with webConfirmed := true }

def M3Runtime.changePairing (runtime : M3Runtime) (id : String)
    (change : Pairing → Pairing) : M3Runtime :=
  { runtime with
    pairings := Table.update (fun pairing => decide (pairing.id = id)) change
      runtime.pairings }

/-- This pairing is stored, the others are as they were, and so are the credentials and
the requests. -/
structure Stores (before : M3Runtime) (pairing : Pairing) (after : M3Runtime) :
    Prop where
  stored : after.pairing? pairing.id = some pairing
  others : ∀ id, id ≠ pairing.id → after.pairing? id = before.pairing? id
  credentials : after.credentials = before.credentials
  requests : after.requests = before.requests

/-- A confirmed pairing is stored as it is, or consumed and with its device when it is
complete. -/
def Settles (before : M3Runtime) (next : Pairing) (after : M3Runtime) : Prop :=
  match next.completedFor? with
  | none => Stores before next after ∧ after.devices = before.devices
  | some account =>
      Stores before next.consume after ∧
        after.devices =
          Table.put Device.publicId (next.device account) before.devices

section Handlers

variable {runtime : M3Runtime} {id : String} {pairing : Pairing} {now : Double}

theorem stores_change (change : Pairing → Pairing)
    (hFound : runtime.pairing? id = some pairing)
    (hKey : ∀ pairing, (change pairing).id = pairing.id) :
    Stores runtime (change pairing) (runtime.changePairing id change) := by
  have hId : pairing.id = id := Table.column_of_lookup hFound
  have hLookup : ∀ other, (runtime.changePairing id change).pairing? other =
      (runtime.pairing? other).map fun found =>
        if decide (found.id = id) then change found else found :=
    fun _ => Table.lookup_update hKey
  refine ⟨?_, fun other hOther => ?_, rfl, rfl⟩
  · rw [hKey, hId, hLookup, hFound, Option.map_some, if_pos (decide_eq_true hId)]
  · rw [hKey, hId] at hOther
    rw [hLookup]
    cases hRow : runtime.pairing? other with
    | none => rfl
    | some found =>
        have hFoundId : found.id = other := Table.column_of_lookup hRow
        rw [Option.map_some, if_neg]
        simpa [hFoundId] using hOther

theorem heldPairing_eq (hFound : runtime.pairing? id = some pairing) :
    heldPairing id runtime = (.ok pairing, runtime) := by
  have hRead : orFault "service_unavailable"
      (Table.lookup Pairing.id id runtime.pairings) = .ok pairing :=
    orFault_eq_ok_iff.mpr hFound
  exact Prod.ext hRead rfl

/-- A live pairing is found, a dead one is consumed. -/
theorem livePairing_eq (id : String) (now : Double) (runtime : M3Runtime) :
    livePairing id now runtime =
      match runtime.pairing? id with
      | none => (.error "not_found_or_not_authorized", runtime)
      | some pairing =>
          if pairing.consumed = true ∨ pairing.expiresAt.le now = true then
            (.error "not_found_or_not_authorized",
              runtime.changePairing id Pairing.consume)
          else (.ok pairing, runtime) := by
  have hRead : (Segment.check fun runtime : M3Runtime =>
      Except.ok (Table.lookup Pairing.id id runtime.pairings) :
        Handler (Option Pairing)) runtime = (.ok (runtime.pairing? id), runtime) := rfl
  rw [livePairing, Segment.bind_of_ok hRead]
  cases runtime.pairing? id with
  | none => rfl
  | some pairing =>
      simp only
      split
      · rfl
      · rfl

theorem livePairing_of_live (hFound : runtime.pairing? pairing.id = some pairing)
    (hLive : pairing.consumed = false) (hTime : pairing.expiresAt.le now = false) :
    livePairing pairing.id now runtime = (.ok pairing, runtime) := by
  have hRead := livePairing_eq pairing.id now runtime
  rw [hFound] at hRead
  simp only at hRead
  rw [if_neg (by simp [hLive, hTime])] at hRead
  exact hRead

/-- A pairing is activated exactly when it is complete. -/
theorem tryActivate_eq (hFound : runtime.pairing? id = some pairing) :
    tryActivate id runtime = (.ok (),
      match pairing.completedFor? with
      | none => runtime
      | some account =>
          { runtime with
            devices := Table.put Device.publicId (pairing.device account)
              runtime.devices }.changePairing id Pairing.consume) := by
  rw [tryActivate, Segment.bind_of_ok (heldPairing_eq hFound), Pairing.completedFor?]
  cases hClaimed : pairing.claimedBy with
  | none =>
      simp only [ite_self]
      rfl
  | some account =>
      simp only
      split
      · rfl
      · rfl

theorem settles_tryActivate {next : Pairing} {change : Pairing → Pairing}
    (hFound : runtime.pairing? pairing.id = some pairing)
    (hChange : change pairing = next)
    (hKey : ∀ pairing, (change pairing).id = pairing.id) :
    Settles runtime next
      (tryActivate pairing.id (runtime.changePairing pairing.id change)).2 := by
  have hStores := stores_change change hFound hKey
  have hId : next.id = pairing.id := by
    rw [← hChange]
    exact hKey pairing
  rw [hChange] at hStores
  have hStored := hStores.stored
  rw [hId] at hStored
  rw [tryActivate_eq hStored]
  unfold Settles
  cases next.completedFor? with
  | none => exact ⟨hStores, rfl⟩
  | some account =>
      let activated : M3Runtime := { runtime.changePairing pairing.id change with
        devices := Table.put Device.publicId (next.device account) runtime.devices }
      have hConsumed : Stores activated next.consume
          (activated.changePairing pairing.id Pairing.consume) :=
        stores_change Pairing.consume hStored fun _ => rfl
      refine ⟨⟨hConsumed.stored, fun other hOther => ?_, rfl, rfl⟩, rfl⟩
      exact (hConsumed.others other hOther).trans (hStores.others other hOther)

theorem updatePairing_bind {α : Type} {change : Pairing → Pairing}
    {rest : Unit → Handler α} :
    (updatePairing id change >>= rest) runtime =
      rest () (runtime.changePairing id change) :=
  Segment.bind_of_ok rfl

/-- After a confirmation the activation does not throw. -/
theorem confirm_eq (hFound : runtime.pairing? pairing.id = some pairing)
    (change : Pairing → Pairing) (hKey : ∀ pairing, (change pairing).id = pairing.id) :
    tryActivate pairing.id (runtime.changePairing pairing.id change) =
      (.ok (),
        (tryActivate pairing.id (runtime.changePairing pairing.id change)).2) := by
  have hStored := (stores_change change hFound hKey).stored
  rw [hKey] at hStored
  exact Prod.ext (by rw [tryActivate_eq hStored]) rfl

theorem requireCsrf_eq (request : Request) (session : Session) :
    requireCsrf request session runtime = (.ok (), runtime) ∨
      ∃ message, requireCsrf request session runtime = (.error message, runtime) := by
  cases hOrigin : rejectIf (request.origin ≠ some runtime.officialOrigin)
      "csrf_failed" with
  | error message =>
      right
      refine ⟨message, Segment.check_bind_of_error ?_⟩
      exact hOrigin
  | ok _ =>
      cases hToken : rejectIf (request.csrf.map utf8 ≠ some (utf8 session.csrfToken))
          "csrf_failed" with
      | error message =>
          right
          refine ⟨message, (Segment.check_bind_of_ok (?_ : _ = Except.ok ())).trans
            (Prod.ext hToken rfl)⟩
          exact hOrigin
      | ok _ =>
          left
          refine (Segment.check_bind_of_ok (?_ : _ = Except.ok ())).trans
            (Prod.ext hToken rfl)
          exact hOrigin

end Handlers

/-! ### What a segment does -/

/-- The code in the body of a confirmation. -/
def comparisonCode (body : Json) : Except String String := do
  let fields ← jsonObject body
  stringField fields "comparisonCode" 6

/-- The request of a session to claim a pairing. -/
structure ClaimRequest (session : Session) (pairingId : String) (runtime : M3Runtime)
    (request : Request) (surroundings : Surroundings) : Prop where
  path : pairingPath? request.pathname = some (pairingId, "claim")
  admitted : requireSession request surroundings.admittedAt runtime =
    (.ok session, runtime)

/-! ### The effect of a segment -/

variable [Cryptography]

/-- The pairing that a broker prepares. -/
def PairingInput.pairing (input : PairingInput) : Pairing where
  id := input.pairingId
  devicePublicId := input.devicePublicId
  brokerKeyDigest := digest "broker-key" input.brokerPublicKey
  nonceDigest := digest "pairing-nonce" input.nonce
  comparisonCodeDigest := digestText "comparison-code" input.comparisonCode
  expiresAt := input.expiresAt
  claimedBy := none
  rootConfirmed := false
  webConfirmed := false
  consumed := false

/-- A confirmation of a pairing with what was prepared, and what it makes of the
pairing. -/
inductive Confirms (pairing : Pairing) : Stimulus → Pairing → Prop where
  | broker (nonce brokerPublicKey : Bytes) (surroundings : Surroundings)
      (hLive : pairing.consumed = false)
      (hTime : pairing.expiresAt.le surroundings.now = false)
      (hNonce : pairing.nonceDigest = digest "pairing-nonce" nonce)
      (hKey : pairing.brokerKeyDigest = digest "broker-key" brokerPublicKey) :
      Confirms pairing
        (.call (.confirmPairingFromBroker pairing.id nonce brokerPublicKey)
          surroundings)
        pairing.confirmByBroker
  | account (session : Session) (body : Json) (code : String)
      (surroundings : Surroundings) (hBody : comparisonCode body = .ok code)
      (hCode : pairing.comparisonCodeDigest = digestText "comparison-code" code) :
      Confirms pairing (.settled (.pairingBody session pairing.id) (.body body)
        surroundings) pairing.confirmByAccount

/-- A confirmation of a pairing with something else than was prepared. -/
inductive Mismatches (pairing : Pairing) : Stimulus → Prop where
  | broker (nonce brokerPublicKey : Bytes) (surroundings : Surroundings)
      (hLive : pairing.consumed = false)
      (hTime : pairing.expiresAt.le surroundings.now = false)
      (hOther : pairing.nonceDigest ≠ digest "pairing-nonce" nonce ∨
        pairing.brokerKeyDigest ≠ digest "broker-key" brokerPublicKey) :
      Mismatches pairing
        (.call (.confirmPairingFromBroker pairing.id nonce brokerPublicKey)
          surroundings)
  | account (session : Session) (body : Json) (code : String)
      (surroundings : Surroundings) (hBody : comparisonCode body = .ok code)
      (hOther : pairing.comparisonCodeDigest ≠ digestText "comparison-code" code) :
      Mismatches pairing
        (.settled (.pairingBody session pairing.id) (.body body) surroundings)

/-- What a segment does. -/
inductive Effect (before : M3Runtime) (stimulus : Stimulus) :
    Progress → M3Runtime → Prop where
  | updated {progress : Progress} {after : M3Runtime}
      (hUpdates : Updates stimulus.tenant? before after)
      (hPoint : PointHeld progress after) : Effect before stimulus progress after
  | prepared {answer : Answer} {after : M3Runtime} (input : PairingInput)
      (surroundings : Surroundings)
      (hCall : stimulus = .call (.preparePairing input) surroundings)
      (hTime : input.expiresAt.le surroundings.now = false)
      (hNew : before.pairing? input.pairingId = none)
      (hStores : Stores before input.pairing after)
      (hDevices : after.devices = before.devices) :
      Effect before stimulus (.answered answer) after
  | consumed {answer : Answer} {after : M3Runtime} (pairing : Pairing)
      (hFound : before.pairing? pairing.id = some pairing)
      (hStores : Stores before pairing.consume after)
      (hDevices : after.devices = before.devices) :
      Effect before stimulus (.answered answer) after
  | claimed {answer : Answer} {after : M3Runtime} (pairing : Pairing)
      (session : Session) (request : Request) (surroundings : Surroundings)
      (hFound : before.pairing? pairing.id = some pairing)
      (hCall : stimulus = .call (.handle request) surroundings)
      (hClaim : ClaimRequest session pairing.id before request surroundings)
      (hFree : pairing.claimedBy = none ∨
        pairing.claimedBy = some session.toAccountIdentity)
      (hStores : Stores before (pairing.claimFor session.toAccountIdentity) after)
      (hDevices : after.devices = before.devices) :
      Effect before stimulus (.answered answer) after
  | confirmed {answer : Answer} {after : M3Runtime} (pairing next : Pairing)
      (hFound : before.pairing? pairing.id = some pairing)
      (hConfirms : Confirms pairing stimulus next) (hOpen : next.completedFor? = none)
      (hStores : Stores before next after)
      (hDevices : after.devices = before.devices) :
      Effect before stimulus (.answered answer) after
  | completed {answer : Answer} {after : M3Runtime} (pairing next : Pairing)
      (account : AccountIdentity)
      (hFound : before.pairing? pairing.id = some pairing)
      (hConfirms : Confirms pairing stimulus next)
      (hComplete : next.completedFor? = some account)
      (hStores : Stores before next.consume after)
      (hDevices : after.devices =
        Table.put Device.publicId (next.device account) before.devices) :
      Effect before stimulus (.answered answer) after

section Effects

variable {runtime : M3Runtime} {stimulus : Stimulus}

/-- An effect of a segment on the runtime, given with its answer. -/
abbrev Effect.Of (runtime : M3Runtime) (stimulus : Stimulus)
    (outcome : Progress × M3Runtime) : Prop :=
  Effect runtime stimulus outcome.1 outcome.2

/-- A segment that throws in a state leaves that state behind. -/
theorem effect_of_updating {handler : Handler Progress}
    (h : Updating stimulus.tenant? handler runtime PointHeld) :
    Effect.Of runtime stimulus (caught (handler runtime)) := by
  obtain ⟨hUpdates, hPoint⟩ := caught_guarantees h
  exact .updated hUpdates fun point hSuspended => hPoint point hSuspended point rfl

theorem effect_of_finished {handler : Handler Unit}
    (h : Updating stimulus.tenant? handler runtime fun _ _ => True) :
    Effect.Of runtime stimulus (finished (handler runtime)) := by
  obtain ⟨hUpdates, hPoint⟩ := finished_guarantees h
  exact .updated hUpdates fun point hSuspended => absurd hSuspended (hPoint point)

/-- A thrown error answers the call. -/
theorem effect_of_threw (answer : Answer) :
    Effect runtime stimulus (.answered answer) runtime := by
  refine .updated .refl ?_
  intro point hPoint
  cases hPoint

/-- Until its checks have succeeded a segment does nothing. -/
theorem effect_of_check {α β : Type} {read : M3Runtime → Except String α}
    {rest : α → Handler β} {close : Except String β × M3Runtime → Progress × M3Runtime}
    (hThrows : ∀ message, ∃ answer,
      close (.error message, runtime) = (.answered answer, runtime))
    (hRest : ∀ value, read runtime = .ok value →
      Effect.Of runtime stimulus (close (rest value runtime))) :
    Effect.Of runtime stimulus (close ((.check read >>= rest) runtime)) := by
  cases hRead : read runtime with
  | error message =>
      obtain ⟨answer, hAnswer⟩ := hThrows message
      rw [Segment.check_bind_of_error hRead, hAnswer]
      exact effect_of_threw answer
  | ok value =>
      rw [Segment.check_bind_of_ok hRead]
      exact hRest value hRead

/-- A pairing that is not live any more is consumed. -/
theorem effect_of_live {β : Type} {id : String} {now : Double} {rest : Pairing → Handler β}
    {close : Except String β × M3Runtime → Progress × M3Runtime}
    (hThrows : ∀ message runtime, ∃ answer,
      close (.error message, runtime) = (.answered answer, runtime))
    (hRest : ∀ pairing, runtime.pairing? pairing.id = some pairing → pairing.id = id →
      pairing.consumed = false → pairing.expiresAt.le now = false →
      Effect.Of runtime stimulus (close (rest pairing runtime))) :
    Effect.Of runtime stimulus (close ((livePairing id now >>= rest) runtime)) := by
  have hRead := livePairing_eq id now runtime
  cases hFound : runtime.pairing? id with
  | none =>
      rw [hFound] at hRead
      obtain ⟨answer, hAnswer⟩ := hThrows "not_found_or_not_authorized" runtime
      rw [Segment.bind_of_error hRead, hAnswer]
      exact effect_of_threw answer
  | some pairing =>
      obtain rfl : pairing.id = id := Table.column_of_lookup hFound
      rw [hFound] at hRead
      simp only at hRead
      by_cases hDead : pairing.consumed = true ∨ pairing.expiresAt.le now = true
      · rw [if_pos hDead] at hRead
        obtain ⟨answer, hAnswer⟩ := hThrows "not_found_or_not_authorized"
          (runtime.changePairing pairing.id Pairing.consume)
        rw [Segment.bind_of_error hRead, hAnswer]
        exact .consumed pairing hFound (stores_change _ hFound fun _ => rfl) rfl
      · rw [if_neg hDead] at hRead
        rw [Segment.bind_of_ok hRead]
        rw [not_or, Bool.not_eq_true, Bool.not_eq_true] at hDead
        exact hRest pairing hFound rfl hDead.1 hDead.2

/-- A confirmation completes the pairing or leaves it open. -/
theorem effect_of_confirms {answer : Answer} {pairing next : Pairing}
    {after : M3Runtime} (hFound : runtime.pairing? pairing.id = some pairing)
    (hConfirms : Confirms pairing stimulus next)
    (hSettles : Settles runtime next after) :
    Effect runtime stimulus (.answered answer) after := by
  unfold Settles at hSettles
  cases hComplete : next.completedFor? with
  | none =>
      rw [hComplete] at hSettles
      exact .confirmed pairing next hFound hConfirms hComplete hSettles.1 hSettles.2
  | some account =>
      rw [hComplete] at hSettles
      exact .completed pairing next account hFound hConfirms hComplete hSettles.1
        hSettles.2

theorem preparePairing_effect (input : PairingInput) (surroundings : Surroundings) :
    Effect.Of runtime (.call (.preparePairing input) surroundings)
      (finished (preparePairing input surroundings.now runtime)) := by
  have hThrows : ∀ message, ∃ answer,
      finished (.error message, runtime) = (.answered answer, runtime) :=
    fun message => ⟨.threw message, rfl⟩
  iterate 4
    refine effect_of_check hThrows fun _ _ => ?_
  refine effect_of_check hThrows fun _ hTranscript => ?_
  refine effect_of_check hThrows fun _ hReplayed => ?_
  rw [rejectIf_eq_ok_iff, not_or, Bool.not_eq_true] at hTranscript
  rw [rejectIf_eq_ok_iff] at hReplayed
  have hNew : Table.lookup Pairing.id input.pairing.id runtime.pairings = none :=
    Option.not_isSome_iff_eq_none.mp hReplayed
  refine .prepared input surroundings rfl hTranscript.2 hNew ?_ rfl
  have hLookup : ∀ id, Table.lookup Pairing.id id
      (Table.put Pairing.id input.pairing runtime.pairings) =
        (runtime.pairing? id).or
          (if input.pairingId = id then some input.pairing else none) := by
    intro id
    rw [Table.put_of_absent hNew, Table.lookup_append]
    rfl
  refine ⟨?_, fun id hId => ?_, rfl, rfl⟩
  · refine (hLookup _).trans ?_
    have hId : input.pairingId = input.pairing.id := rfl
    rw [M3Runtime.pairing?, hNew, if_pos hId]
    rfl
  · refine (hLookup id).trans ?_
    rw [if_neg fun h => hId h.symm, Option.or_none]

theorem confirmPairingFromBroker_effect (pairingId : String)
    (nonce brokerPublicKey : Bytes) (surroundings : Surroundings) :
    Effect.Of runtime
      (.call (.confirmPairingFromBroker pairingId nonce brokerPublicKey) surroundings)
      (finished (confirmPairingFromBroker pairingId nonce brokerPublicKey
        surroundings.now runtime)) := by
  have hThrows : ∀ message runtime, ∃ answer,
      finished (.error message, runtime) = (.answered answer, runtime) :=
    fun message _ => ⟨.threw message, rfl⟩
  refine effect_of_live hThrows ?_
  rintro pairing hFound rfl hLive hTime
  split
  · exact .consumed pairing hFound (stores_change _ hFound fun _ => rfl) rfl
  · rename_i hMatches
    rw [not_or, not_not, not_not] at hMatches
    rw [updatePairing_bind]
    change Effect.Of runtime _ (finished (tryActivate pairing.id
      (runtime.changePairing pairing.id Pairing.confirmByBroker)))
    rw [confirm_eq hFound Pairing.confirmByBroker fun _ => rfl]
    refine effect_of_confirms hFound (.broker nonce brokerPublicKey surroundings hLive
      hTime hMatches.1 hMatches.2) ?_
    exact settles_tryActivate hFound rfl fun _ => rfl

theorem pairingRoute_effect (session : Session) (pairingId action : String)
    (request : Request) (surroundings : Surroundings)
    (hAction : action = "claim" → ClaimRequest session pairingId runtime request
      surroundings) :
    Effect.Of runtime (.call (.handle request) surroundings)
      (caught (pairingRoute session pairingId action request surroundings.now
        runtime)) := by
  have hThrows : ∀ message runtime, ∃ answer,
      caught (.error message, runtime) = (.answered answer, runtime) :=
    fun message _ => ⟨.response (mapError message), rfl⟩
  unfold pairingRoute
  rcases requireCsrf_eq request session with hCsrf | ⟨message, hCsrf⟩
  swap
  · rw [Segment.bind_of_error hCsrf]
    exact effect_of_threw _
  rw [Segment.bind_of_ok hCsrf]
  refine effect_of_live hThrows ?_
  rintro pairing hFound rfl hLive hTime
  -- A claim is answered at once; a confirmation waits for its body.
  split
  · rename_i hClaim
    refine effect_of_check (fun message => hThrows message runtime) fun _ hFree => ?_
    rw [rejectIf_eq_ok_iff, not_and_or, not_not, not_not] at hFree
    have hStores := stores_change (Pairing.claimFor session.toAccountIdentity) hFound
      fun _ => rfl
    exact .claimed pairing session request surroundings hFound rfl (hAction hClaim)
      hFree hStores rfl
  · refine effect_of_check (fun message => hThrows message runtime) fun _ hOwner => ?_
    rw [rejectIf_eq_ok_iff, not_not] at hOwner
    exact effect_of_updating (await_updating ⟨pairing, hFound, hOwner⟩)

/-- A confirmation with the body of its request. -/
theorem pairingRouteWithBody_eq {pairing : Pairing} {body : Json} {code : String}
    (hFound : runtime.pairing? pairing.id = some pairing)
    (hBody : comparisonCode body = .ok code)
    (hCode : pairing.comparisonCodeDigest = digestText "comparison-code" code) :
    let after := (tryActivate pairing.id
      (runtime.changePairing pairing.id Pairing.confirmByAccount)).2
    ∃ next, after.pairing? pairing.id = some next ∧
      pairingRouteWithBody pairing.id body runtime =
        (.ok (.answered (.response (json (.object [("state",
          .string (if next.consumed = true then "active" else "codes_confirmed"))])
          200 []))), after) := by
  intro after
  have hSettles : Settles runtime pairing.confirmByAccount after :=
    settles_tryActivate hFound rfl fun _ => rfl
  have hNext : ∃ next, after.pairing? pairing.id = some next := by
    unfold Settles at hSettles
    split at hSettles
    · exact ⟨_, hSettles.1.stored⟩
    · exact ⟨_, hSettles.1.stored⟩
  obtain ⟨next, hNext⟩ := hNext
  refine ⟨next, hNext, ?_⟩
  refine (Segment.check_bind_of_ok (?_ : _ = Except.ok code)).trans ?_
  · exact hBody
  rw [Segment.bind_of_ok (heldPairing_eq hFound), if_neg (not_not_intro hCode),
    updatePairing_bind]
  refine (Segment.bind_of_ok (confirm_eq hFound Pairing.confirmByAccount
    fun _ => rfl)).trans ?_
  exact (Segment.bind_of_ok (heldPairing_eq hNext)).trans rfl

theorem pairingRouteWithBody_mismatch {pairing : Pairing} {body : Json} {code : String}
    (hFound : runtime.pairing? pairing.id = some pairing)
    (hBody : comparisonCode body = .ok code)
    (hOther : pairing.comparisonCodeDigest ≠ digestText "comparison-code" code) :
    pairingRouteWithBody pairing.id body runtime =
      (.error "pairing_mismatch",
        runtime.changePairing pairing.id Pairing.consume) := by
  refine (Segment.check_bind_of_ok (?_ : _ = Except.ok code)).trans ?_
  · exact hBody
  rw [Segment.bind_of_ok (heldPairing_eq hFound), if_pos hOther, updatePairing_bind]
  rfl

theorem pairingRouteWithBody_effect (session : Session) (pairingId : String)
    (body : Json) (surroundings : Surroundings)
    (hHeld : Held (.pairingBody session pairingId) runtime) :
    Effect.Of runtime (.settled (.pairingBody session pairingId) (.body body)
        surroundings) (caught (pairingRouteWithBody pairingId body runtime)) := by
  obtain ⟨pairing, hFound, -⟩ := hHeld
  obtain rfl : pairing.id = pairingId := Table.column_of_lookup hFound
  cases hBody : comparisonCode body with
  | error message =>
      have hRun : pairingRouteWithBody pairing.id body runtime =
          (.error message, runtime) := Segment.check_bind_of_error hBody
      rw [hRun]
      exact effect_of_threw _
  | ok code =>
      by_cases hCode : pairing.comparisonCodeDigest = digestText "comparison-code" code
      · obtain ⟨next, -, hRun⟩ := pairingRouteWithBody_eq hFound hBody hCode
        rw [hRun]
        refine effect_of_confirms hFound (.account session body code surroundings hBody
          hCode) ?_
        exact settles_tryActivate hFound rfl fun _ => rfl
      · rw [pairingRouteWithBody_mismatch hFound hBody hCode]
        exact .consumed pairing hFound (stores_change _ hFound fun _ => rfl) rfl

/-- A call of `handle` is for a pairing, or it leaves the pairings alone. -/
theorem handle_effect (request : Request) (surroundings : Surroundings) :
    Effect.Of runtime (.call (.handle request) surroundings)
      (caught (handle request surroundings runtime)) := by
  unfold handle
  split
  · apply effect_of_updating
    apply Segment.Guarantees.check_bind
    intro _ _
    exact await_updating trivial
  split
  · exact effect_of_updating (await_updating trivial)
  split
  · exact effect_of_updating (await_updating trivial)
  have hThrows : ∀ message, ∃ answer,
      caught (.error message, runtime) = (.answered answer, runtime) :=
    fun message => ⟨.response (mapError message), rfl⟩
  refine effect_of_check hThrows fun session hSession => ?_
  by_cases hOther : pairingPath? request.pathname = none ∨ request.method ≠ "POST"
  · exact effect_of_updating (sessionRoutes_updating session request _ hOther)
  · rw [not_or, not_not] at hOther
    obtain ⟨⟨pairingId, action⟩, hPath⟩ := Option.ne_none_iff_exists'.mp hOther.1
    have hRoute : sessionRoutes session request surroundings.now =
        pairingRoute session pairingId action request surroundings.now := by
      rw [sessionRoutes, if_neg, hPath, decide_eq_true hOther.2]
      rw [hOther.2]
      simp
    rw [hRoute]
    apply pairingRoute_effect
    rintro rfl
    exact ⟨hPath, Prod.ext hSession rfl⟩

theorem proceed_effect (point : Point) (settled : Settled) (surroundings : Surroundings)
    (hHeld : Held point runtime) :
    Effect.Of runtime (.settled point settled surroundings)
      (caught (proceed point settled surroundings runtime)) := by
  unfold proceed
  split
  · exact effect_of_threw _
  · apply effect_of_updating
    apply Segment.Guarantees.check_bind
    intro _ _
    exact await_updating trivial
  · exact effect_of_updating (createSessionWithIdentity_updating _ surroundings)
  · apply effect_of_updating
    apply Segment.Guarantees.check_bind
    intro _ _
    exact await_updating trivial
  · exact effect_of_updating (relayInboxWithBody_updating _)
  · exact effect_of_updating (relayOutboxRoute_updating _)
  · exact pairingRouteWithBody_effect _ _ _ surroundings hHeld
  · apply effect_of_updating
    apply Segment.Guarantees.check_bind
    intro _ _
    exact await_updating trivial
  · exact effect_of_updating (decisionWithCeremony_updating _ _ _ surroundings)
  · exact effect_of_updating (revocationRouteWithProof_updating _ surroundings hHeld)
  · exact effect_of_updating (await_updating hHeld)

/-- The effect of every segment. -/
theorem run_effect (stimulus : Stimulus) (hHolds : stimulus.Holds runtime) :
    Effect.Of runtime stimulus (stimulus.run runtime) := by
  cases stimulus with
  | call made surroundings =>
      cases made with
      | preparePairing input => exact preparePairing_effect input surroundings
      | confirmPairingFromBroker pairingId nonce brokerPublicKey =>
          exact confirmPairingFromBroker_effect pairingId nonce brokerPublicKey
            surroundings
      | enrollCredential input =>
          exact effect_of_finished (enrollCredential_updating input)
      | ingestVerifiedRequest input =>
          exact effect_of_finished (ingestVerifiedRequest_updating input)
      | ingestVerifiedBrokerReceipt requestPublicId terminalState =>
          exact effect_of_finished (ingestVerifiedBrokerReceipt_updating requestPublicId
            terminalState)
      | handle request => exact handle_effect request surroundings
  | settled point outcome surroundings =>
      exact proceed_effect point outcome surroundings
        (hHolds point outcome surroundings rfl)

/-- A segment with a confirmation settles the pairing. -/
theorem confirms_run {pairing next : Pairing}
    (hFound : runtime.pairing? pairing.id = some pairing)
    (hConfirms : Confirms pairing stimulus next) :
    Settles runtime next (stimulus.run runtime).2 := by
  cases hConfirms with
  | broker nonce brokerPublicKey surroundings hLive hTime hNonce hKey =>
      have hRead := livePairing_of_live hFound hLive hTime
      have hRun : confirmPairingFromBroker pairing.id nonce brokerPublicKey
          surroundings.now runtime = (.ok (), (tryActivate pairing.id
            (runtime.changePairing pairing.id Pairing.confirmByBroker)).2) := by
        rw [confirmPairingFromBroker, Segment.bind_of_ok hRead, if_neg (by
          simp [hNonce, hKey]), updatePairing_bind]
        exact confirm_eq hFound Pairing.confirmByBroker fun _ => rfl
      show Settles runtime _ (finished (confirmPairingFromBroker pairing.id nonce
        brokerPublicKey surroundings.now runtime)).2
      rw [hRun]
      exact settles_tryActivate hFound rfl fun _ => rfl
  | account session body code surroundings hBody hCode =>
      obtain ⟨found, -, hRun⟩ := pairingRouteWithBody_eq hFound hBody hCode
      show Settles runtime _ (caught (pairingRouteWithBody pairing.id body runtime)).2
      rw [hRun]
      exact settles_tryActivate hFound rfl fun _ => rfl

/-- A segment with a mismatch consumes the pairing. -/
theorem mismatches_run {pairing : Pairing}
    (hFound : runtime.pairing? pairing.id = some pairing)
    (hMismatch : Mismatches pairing stimulus) :
    Stores runtime pairing.consume (stimulus.run runtime).2 := by
  cases hMismatch with
  | broker nonce brokerPublicKey surroundings hLive hTime hOther =>
      have hRead := livePairing_of_live hFound hLive hTime
      have hRun : confirmPairingFromBroker pairing.id nonce brokerPublicKey
          surroundings.now runtime = (.error "pairing_mismatch",
            runtime.changePairing pairing.id Pairing.consume) := by
        rw [confirmPairingFromBroker, Segment.bind_of_ok hRead, if_pos hOther,
          updatePairing_bind]
        rfl
      show Stores runtime _ (finished (confirmPairingFromBroker pairing.id nonce
        brokerPublicKey surroundings.now runtime)).2
      rw [hRun]
      exact stores_change Pairing.consume hFound fun _ => rfl
  | account session body code surroundings hBody hOther =>
      show Stores runtime _ (caught (pairingRouteWithBody pairing.id body runtime)).2
      rw [pairingRouteWithBody_mismatch hFound hBody hOther]
      exact stores_change Pairing.consume hFound fun _ => rfl

end Effects

end M3
end Hosted
end RootPermit
