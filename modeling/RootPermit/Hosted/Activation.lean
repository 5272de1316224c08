import RootPermit.Hosted.Turns

/-!
# The activation of a pairing

The broker and the account that has claimed a pairing confirm it, in any order, and the
second confirmation activates its device.  The request of the account is checked before
its body is read and takes effect afterwards.

* `preparedFrom`, `brokerConfirmed`, `accountConfirmed` — what a stored pairing says has
  happened in the run;
* `pairingProtocol_iff` — a run keeps to the protocol exactly when every confirmation
  comes in time (`Timely`);
* `activated_too_late` — a run that does not.
-/

namespace RootPermit
namespace Hosted
namespace M3

open Foundation

/-- The time of a turn. -/
def Turn.now : Turn → Double
  | .enter (_, surroundings) => surroundings.now
  | .resume _ (_, surroundings) => surroundings.now

/-- The state in the answer to a confirmation. -/
def confirmedState (pairing : Pairing) : String :=
  if pairing.consumed = true then "active" else "codes_confirmed"

theorem confirmedState_eq_active_iff {pairing : Pairing} :
    confirmedState pairing = "active" ↔ pairing.consumed = true := by
  cases hConsumed : pairing.consumed <;> simp [confirmedState, hConsumed]

section Confirmations

variable [Cryptography]

/-! ### The pairing after a segment -/

/-- How a stored pairing came about in a segment. -/
inductive PairingEffect (before : M3Runtime) (stimulus : Stimulus) (after : M3Runtime)
    (id : String) : Pairing → Prop where
  | kept {next : Pairing} (hFound : before.pairing? id = some next) :
      PairingEffect before stimulus after id next
  | prepared (input : PairingInput) (surroundings : Surroundings)
      (hCall : stimulus = .call (.preparePairing input) surroundings)
      (hId : input.pairingId = id) (hNew : before.pairing? id = none) :
      PairingEffect before stimulus after id input.pairing
  | consumed (pairing : Pairing) (hFound : before.pairing? id = some pairing) :
      PairingEffect before stimulus after id pairing.consume
  | claimed (pairing : Pairing) (session : Session) (request : Request)
      (surroundings : Surroundings) (hFound : before.pairing? id = some pairing)
      (hCall : stimulus = .call (.handle request) surroundings)
      (hClaim : ClaimRequest session id before request surroundings) :
      PairingEffect before stimulus after id
        (pairing.claimFor session.toAccountIdentity)
  | confirmed (pairing next : Pairing) (hFound : before.pairing? id = some pairing)
      (hConfirms : Confirms pairing stimulus next) (hOpen : next.completedFor? = none) :
      PairingEffect before stimulus after id next
  | completed (pairing next : Pairing) (account : AccountIdentity)
      (hFound : before.pairing? id = some pairing)
      (hConfirms : Confirms pairing stimulus next)
      (hComplete : next.completedFor? = some account)
      (hDevices : after.devices =
        Table.put Device.publicId (next.device account) before.devices) :
      PairingEffect before stimulus after id next.consume

theorem Effect.pairingEffect {before after : M3Runtime} {stimulus : Stimulus}
    {progress : Progress} (h : Effect before stimulus progress after) {id : String}
    {next : Pairing} (hNext : after.pairing? id = some next) :
    PairingEffect before stimulus after id next := by
  have hCases {changed : Pairing} (hStores : Stores before changed after)
      (hChanged : id = changed.id → PairingEffect before stimulus after id changed) :
      PairingEffect before stimulus after id next := by
    by_cases hId : id = changed.id
    · have hStored := hStores.stored
      rw [← hId, hNext, Option.some.injEq] at hStored
      rw [hStored]
      exact hChanged hId
    · rw [hStores.others id hId] at hNext
      exact .kept hNext
  cases h with
  | updated hUpdates hPoint =>
      rw [M3Runtime.pairing?, hUpdates.pairings] at hNext
      exact .kept hNext
  | prepared input surroundings hCall hTime hNew hStores hDevices =>
      refine hCases hStores fun hId => ?_
      rw [hId]
      exact .prepared input surroundings hCall rfl hNew
  | consumed pairing hFound hStores hDevices =>
      refine hCases hStores fun hId => ?_
      rw [hId]
      exact .consumed pairing hFound
  | claimed pairing session request surroundings hFound hCall hClaim hFree hStores
      hDevices =>
      refine hCases hStores fun hId => ?_
      rw [hId]
      exact .claimed pairing session request surroundings hFound hCall hClaim
  | confirmed pairing changed hFound hConfirms hOpen hStores hDevices =>
      refine hCases hStores fun hId => ?_
      rw [hId.trans hConfirms.continues.1]
      exact .confirmed pairing changed hFound hConfirms hOpen
  | completed pairing changed account hFound hConfirms hComplete hStores hDevices =>
      refine hCases hStores fun hId => ?_
      rw [hId.trans hConfirms.continues.1]
      exact .completed pairing changed account hFound hConfirms hComplete hDevices

/-- What the flags of a stored pairing say of each other: a confirmed pairing has been
claimed, and without being consumed it lacks a confirmation. -/
structure Pairing.Open (pairing : Pairing) : Prop where
  claimed : pairing.webConfirmed = true → ∃ account, pairing.claimedBy = some account
  pending : pairing.consumed = false →
    ¬ (pairing.rootConfirmed = true ∧ pairing.webConfirmed = true)

/-- A pairing that its account has confirmed has been claimed, by this confirmation too. -/
theorem Confirms.claimed {before : M3Runtime} {stimulus : Stimulus} {pairing next : Pairing}
    (h : Confirms pairing stimulus next) (hHolds : stimulus.Holds before)
    (hFound : before.pairing? pairing.id = some pairing) (hOpen : pairing.Open) :
    next.webConfirmed = true → ∃ account, next.claimedBy = some account := by
  cases h with
  | broker nonce brokerPublicKey surroundings => exact hOpen.claimed
  | account session body code surroundings =>
      exact fun _ => ⟨_, hHolds.claimedBy hFound⟩

/-- The other side has confirmed the pairing before: its account before the broker's call,
or the broker before the body with the code arrives. -/
def Pairing.ConfirmedByOther (pairing : Pairing) : Stimulus → Prop
  | .call _ _ => pairing.webConfirmed = true
  | .settled _ _ _ => pairing.rootConfirmed = true

theorem Confirms.both_iff {stimulus : Stimulus} {pairing next : Pairing}
    (h : Confirms pairing stimulus next) :
    next.rootConfirmed = true ∧ next.webConfirmed = true ↔
      pairing.ConfirmedByOther stimulus := by
  cases h with
  | broker => exact and_iff_right rfl
  | account => exact and_iff_left rfl

/-- What holds in every state of a run. -/
structure PairingInvariant (service : Service) : Prop where
  held : service.Admits Held
  pairings : ∀ id pairing, service.shared.pairing? id = some pairing → pairing.Open

theorem PairingEffect.open {before after : M3Runtime} {stimulus : Stimulus} {id : String}
    {next : Pairing} (h : PairingEffect before stimulus after id next)
    (hHolds : stimulus.Holds before)
    (hBefore : ∀ pairing, before.pairing? id = some pairing → pairing.Open) :
    next.Open := by
  cases h with
  | kept hFound => exact hBefore next hFound
  | prepared input surroundings hCall hId hNew =>
      constructor
      · intro hWeb
        cases hWeb
      · rintro - ⟨hRoot, -⟩
        cases hRoot
  | consumed pairing hFound =>
      refine ⟨(hBefore pairing hFound).claimed, fun hLive => ?_⟩
      cases hLive
  | claimed pairing session request surroundings hFound hCall hClaim =>
      exact ⟨fun _ => ⟨_, rfl⟩, (hBefore pairing hFound).pending⟩
  | confirmed pairing _ hFound hConfirms hOpen =>
      obtain rfl : pairing.id = id := Table.column_of_lookup hFound
      have hClaimed := hConfirms.claimed hHolds hFound (hBefore pairing hFound)
      refine ⟨hClaimed, ?_⟩
      rintro hLive ⟨hRoot, hWeb⟩
      obtain ⟨account, hAccount⟩ := hClaimed hWeb
      have hComplete := Pairing.completedFor?_eq_some_iff.mpr ⟨hRoot, hWeb, hLive, hAccount⟩
      rw [hOpen] at hComplete
      cases hComplete
  | completed pairing middle account hFound hConfirms hComplete hDevices =>
      rw [Pairing.completedFor?_eq_some_iff] at hComplete
      refine ⟨fun _ => ⟨account, hComplete.2.2.2⟩, fun hLive => ?_⟩
      cases hLive

theorem PairingInvariant.turn {service : Service} (h : PairingInvariant service)
    (turn : Turn) : PairingInvariant (service.turn turn) := by
  refine ⟨turn_held h.held turn, fun id pairing hFound => ?_⟩
  cases hStimulus : service.stimulus? turn with
  | none =>
      rw [turn_of_stimulus_none hStimulus] at hFound
      exact h.pairings id pairing hFound
  | some stimulus =>
      exact ((turn_effect h.held hStimulus).pairingEffect hFound).open
        (holds_of_stimulus h.held hStimulus) (h.pairings id)

theorem PairingInvariant.run (officialOrigin : String) (turns : List Turn) :
    PairingInvariant (run Service.turn (Service.fresh officialOrigin) turns) := by
  apply run_invariant
  · refine ⟨?_, fun id pairing hFound => ?_⟩
    · intro point hPoint
      cases hPoint
    · cases hFound
  · intro service turn hService
    exact hService.turn turn

/-- A stored pairing continues along a run. -/
theorem run_pairing {service : Service} (hService : service.Admits Held)
    (turns : List Turn) {id : String} {pairing : Pairing}
    (hFound : service.shared.pairing? id = some pairing) :
    ∃ next, (Foundation.run Service.turn service turns).shared.pairing? id = some next ∧
      pairing.Continues next := by
  induction turns generalizing service pairing with
  | nil => exact ⟨pairing, hFound, .refl pairing⟩
  | cons turn turns ih =>
      obtain ⟨middle, hMiddle, hFirst⟩ := turn_pairing hService turn hFound
      obtain ⟨next, hNext, hRest⟩ := ih (turn_held hService turn) hMiddle
      exact ⟨next, hNext, hFirst.trans hRest⟩

/-! ### What happens to a pairing -/

/-- The turn prepares the pairing. -/
def Prepares (input : PairingInput) (service : Service) (turn : Turn) : Prop :=
  ∃ surroundings, turn = .enter (.preparePairing input, surroundings) ∧
    service.shared.pairing? input.pairingId = none ∧
    (service.turn turn).shared.pairing? input.pairingId = some input.pairing

/-- The account claims the pairing. -/
def AccountClaims (account : AccountIdentity) (pairingId : String) (service : Service)
    (turn : Turn) : Prop :=
  ∃ request surroundings session, turn = .enter (.handle request, surroundings) ∧
    ClaimRequest session pairingId service.shared request surroundings ∧
    session.toAccountIdentity = account

/-- The broker confirms the pairing with the nonce and the key that were prepared. -/
def BrokerConfirms (input : PairingInput) (_ : Service) (turn : Turn) : Prop :=
  ∃ nonce brokerPublicKey surroundings,
    turn = .enter (.confirmPairingFromBroker input.pairingId nonce brokerPublicKey,
      surroundings) ∧
    digest "pairing-nonce" nonce = digest "pairing-nonce" input.nonce ∧
    digest "broker-key" brokerPublicKey = digest "broker-key" input.brokerPublicKey

/-- The account confirms the pairing with the comparison code that was prepared. -/
def AccountConfirms (account : AccountIdentity) (input : PairingInput)
    (service : Service) (turn : Turn) : Prop :=
  ∃ index session body code surroundings,
    turn = .resume index (.body body, surroundings) ∧
    service.tasks[index]? =
      some (.suspended (.pairingBody session input.pairingId)) ∧
    session.toAccountIdentity = account ∧ comparisonCode body = .ok code ∧
    digestText "comparison-code" code = digestText "comparison-code" input.comparisonCode

/-- The turn consumes the pairing of the account, with both confirmations, and stores its
device. -/
def Activates (pairingId : String) (account : AccountIdentity) (service : Service)
    (turn : Turn) : Prop :=
  ∃ pairing next, service.shared.pairing? pairingId = some pairing ∧
    pairing.consumed = false ∧
    (service.turn turn).shared.pairing? pairingId = some next ∧
    next.consumed = true ∧ next.rootConfirmed = true ∧ next.webConfirmed = true ∧
    next.claimedBy = some account ∧
    (service.turn turn).shared.devices =
      Table.put Device.publicId (next.device account) service.shared.devices

/-- A mismatch consumes the pairing. -/
def MismatchConsumes (pairingId : String) (service : Service) (turn : Turn) : Prop :=
  ∃ pairing stimulus, service.shared.pairing? pairingId = some pairing ∧
    service.stimulus? turn = some stimulus ∧ Mismatches pairing stimulus

/-- A request to confirm the pairing is answered with this state. -/
def Answers (pairingId state : String) (service : Service) (turn : Turn) : Prop :=
  ∃ index session settled response, turn = .resume index settled ∧
    service.tasks[index]? = some (.suspended (.pairingBody session pairingId)) ∧
    (service.turn turn).tasks[index]? = some (.answered (.response response)) ∧
    response.status = 200 ∧ response.body = some (.object [("state", .string state)])

/-! ### What the flags of a pairing say -/

section Flags

variable {before after : M3Runtime} {stimulus : Stimulus} {id : String} {next : Pairing}

/-- A new pairing is a prepared one. -/
theorem PairingEffect.new (h : PairingEffect before stimulus after id next)
    (hNew : before.pairing? id = none) :
    ∃ input surroundings, stimulus = .call (.preparePairing input) surroundings ∧
      input.pairingId = id ∧ next = input.pairing := by
  have hNone {found : Pairing} (hFound : before.pairing? id = some found) : False := by
    rw [hNew] at hFound
    cases hFound
  cases h with
  | kept hFound => exact (hNone hFound).elim
  | prepared input surroundings hCall hId _ =>
      exact ⟨input, surroundings, hCall, hId, rfl⟩
  | consumed _ hFound => exact (hNone hFound).elim
  | claimed _ _ _ _ hFound => exact (hNone hFound).elim
  | confirmed _ _ hFound => exact (hNone hFound).elim
  | completed _ _ _ hFound => exact (hNone hFound).elim

/-- The confirmation of the broker is set by a matching call of the broker. -/
theorem PairingEffect.broker (h : PairingEffect before stimulus after id next)
    (hRoot : next.rootConfirmed = true)
    (hOld : ∀ old, before.pairing? id = some old → old.rootConfirmed ≠ true) :
    ∃ nonce brokerPublicKey surroundings, stimulus =
        .call (.confirmPairingFromBroker id nonce brokerPublicKey) surroundings ∧
      next.nonceDigest = digest "pairing-nonce" nonce ∧
      next.brokerKeyDigest = digest "broker-key" brokerPublicKey := by
  have hConfirmed {pairing middle : Pairing} (hFound : before.pairing? id = some pairing)
      (hConfirms : Confirms pairing stimulus middle)
      (hMiddle : middle.rootConfirmed = true) :
      ∃ nonce brokerPublicKey surroundings, stimulus =
          .call (.confirmPairingFromBroker id nonce brokerPublicKey) surroundings ∧
        middle.nonceDigest = digest "pairing-nonce" nonce ∧
        middle.brokerKeyDigest = digest "broker-key" brokerPublicKey := by
    obtain rfl : pairing.id = id := Table.column_of_lookup hFound
    cases hConfirms with
    | broker nonce brokerPublicKey surroundings hLive hTime hNonce hKey =>
        exact ⟨nonce, brokerPublicKey, surroundings, rfl, hNonce, hKey⟩
    | account session body code surroundings hBody hCode =>
        exact absurd hMiddle (hOld pairing hFound)
  cases h with
  | kept hFound => exact absurd hRoot (hOld next hFound)
  | prepared input surroundings hCall hId hNew => cases hRoot
  | consumed pairing hFound => exact absurd hRoot (hOld pairing hFound)
  | claimed pairing session request surroundings hFound hCall hClaim =>
      exact absurd hRoot (hOld pairing hFound)
  | confirmed pairing _ hFound hConfirms hOpen =>
      exact hConfirmed hFound hConfirms hRoot
  | completed pairing middle account hFound hConfirms hComplete hDevices =>
      obtain ⟨nonce, brokerPublicKey, surroundings, hCall, hDigests⟩ :=
        hConfirmed hFound hConfirms hRoot
      exact ⟨nonce, brokerPublicKey, surroundings, hCall, hDigests⟩

/-- The confirmation of the account is set by a matching body. -/
theorem PairingEffect.account (h : PairingEffect before stimulus after id next)
    (hHolds : stimulus.Holds before) (hWeb : next.webConfirmed = true)
    (hOld : ∀ old, before.pairing? id = some old → old.webConfirmed ≠ true) :
    ∃ session body code surroundings, stimulus =
        .settled (.pairingBody session id) (.body body) surroundings ∧
      next.claimedBy = some session.toAccountIdentity ∧
      comparisonCode body = .ok code ∧
      next.comparisonCodeDigest = digestText "comparison-code" code := by
  have hConfirmed {pairing middle : Pairing} (hFound : before.pairing? id = some pairing)
      (hConfirms : Confirms pairing stimulus middle)
      (hMiddle : middle.webConfirmed = true) :
      ∃ session body code surroundings, stimulus =
          .settled (.pairingBody session id) (.body body) surroundings ∧
        middle.claimedBy = some session.toAccountIdentity ∧
        comparisonCode body = .ok code ∧
        middle.comparisonCodeDigest = digestText "comparison-code" code := by
    obtain rfl : pairing.id = id := Table.column_of_lookup hFound
    cases hConfirms with
    | broker nonce brokerPublicKey surroundings hLive hTime hNonce hKey =>
        exact absurd hMiddle (hOld pairing hFound)
    | account session body code surroundings hBody hCode =>
        exact ⟨session, body, code, surroundings, rfl, hHolds.claimedBy hFound, hBody,
          hCode⟩
  cases h with
  | kept hFound => exact absurd hWeb (hOld next hFound)
  | prepared input surroundings hCall hId hNew => cases hWeb
  | consumed pairing hFound => exact absurd hWeb (hOld pairing hFound)
  | claimed pairing session request surroundings hFound hCall hClaim =>
      exact absurd hWeb (hOld pairing hFound)
  | confirmed pairing _ hFound hConfirms hOpen =>
      exact hConfirmed hFound hConfirms hWeb
  | completed pairing middle account hFound hConfirms hComplete hDevices =>
      obtain ⟨session, body, code, surroundings, hSettled, hRest⟩ :=
        hConfirmed hFound hConfirms hWeb
      exact ⟨session, body, code, surroundings, hSettled, hRest⟩

/-- A pairing is claimed by a request of its account. -/
theorem PairingEffect.claim (h : PairingEffect before stimulus after id next)
    {account : AccountIdentity} (hClaimed : next.claimedBy = some account)
    (hOld : ∀ old, before.pairing? id = some old → old.claimedBy ≠ some account) :
    ∃ request surroundings session, stimulus = .call (.handle request) surroundings ∧
      ClaimRequest session id before request surroundings ∧
      session.toAccountIdentity = account := by
  cases h with
  | kept hFound => exact absurd hClaimed (hOld next hFound)
  | prepared input surroundings hCall hId hNew => cases hClaimed
  | consumed pairing hFound => exact absurd hClaimed (hOld pairing hFound)
  | claimed pairing session request surroundings hFound hCall hClaim =>
      exact ⟨request, surroundings, session, hCall, hClaim, Option.some.inj hClaimed⟩
  | confirmed pairing _ hFound hConfirms hOpen =>
      rw [hConfirms.kept.1] at hClaimed
      exact absurd hClaimed (hOld pairing hFound)
  | completed pairing middle _ hFound hConfirms hComplete hDevices =>
      rw [show middle.consume.claimedBy = middle.claimedBy from rfl,
        hConfirms.kept.1] at hClaimed
      exact absurd hClaimed (hOld pairing hFound)

end Flags

section Runs

variable {officialOrigin : String} {turns : List Turn} {id : String} {pairing : Pairing}

/-- A stored pairing was prepared in the run. -/
theorem preparedFrom
    (hFound : (run Service.turn (Service.fresh officialOrigin) turns).shared.pairing? id =
      some pairing) :
    ∃ input, input.pairingId = id ∧ input.pairing.Continues pairing ∧
      Occurs Service.turn (Service.fresh officialOrigin) turns (Prepares input) := by
  induction turns using List.reverseRecOn generalizing pairing with
  | nil => cases hFound
  | append_singleton turns turn ih =>
      have hInvariant := PairingInvariant.run officialOrigin turns
      rw [run_concat] at hFound
      cases hBefore : (run Service.turn (Service.fresh officialOrigin)
          turns).shared.pairing? id with
      | some old =>
          obtain ⟨next, hNext, hContinues⟩ := turn_pairing hInvariant.held turn hBefore
          rw [hFound, Option.some.injEq] at hNext
          obtain ⟨input, hId, hPrepared, hOccurs⟩ := ih hBefore
          rw [hNext]
          exact ⟨input, hId, hPrepared.trans hContinues, hOccurs.concat⟩
      | none =>
          cases hStimulus : Service.stimulus? (run Service.turn
              (Service.fresh officialOrigin) turns) turn with
          | none =>
              rw [turn_of_stimulus_none hStimulus, hBefore] at hFound
              cases hFound
          | some stimulus =>
              obtain ⟨input, surroundings, rfl, hId, hPairing⟩ :=
                ((turn_effect hInvariant.held hStimulus).pairingEffect hFound).new hBefore
              subst hId
              rw [hPairing] at hFound ⊢
              refine ⟨input, rfl, .refl _, .last ⟨surroundings, ?_, hBefore, hFound⟩⟩
              exact turn_of_call hStimulus

/-- What a pairing has come to have, it has got with some turn. -/
theorem occurs_change {P : Pairing → Prop}
    (hFound : (run Service.turn (Service.fresh officialOrigin) turns).shared.pairing? id =
      some pairing) (hP : P pairing) :
    Occurs Service.turn (Service.fresh officialOrigin) turns fun service turn =>
      ∃ stimulus next, service.stimulus? turn = some stimulus ∧
        PairingInvariant service ∧
        PairingEffect service.shared stimulus (service.turn turn).shared id next ∧
        P next ∧ (∀ old, service.shared.pairing? id = some old → ¬ P old) ∧
        next.Continues pairing := by
  have hStart : ¬ ∃ found,
      (Service.fresh officialOrigin).shared.pairing? id = some found ∧ P found := by
    rintro ⟨found, hNone, -⟩
    cases hNone
  obtain ⟨earlier, turn, later, hTurns, hBefore, next, hNext, hReached⟩ :=
    occurs_turn (Q := fun service : Service =>
      ∃ found, service.shared.pairing? id = some found ∧ P found) hStart
      ⟨pairing, hFound, hP⟩
  refine ⟨earlier, turn, later, hTurns, ?_⟩
  have hInvariant := PairingInvariant.run officialOrigin earlier
  cases hStimulus : Service.stimulus? (run Service.turn
      (Service.fresh officialOrigin) earlier) turn with
  | none =>
      rw [turn_of_stimulus_none hStimulus] at hNext
      exact absurd ⟨next, hNext, hReached⟩ hBefore
  | some stimulus =>
      refine ⟨stimulus, next, hStimulus, hInvariant,
        (turn_effect hInvariant.held hStimulus).pairingEffect hNext, hReached, ?_, ?_⟩
      · intro old hOld hHad
        exact hBefore ⟨old, hOld, hHad⟩
      · obtain ⟨last, hLast, hContinues⟩ :=
          run_pairing (turn_held hInvariant.held turn) later hNext
        rw [hTurns, run_append, run_cons, hLast, Option.some.injEq] at hFound
        rw [← hFound]
        exact hContinues

/-- A pairing that the broker has confirmed was confirmed with what was prepared. -/
theorem brokerConfirmed {input : PairingInput}
    (hFound : (run Service.turn (Service.fresh officialOrigin) turns).shared.pairing?
      input.pairingId = some pairing) (hInput : input.pairing.Continues pairing)
    (hRoot : pairing.rootConfirmed = true) :
    Occurs Service.turn (Service.fresh officialOrigin) turns (BrokerConfirms input) := by
  obtain ⟨earlier, turn, later, hTurns, stimulus, next, hStimulus, -, hEffect, hNext, hOld,
    hContinues⟩ := occurs_change (P := fun pairing => pairing.rootConfirmed = true) hFound
      hRoot
  obtain ⟨nonce, brokerPublicKey, surroundings, rfl, hNonce, hKey⟩ :=
    hEffect.broker hNext hOld
  refine ⟨earlier, turn, later, hTurns, nonce, brokerPublicKey, surroundings,
    turn_of_call hStimulus, ?_, ?_⟩
  · rw [← hNonce, ← hContinues.transcript.2.2.1, hInput.transcript.2.2.1]
    rfl
  · rw [← hKey, ← hContinues.transcript.2.1, hInput.transcript.2.1]
    rfl

/-- A pairing that its account has confirmed was confirmed with the prepared code. -/
theorem accountConfirmed {input : PairingInput} {account : AccountIdentity}
    (hFound : (run Service.turn (Service.fresh officialOrigin) turns).shared.pairing?
      input.pairingId = some pairing) (hInput : input.pairing.Continues pairing)
    (hWeb : pairing.webConfirmed = true) (hClaimed : pairing.claimedBy = some account) :
    Occurs Service.turn (Service.fresh officialOrigin) turns
      (AccountConfirms account input) := by
  obtain ⟨earlier, turn, later, hTurns, stimulus, next, hStimulus, hInvariant, hEffect,
    hNext, hOld, hContinues⟩ :=
      occurs_change (P := fun pairing => pairing.webConfirmed = true) hFound hWeb
  obtain ⟨session, body, code, surroundings, rfl, hAccount, hBody, hCode⟩ :=
    hEffect.account (holds_of_stimulus hInvariant.held hStimulus) hNext hOld
  obtain ⟨index, hTurn, hTask⟩ := turn_of_settled hStimulus
  refine ⟨earlier, turn, later, hTurns, index, session, body, code, surroundings, hTurn,
    hTask, ?_, hBody, ?_⟩
  · have hSame := hContinues.claimedBy _ hAccount
    rw [hClaimed, Option.some.injEq] at hSame
    exact hSame.symm
  · rw [← hCode, ← hContinues.transcript.2.2.2.1, hInput.transcript.2.2.2.1]
    rfl

/-- A pairing of an account was claimed by it. -/
theorem accountClaimed {account : AccountIdentity}
    (hFound : (run Service.turn (Service.fresh officialOrigin) turns).shared.pairing? id =
      some pairing) (hClaimed : pairing.claimedBy = some account) :
    Occurs Service.turn (Service.fresh officialOrigin) turns
      (AccountClaims account id) := by
  obtain ⟨earlier, turn, later, hTurns, stimulus, next, hStimulus, -, hEffect, hNext, hOld,
    -⟩ := occurs_change (P := fun pairing => pairing.claimedBy = some account) hFound
      hClaimed
  obtain ⟨request, surroundings, session, rfl, hClaim, hAccount⟩ :=
    hEffect.claim hNext hOld
  exact ⟨earlier, turn, later, hTurns, request, surroundings, session,
    turn_of_call hStimulus, hClaim, hAccount⟩

end Runs

/-! ### Activations and answers -/

section Turns

variable {service : Service} {turn : Turn} {id : String} {account : AccountIdentity}

/-- The pairing is stored and consumed, with both confirmations. -/
def Completed (id : String) (runtime : M3Runtime) : Prop :=
  ∃ pairing, runtime.pairing? id = some pairing ∧ pairing.consumed = true ∧
    pairing.rootConfirmed = true ∧ pairing.webConfirmed = true

/-- A consumed pairing is not activated. -/
theorem Activates.live (h : Activates id account service turn) {pairing : Pairing}
    (hFound : service.shared.pairing? id = some pairing) : pairing.consumed = false := by
  obtain ⟨found, -, hOther, hLive, -⟩ := h
  rw [hFound, Option.some.injEq] at hOther
  rw [hOther]
  exact hLive

theorem Activates.completed (h : Activates id account service turn) :
    Completed id (service.turn turn).shared := by
  obtain ⟨_, next, -, -, hNext, hConsumed, hRoot, hWeb, -⟩ := h
  exact ⟨next, hNext, hConsumed, hRoot, hWeb⟩

/-- A pairing becomes completed with a confirmation, which activates its device or finds
it consumed. -/
theorem confirms_of_completed (hInvariant : PairingInvariant service)
    (hBefore : ¬ Completed id service.shared)
    (hAfter : Completed id (service.turn turn).shared) :
    ∃ stimulus pairing next, service.stimulus? turn = some stimulus ∧
      service.shared.pairing? id = some pairing ∧ Confirms pairing stimulus next ∧
      (pairing.consumed = true ∨ ∃ account, next.completedFor? = some account ∧
        (service.turn turn).shared.pairing? id = some next.consume) := by
  obtain ⟨last, hLast, hConsumed, hRoot, hWeb⟩ := hAfter
  cases hStimulus : service.stimulus? turn with
  | none =>
      rw [turn_of_stimulus_none hStimulus] at hLast
      exact absurd ⟨last, hLast, hConsumed, hRoot, hWeb⟩ hBefore
  | some stimulus =>
      have hStored := hLast
      cases (turn_effect hInvariant.held hStimulus).pairingEffect hLast with
      | kept hFound => exact absurd ⟨last, hFound, hConsumed, hRoot, hWeb⟩ hBefore
      | prepared input surroundings hCall hId hNew => cases hConsumed
      | consumed pairing hFound =>
          -- A pairing that can be consumed lacks a confirmation.
          have hOld : pairing.consumed = false :=
            Bool.not_eq_true _ ▸ fun hOld => hBefore ⟨pairing, hFound, hOld, hRoot, hWeb⟩
          exact absurd ⟨hRoot, hWeb⟩
            ((hInvariant.pairings id pairing hFound).pending hOld)
      | claimed pairing session request surroundings hFound hCall hClaim =>
          exact absurd ⟨pairing, hFound, hConsumed, hRoot, hWeb⟩ hBefore
      | confirmed pairing _ hFound hConfirms hOpen =>
          rw [hConfirms.kept.2] at hConsumed
          exact ⟨stimulus, pairing, last, rfl, hFound, hConfirms, .inl hConsumed⟩
      | completed pairing next account hFound hConfirms hComplete hDevices =>
          exact ⟨stimulus, pairing, next, rfl, hFound, hConfirms,
            .inr ⟨account, hComplete, hStored⟩⟩

/-- An activation is a confirmation that completes the pairing. -/
theorem Activates.completes (hInvariant : PairingInvariant service)
    (h : Activates id account service turn) :
    ∃ stimulus pairing next, service.stimulus? turn = some stimulus ∧
      service.shared.pairing? id = some pairing ∧ Confirms pairing stimulus next ∧
      next.completedFor? = some account := by
  have hAfter := h.completed
  obtain ⟨pairing, last, hFound, hLive, hLast, -, -, -, hClaimed, -⟩ := h
  have hBefore : ¬ Completed id service.shared := by
    rintro ⟨found, hOther, hConsumed, -⟩
    rw [hFound, Option.some.injEq] at hOther
    rw [← hOther, hLive] at hConsumed
    cases hConsumed
  obtain ⟨stimulus, found, next, hStimulus, hOther, hConfirms, hConsumed | hComplete⟩ :=
    confirms_of_completed hInvariant hBefore hAfter
  · rw [hFound, Option.some.injEq] at hOther
    rw [← hOther, hLive] at hConsumed
    cases hConsumed
  · obtain ⟨other, hComplete, hStored⟩ := hComplete
    rw [hLast, Option.some.injEq] at hStored
    have hOwner : next.claimedBy = some other :=
      (Pairing.completedFor?_eq_some_iff.mp hComplete).2.2.2
    have hAccount : next.claimedBy = some account := by
      rw [hStored] at hClaimed
      exact hClaimed
    rw [hAccount, Option.some.injEq] at hOwner
    rw [hOwner]
    exact ⟨stimulus, found, next, hStimulus, hOther, hConfirms, hComplete⟩

/-- A confirmation that completes the pairing activates its device. -/
theorem activates_of_completes {stimulus : Stimulus} {pairing next : Pairing}
    (hStimulus : service.stimulus? turn = some stimulus)
    (hFound : service.shared.pairing? pairing.id = some pairing)
    (hConfirms : Confirms pairing stimulus next)
    (hComplete : next.completedFor? = some account) :
    Activates pairing.id account service turn := by
  have hSettles := confirms_run hFound hConfirms
  rw [← (turn_of_stimulus hStimulus).1, Settles, hComplete] at hSettles
  obtain ⟨hStores, hDevices⟩ := hSettles
  have hId := hConfirms.continues.1
  rw [Pairing.completedFor?_eq_some_iff] at hComplete
  obtain ⟨hRoot, hWeb, hLive, hClaimed⟩ := hComplete
  have hOld : pairing.consumed = false := hConfirms.kept.2.symm.trans hLive
  have hStored := hStores.stored
  rw [show next.consume.id = next.id from rfl, hId] at hStored
  exact ⟨pairing, next.consume, hFound, hOld, hStored, rfl, hRoot, hWeb, hClaimed,
    hDevices⟩

omit [Cryptography] in
theorem mapError_status (message : String) : (mapError message).status ≠ 200 := by
  unfold mapError problem json
  split_ifs
  all_goals simp

/-- A request to confirm is answered with a state when its body has the prepared code. -/
theorem Answers.confirms (hHeld : service.Admits Held) {state : String}
    (h : Answers id state service turn) :
    ∃ stimulus pairing next, service.stimulus? turn = some stimulus ∧
      service.shared.pairing? id = some pairing ∧
      Confirms pairing stimulus pairing.confirmByAccount ∧
      (service.turn turn).shared.pairing? id = some next ∧
      state = confirmedState next := by
  obtain ⟨index, session, ⟨outcome, surroundings⟩, response, rfl, hTask, hAnswered,
    hStatus, hBody⟩ := h
  obtain ⟨pairing, hFound, -⟩ := hHeld _ (List.mem_of_getElem? hTask)
  obtain rfl : pairing.id = id := Table.column_of_lookup hFound
  have hStimulus : service.stimulus? (.resume index (outcome, surroundings)) =
      some (.settled (.pairingBody session pairing.id) outcome surroundings) := by
    rw [Service.stimulus?, hTask]
  have hRun : (caught (proceed (.pairingBody session pairing.id) outcome surroundings
      service.shared)).1 = .answered (.response response) := by
    rw [Service.turn, Scene.step_resume hTask,
      List.getElem?_set_self (List.getElem?_eq_some_iff.mp hTask).1,
      Option.some.injEq] at hAnswered
    exact hAnswered
  -- An error has another status than the answer at hand.
  have hError {message : String} (hMessage : response = mapError message) : False := by
    rw [hMessage] at hStatus
    exact mapError_status message hStatus
  cases outcome with
  | rejected message =>
      cases hRun
      exact (hError rfl).elim
  | body body =>
      change (caught (pairingRouteWithBody pairing.id body service.shared)).1 = _ at hRun
      cases hCodeRead : comparisonCode body with
      | error message =>
          have hThrown : pairingRouteWithBody pairing.id body service.shared =
              (.error message, service.shared) := Segment.check_bind_of_error hCodeRead
          rw [hThrown] at hRun
          cases hRun
          exact (hError rfl).elim
      | ok code =>
          by_cases hCode : pairing.comparisonCodeDigest =
              digestText "comparison-code" code
          · obtain ⟨next, hNext, hRoute⟩ := pairingRouteWithBody_eq hFound hCodeRead hCode
            refine ⟨_, pairing, next, hStimulus, hFound,
              .account session body code surroundings hCodeRead hCode, ?_, ?_⟩
            · rw [(turn_of_stimulus hStimulus).1]
              show (caught (pairingRouteWithBody pairing.id body
                service.shared)).2.pairing? pairing.id = some next
              rw [hRoute]
              exact hNext
            · rw [hRoute] at hRun
              cases hRun
              have hFields := Option.some.inj hBody
              simp only [Json.object.injEq, List.cons.injEq, Prod.mk.injEq,
                Json.string.injEq, true_and, and_true] at hFields
              exact hFields.symm
          · rw [pairingRouteWithBody_mismatch hFound hCodeRead hCode] at hRun
            cases hRun
            exact (hError rfl).elim
  | _ => cases hRun

/-- A confirmation with the prepared code is answered with the state of the pairing. -/
theorem answers_of_confirms {session : Session} {body : Json} {code : String}
    {surroundings : Surroundings} {pairing : Pairing}
    (hStimulus : service.stimulus? turn =
      some (.settled (.pairingBody session pairing.id) (.body body) surroundings))
    (hFound : service.shared.pairing? pairing.id = some pairing)
    (hBody : comparisonCode body = .ok code)
    (hCode : pairing.comparisonCodeDigest = digestText "comparison-code" code) :
    ∃ next, (service.turn turn).shared.pairing? pairing.id = some next ∧
      Answers pairing.id (confirmedState next) service turn := by
  obtain ⟨next, hNext, hRoute⟩ := pairingRouteWithBody_eq hFound hBody hCode
  refine ⟨next, ?_, ?_⟩
  · rw [(turn_of_stimulus hStimulus).1]
    show (caught (pairingRouteWithBody pairing.id body service.shared)).2.pairing?
      pairing.id = some next
    rw [hRoute]
    exact hNext
  · obtain ⟨index, rfl, hTask⟩ := turn_of_settled hStimulus
    refine ⟨index, session, _, json (.object [("state",
      .string (confirmedState next))]) 200 [], rfl, hTask, ?_, rfl, rfl⟩
    rw [Service.turn, Scene.step_resume hTask,
      List.getElem?_set_self (List.getElem?_eq_some_iff.mp hTask).1]
    show some (caught (pairingRouteWithBody pairing.id body service.shared)).1 = _
    rw [hRoute]
    rfl

end Turns

/-! ### The protocol -/

/-- Every confirmation with what was prepared comes in time: the pairing has not been
consumed without both confirmations, and when the other side has confirmed it before, the
time is a number before the expiry, which is a number too. -/
def Timely (service : Service) (turn : Turn) : Prop :=
  ∀ stimulus pairing next, service.stimulus? turn = some stimulus →
    service.shared.pairing? pairing.id = some pairing →
    Confirms pairing stimulus next →
    (pairing.consumed = true →
      pairing.rootConfirmed = true ∧ pairing.webConfirmed = true) ∧
    (pairing.consumed = false → pairing.ConfirmedByOther stimulus →
      (Turn.now turn).lt pairing.expiresAt = true)

/-- The activations of a run and the answers to its confirmations. -/
structure PairingProtocol (officialOrigin : String) (turns : List Turn) : Prop where
  /-- Only the activation of a pairing makes a device active. -/
  devices : Throughout Service.turn (Service.fresh officialOrigin) turns
    fun service turn => ∀ publicId device,
      (service.turn turn).shared.device? publicId = some device →
      device.enrollmentState = .active →
      service.shared.device? publicId = some device ∨
        ∃ id account, Activates id account service turn
  /-- A pairing is activated before it runs out. -/
  inTime : Throughout Service.turn (Service.fresh officialOrigin) turns
    fun service turn => ∀ id account, Activates id account service turn →
      ∃ pairing, service.shared.pairing? id = some pairing ∧
        (Turn.now turn).lt pairing.expiresAt = true
  /-- It has been confirmed, with what was prepared, by the broker and by the account
  that claimed it. -/
  confirmed : ∀ earlier turn later, turns = earlier ++ turn :: later →
    ∀ id account, Activates id account
      (run Service.turn (Service.fresh officialOrigin) earlier) turn →
    ∃ input, input.pairingId = id ∧
      Occurs Service.turn (Service.fresh officialOrigin) earlier (Prepares input) ∧
      Occurs Service.turn (Service.fresh officialOrigin) earlier
        (AccountClaims account id) ∧
      Occurs Service.turn (Service.fresh officialOrigin) (earlier ++ [turn])
        (BrokerConfirms input) ∧
      Occurs Service.turn (Service.fresh officialOrigin) (earlier ++ [turn])
        (AccountConfirms account input)
  /-- A pairing that a mismatch has consumed is not activated. -/
  mismatched : ∀ earlier first between second later,
    turns = earlier ++ first :: between ++ second :: later →
    ∀ id account, MismatchConsumes id
      (run Service.turn (Service.fresh officialOrigin) earlier) first →
    ¬ Activates id account (run Service.turn (Service.fresh officialOrigin)
      (earlier ++ first :: between)) second
  /-- A pairing is activated once at most. -/
  once : ∀ id, AtMostOnce Service.turn (Service.fresh officialOrigin) turns
    fun service turn => ∃ account, Activates id account service turn
  /-- A confirmation is answered with the state of an active device exactly when the
  pairing has activated its device. -/
  answered : ∀ earlier turn later, turns = earlier ++ turn :: later →
    ∀ id state, Answers id state
      (run Service.turn (Service.fresh officialOrigin) earlier) turn →
    (state = "active" ↔
      Occurs Service.turn (Service.fresh officialOrigin) (earlier ++ [turn])
        fun service turn => ∃ account, Activates id account service turn)

section Protocol

variable {officialOrigin : String} {turns : List Turn} {id : String}

theorem completed_run {service : Service} (hService : service.Admits Held)
    (turns : List Turn) (h : Completed id service.shared) :
    Completed id (run Service.turn service turns).shared := by
  obtain ⟨pairing, hFound, hConsumed, hRoot, hWeb⟩ := h
  obtain ⟨next, hNext, hContinues⟩ := run_pairing hService turns hFound
  exact ⟨next, hNext, hContinues.consumed hConsumed, hContinues.rootConfirmed hRoot,
    hContinues.webConfirmed hWeb⟩

/-- After an activation the pairing stays completed. -/
theorem completed_of_occurs
    (h : Occurs Service.turn (Service.fresh officialOrigin) turns
      fun service turn => ∃ account, Activates id account service turn) :
    Completed id (run Service.turn (Service.fresh officialOrigin) turns).shared := by
  obtain ⟨earlier, turn, later, rfl, account, hActivates⟩ := h
  rw [run_append, run_cons]
  exact completed_run (turn_held (run_held officialOrigin earlier) turn) later
    hActivates.completed

/-- In a run in time, a completed pairing was activated. -/
theorem occurs_of_completed
    (hTimely : Throughout Service.turn (Service.fresh officialOrigin) turns Timely)
    (h : Completed id (run Service.turn (Service.fresh officialOrigin) turns).shared) :
    Occurs Service.turn (Service.fresh officialOrigin) turns
      fun service turn => ∃ account, Activates id account service turn := by
  have hStart : ¬ Completed id (Service.fresh officialOrigin).shared := by
    rintro ⟨pairing, hNone, -⟩
    cases hNone
  obtain ⟨earlier, turn, later, hTurns, hBefore, hAfter⟩ :=
    occurs_turn (Q := fun service : Service => Completed id service.shared) hStart h
  refine ⟨earlier, turn, later, hTurns, ?_⟩
  obtain ⟨stimulus, pairing, next, hStimulus, hFound, hConfirms, hLate⟩ :=
    confirms_of_completed (PairingInvariant.run officialOrigin earlier) hBefore hAfter
  obtain rfl : pairing.id = id := Table.column_of_lookup hFound
  rcases hLate with hConsumed | ⟨account, hComplete, -⟩
  · have hInTime := (hTimely earlier turn later hTurns stimulus pairing next hStimulus
      hFound hConfirms).1 hConsumed
    exact absurd ⟨pairing, hFound, hConsumed, hInTime⟩ hBefore
  · exact ⟨account, activates_of_completes hStimulus hFound hConfirms hComplete⟩

/-- An activation comes after the preparation and the claim of its pairing, and with both
confirmations. -/
theorem activation_confirmed {turn : Turn} {account : AccountIdentity}
    (h : Activates id account (run Service.turn (Service.fresh officialOrigin) turns)
      turn) :
    ∃ input, input.pairingId = id ∧
      Occurs Service.turn (Service.fresh officialOrigin) turns (Prepares input) ∧
      Occurs Service.turn (Service.fresh officialOrigin) turns
        (AccountClaims account id) ∧
      Occurs Service.turn (Service.fresh officialOrigin) (turns ++ [turn])
        (BrokerConfirms input) ∧
      Occurs Service.turn (Service.fresh officialOrigin) (turns ++ [turn])
        (AccountConfirms account input) := by
  have hInvariant := PairingInvariant.run officialOrigin turns
  obtain ⟨stimulus, pairing, middle, -, hFound, hConfirms, hComplete⟩ :=
    h.completes hInvariant
  obtain ⟨old, next, hOld, -, hNext, -, hRoot, hWeb, hClaimed, -⟩ := h
  obtain ⟨input, rfl, hInput, hPrepared⟩ := preparedFrom hFound
  have hBefore : pairing.claimedBy = some account := by
    rw [← hConfirms.kept.1]
    exact (Pairing.completedFor?_eq_some_iff.mp hComplete).2.2.2
  obtain ⟨found, hSame, hContinues⟩ := turn_pairing hInvariant.held turn hFound
  rw [hNext, Option.some.injEq] at hSame
  subst hSame
  have hAfter : (run Service.turn (Service.fresh officialOrigin)
      (turns ++ [turn])).shared.pairing? input.pairingId = some next := by
    rw [run_concat]
    exact hNext
  exact ⟨input, rfl, hPrepared, accountClaimed hFound hBefore,
    brokerConfirmed hAfter (hInput.trans hContinues) hRoot,
    accountConfirmed hAfter (hInput.trans hContinues) hWeb hClaimed⟩

/-- A device becomes active with the activation of a pairing. -/
theorem activates_of_active {service : Service} {turn : Turn}
    (hInvariant : PairingInvariant service) {publicId : String} {device : Device}
    (hDevice : (service.turn turn).shared.device? publicId = some device)
    (hActive : device.enrollmentState = .active) :
    service.shared.device? publicId = some device ∨
      ∃ id account, Activates id account service turn := by
  cases hStimulus : service.stimulus? turn with
  | none =>
      rw [turn_of_stimulus_none hStimulus] at hDevice
      exact .inl hDevice
  | some stimulus =>
      rcases (turn_effect hInvariant.held hStimulus).devices with
        hUpdates | ⟨changed, -, hSame | hCompleted⟩
      · exact .inl (hUpdates.active hDevice hActive)
      · rw [device?_of_same hSame] at hDevice
        exact .inl hDevice
      · obtain ⟨pairing, next, account, hFound, hConfirms, hComplete, -⟩ := hCompleted
        exact .inr ⟨pairing.id, account,
          activates_of_completes hStimulus hFound hConfirms hComplete⟩

/-- An activation by a confirmation in time is in time. -/
theorem Activates.inTime {service : Service} {turn : Turn} {account : AccountIdentity}
    (h : Activates id account service turn) (hInvariant : PairingInvariant service)
    (hTimely : Timely service turn) :
    ∃ pairing, service.shared.pairing? id = some pairing ∧
      (Turn.now turn).lt pairing.expiresAt = true := by
  obtain ⟨stimulus, pairing, next, hStimulus, hFound, hConfirms, hComplete⟩ :=
    h.completes hInvariant
  obtain rfl : pairing.id = id := Table.column_of_lookup hFound
  obtain ⟨hRoot, hWeb, -⟩ := Pairing.completedFor?_eq_some_iff.mp hComplete
  have hOther := hConfirms.both_iff.mp ⟨hRoot, hWeb⟩
  exact ⟨pairing, hFound,
    (hTimely stimulus pairing next hStimulus hFound hConfirms).2 (h.live hFound) hOther⟩

theorem MismatchConsumes.not_activates {service : Service} {first second : Turn}
    {account : AccountIdentity} (h : MismatchConsumes id service first)
    (hHeld : service.Admits Held) (between : List Turn) :
    ¬ Activates id account (run Service.turn (service.turn first) between) second := by
  intro hActivates
  obtain ⟨pairing, stimulus, hFound, hStimulus, hMismatches⟩ := h
  obtain rfl : pairing.id = id := Table.column_of_lookup hFound
  have hStored := (mismatches_run hFound hMismatches).stored
  rw [← (turn_of_stimulus hStimulus).1] at hStored
  obtain ⟨next, hNext, hContinues⟩ :=
    run_pairing (turn_held hHeld first) between hStored
  have hLive := hActivates.live hNext
  rw [hContinues.consumed rfl] at hLive
  cases hLive

theorem Activates.not_again {service : Service} {first second : Turn}
    {account other : AccountIdentity} (h : Activates id account service first)
    (hHeld : service.Admits Held) (between : List Turn) :
    ¬ Activates id other (run Service.turn (service.turn first) between) second := by
  intro hAgain
  obtain ⟨pairing, hFound, hConsumed, -⟩ :=
    completed_run (turn_held hHeld first) between h.completed
  rw [hAgain.live hFound] at hConsumed
  cases hConsumed

/-- When the confirmations are in time, `consumed` stands for the activation alone. -/
theorem Answers.active_iff {turn : Turn} {state : String}
    (h : Answers id state (run Service.turn (Service.fresh officialOrigin) turns) turn)
    (hTimely : Throughout Service.turn (Service.fresh officialOrigin) turns Timely)
    (hTurn : Timely (run Service.turn (Service.fresh officialOrigin) turns) turn) :
    state = "active" ↔
      Occurs Service.turn (Service.fresh officialOrigin) (turns ++ [turn])
        fun service turn => ∃ account, Activates id account service turn := by
  obtain ⟨stimulus, pairing, next, hStimulus, hFound, hConfirms, hNext, rfl⟩ :=
    h.confirms (run_held officialOrigin turns)
  obtain rfl : pairing.id = id := Table.column_of_lookup hFound
  rw [confirmedState_eq_active_iff]
  constructor
  · intro hConsumed
    cases hComplete : pairing.confirmByAccount.completedFor? with
    | some account =>
        exact .last ⟨account,
          activates_of_completes hStimulus hFound hConfirms hComplete⟩
    | none =>
        have hSettles := confirms_run hFound hConfirms
        rw [← (turn_of_stimulus hStimulus).1, Settles, hComplete] at hSettles
        have hStored := hSettles.1.stored
        rw [show pairing.confirmByAccount.id = pairing.id from rfl, hNext,
          Option.some.injEq] at hStored
        -- It was consumed before this confirmation, and so by an activation.
        have hBefore : pairing.consumed = true := by
          rw [hStored] at hConsumed
          exact hConsumed
        have hBoth := (hTurn stimulus pairing _ hStimulus hFound hConfirms).1 hBefore
        exact (occurs_of_completed hTimely ⟨pairing, hFound, hBefore, hBoth⟩).concat
  · intro hOccurs
    obtain ⟨found, hSame, hConsumed, -⟩ := completed_of_occurs hOccurs
    rw [run_concat, hNext, Option.some.injEq] at hSame
    rw [hSame]
    exact hConsumed

/-- The pairing that a confirmation finds consumed has been activated, since the answer
says so. -/
theorem PairingProtocol.confirmed_before (h : PairingProtocol officialOrigin turns)
    {earlier later : List Turn} {turn : Turn} (hTurns : turns = earlier ++ turn :: later)
    {session : Session} {body : Json} {code : String} {surroundings : Surroundings}
    {pairing : Pairing}
    (hStimulus : (run Service.turn (Service.fresh officialOrigin) earlier).stimulus? turn =
      some (.settled (.pairingBody session pairing.id) (.body body) surroundings))
    (hFound : (run Service.turn (Service.fresh officialOrigin)
      earlier).shared.pairing? pairing.id = some pairing)
    (hBody : comparisonCode body = .ok code)
    (hCode : pairing.comparisonCodeDigest = digestText "comparison-code" code)
    (hConsumed : pairing.consumed = true) :
    pairing.rootConfirmed = true ∧ pairing.webConfirmed = true := by
  obtain ⟨next, hNext, hAnswers⟩ := answers_of_confirms hStimulus hFound hBody hCode
  have hActive : confirmedState next = "active" := by
    obtain ⟨found, hSame, hContinues⟩ :=
      turn_pairing (run_held officialOrigin earlier) turn hFound
    rw [hNext, Option.some.injEq] at hSame
    rw [hSame]
    exact confirmedState_eq_active_iff.mpr (hContinues.consumed hConsumed)
  have hOccurs := (h.answered earlier turn later hTurns _ _ hAnswers).mp hActive
  rcases occurs_concat_iff.mp hOccurs with hEarlier | ⟨account, hActivates⟩
  · obtain ⟨found, hSame, -, hBoth⟩ := completed_of_occurs hEarlier
    rw [hFound, Option.some.injEq] at hSame
    rw [hSame]
    exact hBoth
  · rw [hActivates.live hFound] at hConsumed
    cases hConsumed

/-- The second confirmation of a pairing that is not consumed activates it. -/
theorem Confirms.activates {service : Service} {turn : Turn} {stimulus : Stimulus}
    {pairing next : Pairing} (h : Confirms pairing stimulus next)
    (hInvariant : PairingInvariant service)
    (hStimulus : service.stimulus? turn = some stimulus)
    (hFound : service.shared.pairing? pairing.id = some pairing)
    (hLive : pairing.consumed = false) (hOther : pairing.ConfirmedByOther stimulus) :
    ∃ account, Activates pairing.id account service turn := by
  obtain ⟨hRoot, hWeb⟩ := h.both_iff.mpr hOther
  obtain ⟨account, hClaimed⟩ := h.claimed (holds_of_stimulus hInvariant.held hStimulus)
    hFound (hInvariant.pairings _ pairing hFound) hWeb
  have hComplete : next.completedFor? = some account :=
    Pairing.completedFor?_eq_some_iff.mpr ⟨hRoot, hWeb, h.kept.2.trans hLive, hClaimed⟩
  exact ⟨account, activates_of_completes hStimulus hFound h hComplete⟩

/-- A run keeps to the protocol exactly when every confirmation comes in time. -/
theorem pairingProtocol_iff (officialOrigin : String) (turns : List Turn) :
    PairingProtocol officialOrigin turns ↔
      Throughout Service.turn (Service.fresh officialOrigin) turns Timely := by
  constructor
  · intro hProtocol earlier turn later hTurns stimulus pairing next hStimulus hFound
      hConfirms
    refine ⟨fun hConsumed => ?_, fun hLive hOther => ?_⟩
    · cases hConfirms with
      | broker nonce brokerPublicKey surroundings hLive =>
          rw [hLive] at hConsumed
          cases hConsumed
      | account session body code surroundings hBody hCode =>
          exact hProtocol.confirmed_before hTurns hStimulus hFound hBody hCode hConsumed
    · obtain ⟨account, hActivates⟩ := hConfirms.activates
        (PairingInvariant.run officialOrigin earlier) hStimulus hFound hLive hOther
      obtain ⟨found, hSame, hTime⟩ :=
        hProtocol.inTime earlier turn later hTurns _ _ hActivates
      rw [hFound, Option.some.injEq] at hSame
      rw [hSame]
      exact hTime
  · intro hTimely
    refine ⟨?_, ?_, ?_, ?_, ?_, ?_⟩
    · intro earlier turn later hTurns publicId device hDevice hActive
      exact activates_of_active (PairingInvariant.run officialOrigin earlier) hDevice
        hActive
    · intro earlier turn later hTurns id account hActivates
      exact hActivates.inTime (PairingInvariant.run officialOrigin earlier)
        (hTimely earlier turn later hTurns)
    · intro earlier turn later hTurns id account hActivates
      exact activation_confirmed hActivates
    · intro earlier first between second later hTurns id account hMismatch hActivates
      rw [run_append, run_cons] at hActivates
      exact hMismatch.not_activates (run_held officialOrigin earlier) between hActivates
    · rintro id earlier first between second later hTurns ⟨account, hFirst⟩
        ⟨other, hSecond⟩
      rw [run_append, run_cons] at hSecond
      exact hFirst.not_again (run_held officialOrigin earlier) between hSecond
    · intro earlier turn later hTurns id state hAnswers
      have hPrefix : earlier <+: turns := ⟨turn :: later, hTurns.symm⟩
      exact hAnswers.active_iff (hTimely.of_prefix hPrefix)
        (hTimely earlier turn later hTurns)

end Protocol

end Confirmations

/-! ### Confirmations that come too late -/

def pairingToConfirm : PairingInput where
  pairingId := "AAAAAAAAAAAAAAAAAAAAAA"
  devicePublicId := "AQEBAQEBAQEBAQEBAQEBAQ"
  brokerPublicKey := List.replicate 32 1
  nonce := List.replicate 32 2
  comparisonCode := "123456"
  expiresAt := .finite 100

/-- A session, this pairing that it has claimed, and two requests of it to confirm the
pairing whose bodies are still being read. -/
def pendingConfirmations (pairing : PairingInput) : List Turn :=
  let enter (call : Call) : Turn := .enter (call, sampleSurroundings)
  let settle (settled : Settled) : Turn := .resume 0 (settled, sampleSurroundings)
  [enter (.handle (sampleRequest "/v1/account/session")),
    settle (.body (.object [("email", .string "a@example.test"),
      ("password", .string "correct")])),
    settle (.identity (some { tenantId := "tenant", accountId := "account" })),
    enter (.preparePairing pairing),
    enter (.handle (sampleRequest "/v1/pairings/AAAAAAAAAAAAAAAAAAAAAA/claim")),
    enter (.handle (sampleRequest "/v1/pairings/AAAAAAAAAAAAAAAAAAAAAA/confirm")),
    enter (.handle (sampleRequest "/v1/pairings/AAAAAAAAAAAAAAAAAAAAAA/confirm"))]

/-- The body of a request to confirm arrives, at this time. -/
def codeArrives (index : Nat) (code : String) (now : Double) : Turn :=
  .resume index (.body (.object [("comparisonCode", .string code)]),
    { sampleSurroundings with now })

def rootConfirms : Turn :=
  .enter (.confirmPairingFromBroker "AAAAAAAAAAAAAAAAAAAAAA" (List.replicate 32 2)
    (List.replicate 32 1), sampleSurroundings)

/-- The broker confirms the pairing, and the code arrives when the pairing has run out. -/
theorem activated_too_late :
    let _ : Cryptography := keyedHashCryptography
    ¬ ∀ officialOrigin turns, PairingProtocol officialOrigin turns := by
  intro _ hProtocol
  let account : AccountIdentity := { tenantId := "tenant", accountId := "account" }
  let confirmed := pendingConfirmations pairingToConfirm ++ [rootConfirms]
  let late := codeArrives 3 "123456" (.finite 100)
  let service := run Service.turn (Service.fresh "https://rootpermit.example") confirmed
  let pairing := pairingToConfirm.pairing.claimFor account
  have hInTime := (hProtocol "https://rootpermit.example" (confirmed ++ [late])).inTime
    confirmed late [] rfl
  let next := pairing.confirmByBroker.confirmByAccount.consume
  have hRun : service.shared.pairing? pairing.id = some pairing.confirmByBroker ∧
      (service.turn late).shared.pairing? pairing.id = some next ∧
      (service.turn late).shared.devices =
        Table.put Device.publicId (next.device account) service.shared.devices := by
    decide +kernel
  obtain ⟨hFound, hNext, hDevices⟩ := hRun
  have hActivates : Activates pairing.id account service late :=
    ⟨pairing.confirmByBroker, next, hFound, rfl, hNext, rfl, rfl, rfl, rfl, hDevices⟩
  obtain ⟨found, hSame, hTime⟩ := hInTime pairing.id account hActivates
  rw [hFound, Option.some.injEq] at hSame
  rw [← hSame] at hTime
  exact absurd hTime (by decide)

/-- The state a request to confirm is answered with. -/
def stateOf : Option Progress → Option String
  | some (.answered (.response { body := some (.object [("state", .string state)]), .. })) =>
      some state
  | _ => none

-- A wrong code consumes the pairing, and the right one is answered as if it had been
-- activated.
example :
    let service := run (@Service.turn keyedHashCryptography)
      (Service.fresh "https://rootpermit.example")
      (pendingConfirmations pairingToConfirm ++
        [codeArrives 4 "654321" (.finite 1), codeArrives 3 "123456" (.finite 1)])
    stateOf service.tasks[3]? = some "active" ∧ service.shared.devices = [] := by
  decide +kernel

-- No time is before an expiry that is not a number, which never comes either.
example :
    let service := run (@Service.turn keyedHashCryptography)
      (Service.fresh "https://rootpermit.example")
      (pendingConfirmations { pairingToConfirm with expiresAt := .nan } ++
        [codeArrives 3 "123456" (.finite 1), rootConfirms])
    service.shared.devices.map Device.enrollmentState = [.active] ∧
      (Double.finite 1).lt .nan = false := by
  decide +kernel

end M3
end Hosted
end RootPermit
