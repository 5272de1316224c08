import RootPermit.Hosted.Pairings

/-!
# Turns of the service

* `turn_effect` — the effect of a turn is that of the segment which it runs;
* `turn_pairing` — a stored pairing continues: its transcript stays, and neither its
  claim nor one of its flags is taken back;
* `run_held` — along every run, suspended routes hold what their points say.
-/

namespace RootPermit
namespace Hosted
namespace M3

open Foundation

/-! ### Pairings -/

/-- What no segment changes or takes back of a pairing. -/
structure Pairing.Continues (pairing next : Pairing) : Prop where
  transcript : next.devicePublicId = pairing.devicePublicId ∧
    next.brokerKeyDigest = pairing.brokerKeyDigest ∧
    next.nonceDigest = pairing.nonceDigest ∧
    next.comparisonCodeDigest = pairing.comparisonCodeDigest ∧
    next.expiresAt = pairing.expiresAt
  claimedBy : ∀ account, pairing.claimedBy = some account →
    next.claimedBy = some account
  rootConfirmed : pairing.rootConfirmed = true → next.rootConfirmed = true
  webConfirmed : pairing.webConfirmed = true → next.webConfirmed = true
  consumed : pairing.consumed = true → next.consumed = true

theorem Pairing.Continues.refl (pairing : Pairing) : pairing.Continues pairing :=
  ⟨⟨rfl, rfl, rfl, rfl, rfl⟩, fun _ h => h, fun h => h, fun h => h, fun h => h⟩

theorem Pairing.Continues.trans {first second third : Pairing}
    (hFirst : first.Continues second) (hSecond : second.Continues third) :
    first.Continues third where
  transcript := by
    obtain ⟨hDevice, hKey, hNonce, hCode, hExpires⟩ := hFirst.transcript
    obtain ⟨hDevice', hKey', hNonce', hCode', hExpires'⟩ := hSecond.transcript
    exact ⟨hDevice'.trans hDevice, hKey'.trans hKey, hNonce'.trans hNonce,
      hCode'.trans hCode, hExpires'.trans hExpires⟩
  claimedBy account h := hSecond.claimedBy account (hFirst.claimedBy account h)
  rootConfirmed h := hSecond.rootConfirmed (hFirst.rootConfirmed h)
  webConfirmed h := hSecond.webConfirmed (hFirst.webConfirmed h)
  consumed h := hSecond.consumed (hFirst.consumed h)

/-! ### Points -/

/-- What a point holds stays with pairings and credentials. -/
theorem Held.advance {point : Point} {before after : M3Runtime}
    (hPairings : ∀ id pairing, before.pairing? id = some pairing →
      ∃ next, after.pairing? id = some next ∧ pairing.Continues next)
    (hAdvances : Advances before after) (h : Held point before) : Held point after := by
  cases point with
  | pairingBody session pairingId =>
      obtain ⟨pairing, hFound, hClaimed⟩ := h
      obtain ⟨next, hNext, hContinues⟩ := hPairings pairingId pairing hFound
      exact ⟨next, hNext, hContinues.claimedBy _ hClaimed⟩
  | revocationProof session credentialId devicePublicId =>
      obtain ⟨credential, hCredential, hDevice, hTenant⟩ := h
      obtain ⟨next, hNext, hSameTenant, hSameDevice, -⟩ :=
        hAdvances.credentials credentialId credential hCredential
      exact ⟨next, hNext, hSameDevice.trans hDevice, hSameTenant.trans hTenant⟩
  | _ => trivial

/-- The account of a session that confirms a pairing has claimed it. -/
theorem Stimulus.Holds.claimedBy {session : Session} {pairing : Pairing}
    {outcome : Settled} {surroundings : Surroundings} {runtime : M3Runtime}
    (h : Stimulus.Holds (.settled (.pairingBody session pairing.id) outcome surroundings)
      runtime) (hFound : runtime.pairing? pairing.id = some pairing) :
    pairing.claimedBy = some session.toAccountIdentity := by
  obtain ⟨found, hHeld, hClaimed⟩ := h _ _ _ rfl
  rw [hFound, Option.some.injEq] at hHeld
  rw [hHeld]
  exact hClaimed

theorem stimulus?_eq_some {service : Service} {turn : Turn} {stimulus : Stimulus}
    (h : service.stimulus? turn = some stimulus) :
    (∃ call surroundings, turn = .enter (call, surroundings) ∧
      stimulus = .call call surroundings) ∨
    ∃ index point outcome surroundings, turn = .resume index (outcome, surroundings) ∧
      service.tasks[index]? = some (.suspended point) ∧
      stimulus = .settled point outcome surroundings := by
  cases turn with
  | enter call =>
      cases h
      exact .inl ⟨_, _, rfl, rfl⟩
  | resume index settled =>
      have hSuspended : ∀ task, service.tasks[index]? = some task →
          ∃ point, task = .suspended point := by
        intro task hTask
        cases task with
        | suspended point => exact ⟨point, rfl⟩
        | answered answer =>
            rw [Service.stimulus?, hTask] at h
            cases h
      cases hTask : service.tasks[index]? with
      | none =>
          rw [Service.stimulus?, hTask] at h
          cases h
      | some task =>
          obtain ⟨point, rfl⟩ := hSuspended task hTask
          rw [Service.stimulus?, hTask] at h
          cases h
          exact .inr ⟨index, point, _, _, rfl, hTask, rfl⟩

theorem turn_of_call {service : Service} {turn : Turn} {call : Call}
    {surroundings : Surroundings}
    (h : service.stimulus? turn = some (.call call surroundings)) :
    turn = .enter (call, surroundings) := by
  rcases stimulus?_eq_some h with ⟨_, _, hTurn, hSame⟩ | hResumed
  · cases hSame
    exact hTurn
  · obtain ⟨_, _, _, _, -, -, hSame⟩ := hResumed
    cases hSame

theorem turn_of_settled {service : Service} {turn : Turn} {point : Point}
    {outcome : Settled} {surroundings : Surroundings}
    (h : service.stimulus? turn = some (.settled point outcome surroundings)) :
    ∃ index, turn = .resume index (outcome, surroundings) ∧
      service.tasks[index]? = some (.suspended point) := by
  rcases stimulus?_eq_some h with ⟨_, _, -, hSame⟩ | hResumed
  · cases hSame
  · obtain ⟨index, _, _, _, hTurn, hTask, hSame⟩ := hResumed
    cases hSame
    exact ⟨index, hTurn, hTask⟩

/-- What the route of a suspended task holds, its segment starts with. -/
theorem holds_of_stimulus {service : Service} {turn : Turn} {stimulus : Stimulus}
    (hService : service.Admits Held) (h : service.stimulus? turn = some stimulus) :
    stimulus.Holds service.shared := by
  rintro point outcome surroundings rfl
  rcases stimulus?_eq_some h with ⟨_, _, _, hCall⟩ | hResume
  · cases hCall
  · obtain ⟨index, held, _, _, -, hTask, hSettled⟩ := hResume
    cases hSettled
    exact hService _ (List.mem_of_getElem? hTask)

variable [Cryptography]

/-! ### Effects -/

theorem Confirms.continues {pairing next : Pairing} {stimulus : Stimulus}
    (h : Confirms pairing stimulus next) :
    next.id = pairing.id ∧ pairing.Continues next := by
  cases h with
  | broker nonce brokerPublicKey surroundings =>
      exact ⟨rfl, ⟨rfl, rfl, rfl, rfl, rfl⟩, fun _ h => h, fun _ => rfl, fun h => h,
        fun h => h⟩
  | account session body code surroundings =>
      exact ⟨rfl, ⟨rfl, rfl, rfl, rfl, rfl⟩, fun _ h => h, fun h => h, fun _ => rfl,
        fun h => h⟩

/-- A confirmation neither claims nor consumes the pairing. -/
theorem Confirms.kept {pairing next : Pairing} {stimulus : Stimulus}
    (h : Confirms pairing stimulus next) :
    next.claimedBy = pairing.claimedBy ∧ next.consumed = pairing.consumed := by
  cases h with
  | broker nonce brokerPublicKey surroundings => exact ⟨rfl, rfl⟩
  | account session body code surroundings => exact ⟨rfl, rfl⟩

namespace Effect

variable {before after : M3Runtime} {stimulus : Stimulus} {progress : Progress}

theorem pointHeld (h : Effect before stimulus progress after) :
    PointHeld progress after := by
  cases h with
  | updated hUpdates hPoint => exact hPoint
  | _ =>
      intro point hPoint
      cases hPoint

/-- A segment updates the runtime, or it stores a pairing and keeps the devices, except
for the one of a pairing that it completes. -/
theorem devices (h : Effect before stimulus progress after) :
    Updates stimulus.tenant? before after ∨
      ∃ changed, Stores before changed after ∧
        (after.devices = before.devices ∨
          ∃ pairing next account, before.pairing? pairing.id = some pairing ∧
            Confirms pairing stimulus next ∧ next.completedFor? = some account ∧
            after.devices =
              Table.put Device.publicId (next.device account) before.devices) := by
  cases h with
  | updated hUpdates hPoint => exact .inl hUpdates
  | prepared input surroundings hCall hTime hNew hStores hDevices =>
      exact .inr ⟨_, hStores, .inl hDevices⟩
  | consumed pairing hFound hStores hDevices => exact .inr ⟨_, hStores, .inl hDevices⟩
  | claimed pairing session request surroundings hFound hCall hClaim hFree hStores
      hDevices => exact .inr ⟨_, hStores, .inl hDevices⟩
  | confirmed pairing next hFound hConfirms hOpen hStores hDevices =>
      exact .inr ⟨_, hStores, .inl hDevices⟩
  | completed pairing next account hFound hConfirms hComplete hStores hDevices =>
      exact .inr ⟨_, hStores, .inr
        ⟨pairing, next, account, hFound, hConfirms, hComplete, hDevices⟩⟩

/-- A stored pairing continues. -/
theorem pairing (h : Effect before stimulus progress after) {id : String}
    {pairing : Pairing} (hFound : before.pairing? id = some pairing) :
    ∃ next, after.pairing? id = some next ∧ pairing.Continues next := by
  -- A turn that stores one pairing says what becomes of this one.
  have hStored {changed : Pairing} (hStores : Stores before changed after)
      (hContinues : id = changed.id → pairing.Continues changed) :
      ∃ next, after.pairing? id = some next ∧ pairing.Continues next := by
    by_cases hId : id = changed.id
    · refine ⟨changed, ?_, hContinues hId⟩
      rw [hId]
      exact hStores.stored
    · refine ⟨pairing, ?_, .refl pairing⟩
      rw [hStores.others id hId]
      exact hFound
  have hSame {found : Pairing} (hOther : before.pairing? found.id = some found)
      (hId : id = found.id) : found = pairing := by
    rw [hId, hOther, Option.some.injEq] at hFound
    exact hFound
  cases h with
  | updated hUpdates hPoint =>
      refine ⟨pairing, ?_, .refl pairing⟩
      rw [M3Runtime.pairing?, hUpdates.pairings]
      exact hFound
  | prepared input surroundings hCall hTime hNew hStores hDevices =>
      refine hStored hStores fun hId => ?_
      rw [hId, show input.pairing.id = input.pairingId from rfl, hNew] at hFound
      cases hFound
  | consumed found hOther hStores hDevices =>
      refine hStored hStores fun hId => ?_
      rw [← hSame hOther hId]
      exact ⟨⟨rfl, rfl, rfl, rfl, rfl⟩, fun _ h => h, fun h => h, fun h => h,
        fun _ => rfl⟩
  | claimed found session request surroundings hOther hCall hClaim hFree hStores
      hDevices =>
      refine hStored hStores fun hId => ?_
      rw [← hSame hOther hId]
      refine ⟨⟨rfl, rfl, rfl, rfl, rfl⟩, fun account hAccount => ?_, fun h => h,
        fun h => h, fun h => h⟩
      rcases hFree with hNone | hOwn
      · rw [hNone] at hAccount
        cases hAccount
      · rw [← hAccount, hOwn]
        rfl
  | confirmed found next hOther hConfirms hOpen hStores hDevices =>
      obtain ⟨hNextId, hContinues⟩ := hConfirms.continues
      refine hStored hStores fun hId => ?_
      rw [← hSame hOther (hId.trans hNextId)]
      exact hContinues
  | completed found next account hOther hConfirms hComplete hStores hDevices =>
      obtain ⟨hNextId, hContinues⟩ := hConfirms.continues
      refine hStored hStores fun hId => ?_
      rw [← hSame hOther (hId.trans hNextId)]
      refine hContinues.trans ?_
      exact ⟨⟨rfl, rfl, rfl, rfl, rfl⟩, fun _ h => h, fun h => h, fun h => h,
        fun _ => rfl⟩

end Effect

/-! ### Turns -/

section Turns

variable {service : Service} {turn : Turn}

theorem turn_of_stimulus_none (h : service.stimulus? turn = none) :
    service.turn turn = service := by
  cases turn with
  | enter call => cases h
  | resume index settled =>
      apply Scene.step_idle
      intro point hPoint
      rw [Service.stimulus?, hPoint] at h
      cases h

theorem turn_of_stimulus {stimulus : Stimulus}
    (h : service.stimulus? turn = some stimulus) :
    (service.turn turn).shared = (stimulus.run service.shared).2 ∧
      ∀ task ∈ (service.turn turn).tasks,
        task ∈ service.tasks ∨ task = (stimulus.run service.shared).1 := by
  rcases stimulus?_eq_some h with ⟨call, surroundings, rfl, rfl⟩ | hResume
  · refine ⟨rfl, fun task hTask => ?_⟩
    rw [Service.turn, Scene.step, List.mem_append, List.mem_singleton] at hTask
    exact hTask
  · obtain ⟨index, point, outcome, surroundings, rfl, hTask, rfl⟩ := hResume
    rw [Service.turn, Scene.step_resume hTask]
    exact ⟨rfl, fun task hMem => List.mem_or_eq_of_mem_set hMem⟩

theorem turn_effect (hService : service.Admits Held) {stimulus : Stimulus}
    (h : service.stimulus? turn = some stimulus) :
    Effect service.shared stimulus (stimulus.run service.shared).1
      (service.turn turn).shared := by
  rw [(turn_of_stimulus h).1]
  exact run_effect stimulus (holds_of_stimulus hService h)

/-- A stored pairing continues with every turn. -/
theorem turn_pairing (hService : service.Admits Held) (turn : Turn) {id : String}
    {pairing : Pairing} (hFound : service.shared.pairing? id = some pairing) :
    ∃ next, (service.turn turn).shared.pairing? id = some next ∧
      pairing.Continues next := by
  cases hStimulus : service.stimulus? turn with
  | none =>
      rw [turn_of_stimulus_none hStimulus]
      exact ⟨pairing, hFound, .refl pairing⟩
  | some stimulus => exact (turn_effect hService hStimulus).pairing hFound

theorem turn_held (hService : service.Admits Held) (turn : Turn) :
    (service.turn turn).Admits Held := by
  cases hStimulus : service.stimulus? turn with
  | none =>
      rw [turn_of_stimulus_none hStimulus]
      exact hService
  | some stimulus =>
      intro point hPoint
      rcases (turn_of_stimulus hStimulus).2 _ hPoint with hOld | hNew
      · have hAdvances : Advances service.shared (service.turn turn).shared :=
          routine_disciplined.step_related service turn
        exact (hService point hOld).advance
          (fun _ _ => turn_pairing hService turn) hAdvances
      · exact (turn_effect hService hStimulus).pointHeld point hNew.symm

theorem run_held (officialOrigin : String) (turns : List Turn) :
    (Foundation.run Service.turn (Service.fresh officialOrigin) turns).Admits Held := by
  apply run_invariant (I := fun service : Service => service.Admits Held)
  · intro point hPoint
    cases hPoint
  · intro service turn hService
    exact turn_held hService turn

end Turns

end M3
end Hosted
end RootPermit
