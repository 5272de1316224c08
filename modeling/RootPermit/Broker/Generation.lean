import RootPermit.Broker.Authenticity

/-!
# The credential generation at the start of execution

Execution should start only while the credential generation under which a request
was submitted is the active one.  The store's transition to executing does not look
at the generation (`executed_under_superseded_generation`).  Which generation is
active can be told from the calls alone: it is the one of the last acceptable
replacement of the credentials (`credentialGeneration_eq`).  So a run keeps to the
active generation when its calls do (`executions_current`).
-/

namespace RootPermit
namespace Broker

open Foundation Protocol

/-! ### Which replacements are accepted -/

/-- The arguments with which `replace_credentials` succeeds. -/
def AcceptableReplacement (generation : UInt64) (pins : List CredentialPin) : Prop :=
  pins ≠ [] ∧ (∀ pin ∈ pins, pin.Acceptable) ∧
    (pins.map CredentialPin.credentialId).Nodup ∧ generation.toNat < 2 ^ 63

instance (generation : UInt64) (pins : List CredentialPin) :
    Decidable (AcceptableReplacement generation pins) :=
  inferInstanceAs (Decidable (_ ∧ _))

/-- The constraints speak of the credentials separately. -/
theorem Constraints.withCredentials {tables : Tables} (h : Constraints tables)
    {rows : List CredentialRow}
    (hKey : Table.Keyed CredentialRow.credentialId rows)
    (hChecks : ∀ row ∈ rows, row.Checked) :
    Constraints { tables with credentials := rows } :=
  { h with credentialKey := hKey, credentialChecks := hChecks }

theorem CredentialPin.Acceptable.checked {pin : CredentialPin} {generation : Int64}
    (h : pin.Acceptable) (hGeneration : 0 ≤ generation) :
    (pin.toRow generation).Checked := by
  obtain ⟨hId, hIdLength, hKey, hKeyLength, -⟩ := h
  exact ⟨⟨List.length_pos_iff.mpr hId, hIdLength⟩, hGeneration,
    ⟨List.length_pos_iff.mpr hKey, hKeyLength⟩, (by decide : (0 : Int64) ≤ 0),
    Or.inl rfl⟩

/-- Acceptable credentials with distinct ids are inserted one after the other. -/
theorem insertCredentials_ok {generation : Int64} (hGeneration : 0 ≤ generation)
    {pins : List CredentialPin} (hPins : ∀ pin ∈ pins, pin.Acceptable)
    {before : Database}
    (hDistinct : (before.credentials.map CredentialRow.credentialId ++
      pins.map CredentialPin.credentialId).Nodup) :
    ∃ after, insertCredentials generation pins before = .ok ((), after) := by
  induction pins generalizing before with
  | nil => exact ⟨before, rfl⟩
  | cons pin pins ih =>
      have hRows : (before.credentials ++ [pin.toRow generation]).map
          CredentialRow.credentialId ++ pins.map CredentialPin.credentialId =
          before.credentials.map CredentialRow.credentialId ++
            (pin :: pins).map CredentialPin.credentialId := by
        simp [CredentialPin.toRow]
      rw [← hRows] at hDistinct
      have hChecks : ∀ row ∈ before.credentials ++ [pin.toRow generation],
          row.Checked := by
        intro row hRow
        rcases List.mem_append.mp hRow with hOld | hNew
        · exact before.constraints.credentialChecks row hOld
        · rw [List.mem_singleton.mp hNew]
          exact (hPins pin List.mem_cons_self).checked hGeneration
      let between : Database :=
        { toTables := { before.toTables with
            credentials := before.credentials ++ [pin.toRow generation] }
          constraints := before.constraints.withCredentials
            (List.nodup_append.mp hDistinct).1 hChecks }
      have hRest : ∃ after, insertCredentials generation pins between =
          .ok ((), after) :=
        ih (fun later hLater => hPins later (List.mem_cons_of_mem _ hLater)) hDistinct
      obtain ⟨after, hAfter⟩ := hRest
      refine ⟨after, ?_⟩
      rw [insertCredentials, run_bind_eq_ok_iff]
      exact ⟨(), between, execute_eq_ok_iff.mpr rfl, hAfter⟩

/-- Whether a replacement succeeds depends on its arguments only. -/
theorem replaceCredentials_ok_iff {generation : UInt64} {pins : List CredentialPin}
    {before : Database} :
    (∃ after, replaceCredentials generation pins before = .ok ((), after)) ↔
      AcceptableReplacement generation pins := by
  constructor
  · intro h
    obtain ⟨after, hAfter⟩ := h
    obtain ⟨⟨hSome, hPins⟩, active, hActive, hTables⟩ :=
      replaceCredentials_eq_ok hAfter
    -- The primary key of the table makes the credential ids distinct.
    have hKey := after.constraints.credentialKey
    rw [hTables] at hKey
    unfold Table.Keyed at hKey
    rw [List.map_map] at hKey
    have hFits : active.toInt < 2 ^ 63 := active.toInt_lt
    exact ⟨hSome, hPins, hKey, by omega⟩
  · intro h
    obtain ⟨hSome, hPins, hDistinct, hFits⟩ := h
    have hActive : (Int64.ofNat generation.toNat).toInt = generation.toNat :=
      Int64.toInt_ofNat_of_lt hFits
    have hSign : 0 ≤ Int64.ofNat generation.toNat := by
      rw [Int64.le_iff_toInt_le, hActive]
      exact Int.natCast_nonneg _
    let cleared : Database :=
      { toTables := { before.toTables with credentials := [] }
        constraints := before.constraints.withCredentials List.nodup_nil
          fun row hRow => by cases hRow }
    have hInsert : ∃ inserted, insertCredentials (Int64.ofNat generation.toNat) pins
        cleared = .ok ((), inserted) := insertCredentials_ok hSign hPins hDistinct
    obtain ⟨inserted, hInserted⟩ := hInsert
    let after : Database :=
      { toTables := { inserted.toTables with
          brokerMetadata := { inserted.brokerMetadata with
            credentialGeneration := Int64.ofNat generation.toNat } }
        constraints := { inserted.constraints with
          metadataChecks := ⟨inserted.constraints.metadataChecks.1, hSign⟩ } }
    refine ⟨after, ?_⟩
    simp only [replaceCredentials, run_bind_eq_ok_iff, attempt_eq_ok_iff,
      rejectIf_eq_ok_iff, orFault_eq_ok_iff, toI64?_eq_some_iff, execute_eq_ok_iff]
    refine ⟨(), before, ⟨?_, rfl⟩, Int64.ofNat generation.toNat, before,
      ⟨hActive, rfl⟩, (), cleared, rfl, (), inserted, hInserted, rfl⟩
    intro hRejected
    rcases hRejected with hEmpty | ⟨pin, hPin, hUnacceptable⟩
    · exact hSome hEmpty
    · exact hUnacceptable (hPins pin hPin)

/-! ### The active generation -/

/-- The active generation after a call, as the calls alone tell it. -/
def noteReplacement (active : UInt64) : Call → UInt64
  | .replaceCredentials generation pins =>
      if AcceptableReplacement generation pins then generation else active
  | _ => active

/-- The generation of the last acceptable replacement, or zero. -/
def replacedGeneration (calls : List Call) : UInt64 :=
  run noteReplacement 0 calls

section ActiveGeneration

variable [Cryptography]

theorem replaceCredentials_step {generation : UInt64} {pins : List CredentialPin}
    (store : BrokerStore) (h : AcceptableReplacement generation pins) :
    (store.step (.replaceCredentials generation
      pins)).database.brokerMetadata.credentialGeneration.toInt =
        generation.toNat := by
  have hOk : ∃ after, replaceCredentials generation pins store.database =
      .ok ((), after) := replaceCredentials_ok_iff.mpr h
  obtain ⟨after, hAfter⟩ := hOk
  obtain ⟨-, active, hActive, hTables⟩ := replaceCredentials_eq_ok hAfter
  have hDone : (Call.replaceCredentials generation pins).transaction
      store.deviceIdBytes (Snapshots.at store.database.toTables) store.database =
        .ok (store.deviceIdBytes, after) := by
    rw [Call.transaction, run_bind_eq_ok_iff]
    exact ⟨(), after, hAfter, rfl⟩
  have hStep : store.step (.replaceCredentials generation pins) =
      { database := after, deviceIdBytes := store.deviceIdBytes } := by
    unfold BrokerStore.step BrokerStore.call
    rw [hDone]
    rfl
  rw [hStep, hTables]
  exact hActive

theorem noteReplacement_step (store : BrokerStore) (active : UInt64) (call : Call)
    (h : store.database.brokerMetadata.credentialGeneration.toInt = active.toNat) :
    (store.step call).database.brokerMetadata.credentialGeneration.toInt =
      (noteReplacement active call).toNat := by
  rcases store.step_cases call with hSame | hDone
  · -- The call failed, so it was not an acceptable replacement.
    rw [hSame]
    cases call with
    | replaceCredentials generation pins =>
        by_cases hAccepted : AcceptableReplacement generation pins
        · have hStep := replaceCredentials_step store hAccepted
          rw [hSame] at hStep
          rw [noteReplacement, if_pos hAccepted, hStep]
        · rw [noteReplacement, if_neg hAccepted, h]
    | _ => exact h
  · cases call with
    | replaceCredentials generation pins =>
        have hAccepted : AcceptableReplacement generation pins := by
          simp only [Call.transaction, run_bind_eq_ok_iff] at hDone
          obtain ⟨_, after, hReplaced, -⟩ := hDone
          exact replaceCredentials_ok_iff.mp ⟨after, hReplaced⟩
        rw [noteReplacement, if_pos hAccepted]
        exact replaceCredentials_step store hAccepted
    | _ =>
        rcases (Call.shared hDone).generation with hKept | ⟨_, _, hCall, -⟩
        · rw [hKept]
          exact h
        · cases hCall

/-- The stored generation is the one of the last acceptable replacement. -/
theorem credentialGeneration_eq (calls : List Call) :
    (run BrokerStore.step BrokerStore.empty
      calls).database.brokerMetadata.credentialGeneration.toInt =
        (replacedGeneration calls).toNat := by
  induction calls using List.reverseRecOn with
  | nil => rfl
  | append_singleton calls call ih =>
      rw [replacedGeneration, run_concat, run_concat]
      exact noteReplacement_step _ _ call ih

end ActiveGeneration

/-! ### The start of execution -/

theorem Drives.to_executing [Cryptography] {deviceIdBytes : ByteArr 16}
    {snapshots : Snapshots} {before : Tables} {requestId : PublicId} {call : Call}
    {source target : RequestState} {reason : TransitionReason}
    (h : Drives deviceIdBytes snapshots before requestId call source target reason)
    (hTarget : target = .executing) :
    call = .transitionNonterminal requestId .approved .executing := by
  cases h with
  | nonterminal _ _ _ hEdge =>
      subst hTarget
      have hSource : source = .approved := by
        cases source <;> first | rfl | cases hEdge
      rw [hSource]
  | prepared => cases hTarget
  | terminal _ _ _ _ _ hClosed _ =>
      subst hTarget
      cases hClosed
  | reconciled succeeded => cases succeeded <;> cases hTarget
  | booted => cases hTarget
  | lapsed _ _ _ _ _ hLapsed =>
      subst hTarget
      rcases hLapsed with hLapsed | hLapsed <;> cases hLapsed
  | decided _ _ _ _ _ verified =>
      cases hDecision : verified.decision <;>
        rw [hDecision] at hTarget <;> cases hTarget

/-- The call starts no execution of a request whose generation is not the active
one. -/
def StartsCurrent [Cryptography] (store : BrokerStore) (call : Call) : Prop :=
  ∀ requestId old new, store.database.request? requestId = some old →
    old.state = .approved →
    (store.step call).database.request? requestId = some new →
    new.state = .executing →
    store.database.brokerMetadata.credentialGeneration = old.generation

/-- Whenever the calls start an approved request, its generation is the one of the
last acceptable replacement before. -/
def StartsFollowReplacements [Cryptography] (calls : List Call) : Prop :=
  ∀ earlier requestId later,
    calls = earlier ++
      .transitionNonterminal requestId .approved .executing :: later →
    ∀ row, (run BrokerStore.step BrokerStore.empty earlier).database.request?
      requestId = some row → row.state = .approved →
      row.generation.toInt = (replacedGeneration earlier).toNat

/-- In every run whose starts follow the replacements of the credentials, a request
goes from approved to executing only under the active generation. -/
theorem executions_current [Cryptography] {calls : List Call}
    (hStarts : StartsFollowReplacements calls) :
    Throughout BrokerStore.step BrokerStore.empty calls StartsCurrent := by
  intro earlier call later hCalls requestId old new hOld hApproved hNew hExecuting
  rcases (run BrokerStore.step BrokerStore.empty earlier).step_cases call with
    hSame | hDone
  · rw [hSame, hOld, Option.some.injEq] at hNew
    rw [← hNew, hApproved] at hExecuting
    cases hExecuting
  · have hStart : call = .transitionNonterminal requestId .approved .executing := by
      cases Call.effect hDone requestId with
      | kept hKept =>
          have hRow := hNew.symm.trans ((congrArg Dossier.row hKept).trans hOld)
          rw [Option.some.inj hRow, hApproved] at hExecuting
          cases hExecuting
      | created _ _ _ _ _ hAbsent _ =>
          rw [hAbsent] at hOld
          cases hOld
      | moved moved target reason hMoved hDrives =>
          have hTarget : new = target :=
            Option.some.inj (hNew.symm.trans hMoved.rowAfter)
          rw [hTarget] at hExecuting
          exact hDrives.to_executing hExecuting
    rw [hStart] at hCalls
    have hActive := credentialGeneration_eq earlier
    have hGeneration := hStarts earlier requestId later hCalls old hOld hApproved
    exact Int64.toInt_inj.mp (hActive.trans hGeneration.symm)

/-- The sample request is submitted under a generation that the credentials were
replaced for. -/
def renewedRun : List Call :=
  [.replaceCredentials 1 [samplePin],
    .submit { sampleRequest with generation := 1 } allowAll,
    .transitionNonterminal sampleRequest.requestId .planning .pending,
    .transitionNonterminal sampleRequest.requestId .pending .approved]

def startedRun : List Call :=
  renewedRun ++ [.transitionNonterminal sampleRequest.requestId .approved .executing]

/-- The request is started under the generation of the replacement. -/
theorem executions_current_sample :
    requestState sampleRequest.requestId
        (run (@BrokerStore.step keyedHashCryptography) BrokerStore.empty
          startedRun).database.toTables = some .executing ∧
      Throughout (@BrokerStore.step keyedHashCryptography) BrokerStore.empty
        startedRun (@StartsCurrent keyedHashCryptography) := by
  refine ⟨by decide +kernel, @executions_current keyedHashCryptography _ ?_⟩
  intro earlier requestId later hCalls row hRow hApproved
  have hGeneration : ((run (@BrokerStore.step keyedHashCryptography)
      BrokerStore.empty renewedRun).database.request?
        sampleRequest.requestId).map RequestRow.generation = some 1 := by
    decide +kernel
  have hReplaced : replacedGeneration renewedRun = 1 := by decide +kernel
  -- Only the fifth call starts an approved request.
  rcases earlier with _ | ⟨_, _ | ⟨_, _ | ⟨_, _ | ⟨_, _ | ⟨_, earlier⟩⟩⟩⟩⟩
  · simp [startedRun, renewedRun] at hCalls
  · simp [startedRun, renewedRun] at hCalls
  · simp [startedRun, renewedRun] at hCalls
  · simp [startedRun, renewedRun] at hCalls
  · simp only [startedRun, renewedRun, List.cons_append, List.nil_append,
      List.cons.injEq, Call.transitionNonterminal.injEq, and_true] at hCalls
    obtain ⟨rfl, rfl, rfl, rfl, rfl, rfl⟩ := hCalls
    change (run (@BrokerStore.step keyedHashCryptography) BrokerStore.empty
      renewedRun).database.request? sampleRequest.requestId = some row at hRow
    change row.generation.toInt = (replacedGeneration renewedRun).toNat
    obtain ⟨found, hFound, hOne⟩ := Option.map_eq_some_iff.mp hGeneration
    rw [hFound] at hRow
    rw [← Option.some.inj hRow, hOne, hReplaced]
    rfl
  · simp [startedRun, renewedRun] at hCalls

/-- The credentials are replaced after the approval of the sample request. -/
def supersededRun [Cryptography] : List Call :=
  approvedRun ++ [.replaceCredentials 1 [samplePin]]

/-- A request approved under one generation is started under the next. -/
theorem executed_under_superseded_generation :
    ¬ Throughout (@BrokerStore.step keyedHashCryptography) BrokerStore.empty
      (@supersededRun keyedHashCryptography ++
        [.transitionNonterminal sampleRequest.requestId .approved .executing])
      (@StartsCurrent keyedHashCryptography) := by
  intro h
  have hCurrent := h.last
  have hFacts : (fun store : BrokerStore =>
      ((store.database.request? sampleRequest.requestId).map
          (fun row => (row.state, row.generation)),
        store.database.brokerMetadata.credentialGeneration,
        requestState sampleRequest.requestId
          (@BrokerStore.step keyedHashCryptography store (.transitionNonterminal
            sampleRequest.requestId .approved .executing)).database.toTables))
      (run (@BrokerStore.step keyedHashCryptography) BrokerStore.empty
        (@supersededRun keyedHashCryptography)) =
      (some (.approved, 0), 1, some .executing) := by
    decide +kernel
  generalize run (@BrokerStore.step keyedHashCryptography) BrokerStore.empty
    (@supersededRun keyedHashCryptography) = store at hCurrent hFacts
  simp only [Prod.mk.injEq, Option.map_eq_some_iff, requestState] at hFacts
  obtain ⟨⟨old, hOld, hApproved, hZero⟩, hOne, new, hNew, hExecuting⟩ := hFacts
  have hSame := hCurrent sampleRequest.requestId old new hOld hApproved hNew hExecuting
  rw [hOne, hZero] at hSame
  exact absurd hSame (by decide)

end Broker
end RootPermit
