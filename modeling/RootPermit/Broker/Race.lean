import RootPermit.Broker.Authenticity

/-!
# The race for a pending request

Several handles share one database.  Each call is one transaction; the reads of
`apply_webauthn_submission` come before its transaction, one by one, and other
handles may commit between them.  An act of one of the handles is therefore a read
or the transaction of a call.

A request leaves its pending state at most once.  The reads may be outdated when
the transaction begins; what it relies on and does not check again is the
generation of the request, which no call changes (`ReadsEarlier`).
-/

namespace RootPermit
namespace Broker

open Foundation Protocol

/-! ### Handles of one database -/

/-- A handle: its device id, and the tables that the reads of its call in progress
have seen, in their order. -/
structure Handle where
  deviceIdBytes : ByteArr 16
  reads : List Tables

/-- The reads of a decision.  Those that no other handle came between are made
right before the transaction. -/
def Handle.snapshots (handle : Handle) (current : Tables) : Snapshots where
  request := handle.reads.getD 0 current
  identity := handle.reads.getD 1 current
  deadline := handle.reads.getD 2 current
  generation := handle.reads.getD 3 current
  credentials := handle.reads.getD 4 current

/-- The next read sees the current tables. -/
def Handle.observe (handle : Handle) (current : Tables) : Handle :=
  { handle with reads := handle.reads ++ [current] }

structure SharedStore where
  database : Database
  handles : List Handle

/-- An act on the shared database: a new handle is opened, the call in progress on
a handle makes its next read, or a call makes its transaction. -/
inductive Act where
  | openHandle
  | read (index : Nat)
  | call (index : Nat) (call : Call)

namespace SharedStore

/-- The migrated, empty database, without handles. -/
def empty : SharedStore where
  database := Database.migrated
  handles := []

/-- The transaction of a call through a handle. -/
def perform [Cryptography] (shared : SharedStore) (handle : Handle) (call : Call) :
    Except BrokerError (ByteArr 16 × Database) :=
  call.transaction handle.deviceIdBytes (handle.snapshots shared.database.toTables)
    shared.database

/-- The store after an act; a failed call leaves the database as it was. -/
def step [Cryptography] (shared : SharedStore) : Act → SharedStore
  | .openHandle =>
      match pinnedDeviceId shared.database.toTables with
      | .ok deviceIdBytes =>
          { shared with handles := shared.handles ++ [⟨deviceIdBytes, []⟩] }
      | .error _ => shared
  | .read index =>
      match shared.handles[index]? with
      | some handle =>
          { shared with
            handles :=
              shared.handles.set index (handle.observe shared.database.toTables) }
      | none => shared
  | .call index call =>
      match shared.handles[index]? with
      | some handle =>
          match shared.perform handle call with
          | .ok (deviceIdBytes, database) =>
              { database, handles := shared.handles.set index ⟨deviceIdBytes, []⟩ }
          | .error _ =>
              { shared with
                handles := shared.handles.set index ⟨handle.deviceIdBytes, []⟩ }
      | none => shared

end SharedStore

/-! ### The race -/

/-- The act moves the request out of its pending state. -/
def LeavesPending [Cryptography] (requestId : PublicId) (shared : SharedStore)
    (act : Act) : Prop :=
  requestState requestId shared.database.toTables = some .pending ∧
    requestState requestId (shared.step act).database.toTables ≠ some .pending

/-- The calls that try to move the request out of its pending state: a signed
decision, an expiry, a change of generation, a cancellation, and a new boot that
finds the request pending. -/
inductive Contends (requestId : PublicId) (tables : Tables) : Call → Prop
  | decision (attempt : DecisionAttempt) (signer : BrokerSigningKey)
      (entropy : Entropy) (hRequest : attempt.requestId = requestId) :
      Contends requestId tables (.applyWebauthnSubmission attempt signer entropy)
  | closing (next : RequestState)
      (hNext : next ∈ [RequestState.expired, .stale, .cancelled])
      (signer : BrokerSigningKey) (nowUtc : Int64) (entropy : Entropy) :
      Contends requestId tables
        (.transitionTerminal requestId .pending next signer nowUtc entropy)
  | boot (bootEpoch : UInt64) (signer : BrokerSigningKey) (nowUtc : Int64)
      (entropy : Nat → Entropy)
      (hWork : (Call.startBoot bootEpoch signer nowUtc entropy).Concerns requestId
        tables)
      (hPending : requestState requestId tables = some .pending) :
      Contends requestId tables (.startBoot bootEpoch signer nowUtc entropy)

/-- What the acts of the race come to. -/
structure FairRace [Cryptography] (requestId : PublicId) (shared : SharedStore)
    (act : Act) : Prop where
  /-- A call that tries and does not win fails and changes nothing. -/
  loser : ∀ index handle call, act = .call index call →
    shared.handles[index]? = some handle →
    Contends requestId shared.database.toTables call →
    ¬ LeavesPending requestId shared act →
    (∃ fault, shared.perform handle call = .error fault) ∧
      (shared.step act).database = shared.database
  /-- A decision is committed only on a pending request of the active generation. -/
  decided : ∀ index call state, act = .call index call →
    Contends requestId shared.database.toTables call →
    requestState requestId shared.database.toTables ≠ some state →
    requestState requestId (shared.step act).database.toTables = some state →
    state = .approved ∨ state = .denied →
    ∃ row, shared.database.request? requestId = some row ∧ row.state = .pending ∧
      row.generation = shared.database.brokerMetadata.credentialGeneration
  /-- A new boot that does not find the request pending leaves it alone, or expires
  it as planned or approved work. -/
  booted : ∀ index bootEpoch signer nowUtc entropy,
    act = .call index (.startBoot bootEpoch signer nowUtc entropy) →
    ¬ Contends requestId shared.database.toTables
      (.startBoot bootEpoch signer nowUtc entropy) →
    (shared.step act).database.dossier requestId =
        shared.database.dossier requestId ∨
      (∃ state ∈ [RequestState.planning, .approved],
        requestState requestId shared.database.toTables = some state) ∧
        requestState requestId (shared.step act).database.toTables = some .expired

theorem RequestState.rank_pending_lt {state : RequestState}
    (hRank : RequestState.pending.rank ≤ state.rank) (hState : state ≠ .pending) :
    RequestState.pending.rank < state.rank := by
  cases state <;>
    first | decide | exact absurd rfl hState | exact absurd hRank (by decide)

theorem Contends.concerns {requestId : PublicId} {tables : Tables} {call : Call}
    (h : Contends requestId tables call) : call.Concerns requestId tables := by
  cases h with
  | decision attempt signer entropy hRequest => exact hRequest
  | closing next hNext signer nowUtc entropy => rfl
  | boot bootEpoch signer nowUtc entropy hWork hPending => exact hWork

/-! ### What an outdated read can rely on -/

/-- Whatever the handles have read of a request has since only been kept. -/
def ReadsEarlier (requestId : PublicId) (shared : SharedStore) : Prop :=
  ∀ handle ∈ shared.handles, ∀ tables ∈ handle.reads,
    Kept requestId tables shared.database.toTables

/-- Every read of a decision goes back to tables of which the request was kept. -/
theorem Kept.read {requestId : PublicId} {shared : SharedStore} {handle : Handle}
    {index : Nat}
    (h : ReadsEarlier requestId shared) (hHandle : handle ∈ shared.handles) :
    Kept requestId (handle.reads.getD index shared.database.toTables)
      shared.database.toTables := by
  rw [List.getD_eq_getElem?_getD]
  cases hRead : handle.reads[index]? with
  | none => exact Kept.of_dossier rfl
  | some tables => exact h handle hHandle tables (List.mem_of_getElem? hRead)

/-- A context that was read before states the generation of the request. -/
theorem generation_of_context {attempt : DecisionAttempt}
    {deviceIdBytes : ByteArr 16} {before identity after : Tables}
    {context : ApprovalContext} {row : RequestRow}
    (hKept : Kept attempt.requestId before after)
    (hContext : attempt.context deviceIdBytes before identity = .ok context)
    (hRow : after.request? attempt.requestId = some row) :
    (context.generation.toNat : Int) = row.generation.toInt := by
  simp only [DecisionAttempt.context, approvalContext, requestRow, bind_eq_ok_iff,
    orFault_eq_ok_iff, toU64?_eq_some_iff, pure_eq_ok, Except.ok.injEq] at hContext
  obtain ⟨_, ⟨old, hOld, _, -, _, -, _, -, _, -, _, -, _, -, _, -, generation,
    hGeneration, _, -, _, -, rfl⟩, _, -, rfl⟩ := hContext
  obtain ⟨new, hNew, hSame, -⟩ := hKept.row old hOld
  rw [hRow, Option.some.injEq] at hNew
  rw [hNew, hSame.generation]
  exact hGeneration

section Acts

variable [Cryptography] {requestId : PublicId} {shared : SharedStore}

theorem SharedStore.step_call {index : Nat} {handle : Handle} {call : Call}
    (hHandle : shared.handles[index]? = some handle) :
    (shared.step (.call index call)).database =
      match shared.perform handle call with
      | .ok (_, database) => database
      | .error _ => shared.database := by
  simp only [SharedStore.step, hHandle]
  cases shared.perform handle call <;> rfl

/-- An act keeps the database, or it is the transaction of a call. -/
theorem SharedStore.step_database (shared : SharedStore) (act : Act) :
    (shared.step act).database = shared.database ∨
      ∃ index handle call result, act = .call index call ∧
        shared.handles[index]? = some handle ∧
        shared.perform handle call = .ok (result, (shared.step act).database) := by
  cases act with
  | openHandle =>
      left
      unfold SharedStore.step
      cases pinnedDeviceId shared.database.toTables <;> rfl
  | read index =>
      left
      simp only [SharedStore.step]
      cases shared.handles[index]? <;> rfl
  | call index call =>
      cases hHandle : shared.handles[index]? with
      | none =>
          left
          simp only [SharedStore.step, hHandle]
      | some handle =>
          rw [SharedStore.step_call hHandle]
          cases hOutcome : shared.perform handle call with
          | error fault => exact Or.inl rfl
          | ok outcome =>
              exact Or.inr ⟨index, handle, call, outcome.1, rfl, hHandle, hOutcome⟩

theorem Kept.act (requestId : PublicId) (shared : SharedStore) (act : Act) :
    Kept requestId shared.database.toTables
      (shared.step act).database.toTables := by
  rcases shared.step_database act with hSame | ⟨_, _, _, _, -, -, hDone⟩
  · rw [hSame]
    exact Kept.of_dossier rfl
  · exact Kept.transaction hDone requestId

/-! ### One act leaves the pending state -/

/-- The request has left its pending state. -/
def PastPending (requestId : PublicId) (shared : SharedStore) : Prop :=
  ∃ row, shared.database.request? requestId = some row ∧
    RequestState.pending.rank < row.state.rank

theorem PastPending.step (shared : SharedStore) (act : Act)
    (h : PastPending requestId shared) : PastPending requestId (shared.step act) := by
  obtain ⟨row, hRow, hRank⟩ := h
  obtain ⟨new, hNew, -, hGrown⟩ := (Kept.act requestId shared act).row row hRow
  exact ⟨new, hNew, Nat.lt_of_lt_of_le hRank hGrown⟩

theorem LeavesPending.pastPending (shared : SharedStore) (act : Act)
    (h : LeavesPending requestId shared act) :
    PastPending requestId (shared.step act) := by
  obtain ⟨hBefore, hAfter⟩ := h
  obtain ⟨row, hRow, hPending⟩ := Option.map_eq_some_iff.mp hBefore
  obtain ⟨new, hNew, -, hRank⟩ := (Kept.act requestId shared act).row row hRow
  rw [hPending] at hRank
  refine ⟨new, hNew, RequestState.rank_pending_lt hRank ?_⟩
  intro hState
  apply hAfter
  rw [requestState, hNew, Option.map_some, hState]

theorem PastPending.not_leavesPending (shared : SharedStore) (act : Act)
    (h : PastPending requestId shared) : ¬ LeavesPending requestId shared act := by
  rintro ⟨hBefore, -⟩
  obtain ⟨row, hRow, hRank⟩ := h
  rw [requestState, hRow, Option.map_some, Option.some.injEq] at hBefore
  rw [hBefore] at hRank
  exact Nat.lt_irrefl _ hRank

theorem ReadsEarlier.step (shared : SharedStore) (act : Act)
    (h : ReadsEarlier requestId shared) :
    ReadsEarlier requestId (shared.step act) := by
  intro handle hHandle tables hTables
  have hKept := Kept.act requestId shared act
  -- A handle was there with its reads, or it has just read, or it has no reads.
  have hOrigin : tables = shared.database.toTables ∨
      ∃ old ∈ shared.handles, tables ∈ old.reads := by
    cases act with
    | openHandle =>
        unfold SharedStore.step at hHandle
        cases hDevice : pinnedDeviceId shared.database.toTables with
        | error fault =>
            rw [hDevice] at hHandle
            exact Or.inr ⟨handle, hHandle, hTables⟩
        | ok deviceIdBytes =>
            rw [hDevice] at hHandle
            rcases List.mem_append.mp hHandle with hOld | hNew
            · exact Or.inr ⟨handle, hOld, hTables⟩
            · rw [List.mem_singleton.mp hNew] at hTables
              cases hTables
    | read index =>
        simp only [SharedStore.step] at hHandle
        cases hFound : shared.handles[index]? with
        | none =>
            rw [hFound] at hHandle
            exact Or.inr ⟨handle, hHandle, hTables⟩
        | some found =>
            rw [hFound] at hHandle
            rcases List.mem_or_eq_of_mem_set hHandle with hOld | rfl
            · exact Or.inr ⟨handle, hOld, hTables⟩
            · rcases List.mem_append.mp hTables with hOld | hNew
              · exact Or.inr ⟨found, List.mem_of_getElem? hFound, hOld⟩
              · exact Or.inl (List.mem_singleton.mp hNew)
    | call index call =>
        simp only [SharedStore.step] at hHandle
        cases hFound : shared.handles[index]? with
        | none =>
            rw [hFound] at hHandle
            exact Or.inr ⟨handle, hHandle, hTables⟩
        | some found =>
            simp only [hFound] at hHandle
            cases hOutcome : shared.perform found call with
            | error fault =>
                rw [hOutcome] at hHandle
                rcases List.mem_or_eq_of_mem_set hHandle with hOld | rfl
                · exact Or.inr ⟨handle, hOld, hTables⟩
                · cases hTables
            | ok outcome =>
                rw [hOutcome] at hHandle
                rcases List.mem_or_eq_of_mem_set hHandle with hOld | rfl
                · exact Or.inr ⟨handle, hOld, hTables⟩
                · cases hTables
  rcases hOrigin with rfl | ⟨old, hOld, hRead⟩
  · exact hKept
  · exact (h old hOld tables hRead).trans hKept

/-! ### Winners and losers -/

/-- A new boot moves the work that it finds, and expires it. -/
theorem Drives.of_startBoot {deviceIdBytes : ByteArr 16} {snapshots : Snapshots}
    {before : Tables} {bootEpoch : UInt64} {signer : BrokerSigningKey}
    {nowUtc : Int64} {entropy : Nat → Entropy} {source target : RequestState}
    {reason : TransitionReason}
    (h : Drives deviceIdBytes snapshots before requestId
      (.startBoot bootEpoch signer nowUtc entropy) source target reason) :
    source ∈ [RequestState.planning, .pending, .approved] ∧ target = .expired ∧
      (Call.startBoot bootEpoch signer nowUtc entropy).Concerns requestId before := by
  cases h with
  | booted _ _ _ _ _ hSource hWork => exact ⟨hSource, rfl, hWork⟩

/-- A call that contends moves a request that is pending. -/
theorem Contends.source_pending {deviceIdBytes : ByteArr 16} {snapshots : Snapshots}
    {tables : Tables} {call : Call} {row : RequestRow} {target : RequestState}
    {reason : TransitionReason} (h : Contends requestId tables call)
    (hRow : tables.request? requestId = some row)
    (hDrives : Drives deviceIdBytes snapshots tables requestId call row.state target
      reason) : row.state = .pending := by
  generalize hSource : row.state = source at hDrives
  cases h with
  | decision attempt signer entropy hRequest => cases hDrives <;> rfl
  | closing next hNext signer nowUtc entropy =>
      cases hDrives
      rfl
  | boot bootEpoch signer nowUtc entropy hWork hPending =>
      rw [requestState, hRow, Option.map_some, Option.some.injEq] at hPending
      exact hSource.symm.trans hPending

/-- A call that contends and succeeds takes the request out of its pending
state. -/
theorem Contends.wins {index : Nat} {handle : Handle} {call : Call}
    {result : ByteArr 16} {after : Database}
    (h : Contends requestId shared.database.toTables call)
    (hHandle : shared.handles[index]? = some handle)
    (hDone : shared.perform handle call = .ok (result, after)) :
    LeavesPending requestId shared (.call index call) := by
  have hAfter : (shared.step (.call index call)).database = after := by
    rw [SharedStore.step_call hHandle, hDone]
  cases Call.effect hDone requestId with
  | kept _ hSpared => exact absurd h.concerns hSpared
  | created request policy generation hCall =>
      rw [hCall] at h
      cases h
  | moved old new reason hMoved hDrives =>
      have hRow : shared.database.request? requestId = some old := hMoved.rowBefore
      have hNew : after.request? requestId = some new := hMoved.rowAfter
      have hPending := h.source_pending hRow hDrives
      have hRank := hDrives.rank_lt
      refine ⟨?_, ?_⟩
      · rw [requestState, hRow, Option.map_some, hPending]
      · rw [hAfter, requestState, hNew, Option.map_some, ne_eq, Option.some.injEq]
        intro hSame
        rw [hPending, hSame] at hRank
        exact Nat.lt_irrefl _ hRank

/-- A decision is committed under the generation of its request. -/
theorem Contends.decided_generation {handle : Handle} {call : Call} {row : RequestRow}
    {target : RequestState} {reason : TransitionReason}
    (h : Contends requestId shared.database.toTables call)
    (hReads : ReadsEarlier requestId shared) (hHandle : handle ∈ shared.handles)
    (hRow : shared.database.request? requestId = some row)
    (hDrives : Drives handle.deviceIdBytes
      (handle.snapshots shared.database.toTables) shared.database.toTables requestId
      call row.state target reason)
    (hTarget : target = .approved ∨ target = .denied) :
    row.generation = shared.database.brokerMetadata.credentialGeneration := by
  generalize hSource : row.state = source at hDrives
  cases h with
  | decision attempt signer entropy hRequest =>
      cases hDrives with
      | lapsed _ _ _ _ _ hLapsed =>
          rcases hLapsed with rfl | rfl <;> rcases hTarget with h | h <;> cases h
      | decided _ _ _ _ context verified hRead hGeneration =>
          subst hRequest
          obtain ⟨hContext, -⟩ := DecisionAttempt.read_decided hRead
          have hOld := generation_of_context (Kept.read hReads hHandle) hContext hRow
          -- The transaction compares the active generation with the one it read.
          rw [credentialGeneration, orFault_eq_ok_iff, toU64?_eq_some_iff]
            at hGeneration
          exact Int64.toInt_inj.mp (hOld.symm.trans hGeneration)
  | closing next hNext signer nowUtc entropy =>
      cases hDrives
      rcases hTarget with rfl | rfl <;> exact absurd hNext (by decide)
  | boot bootEpoch signer nowUtc entropy hWork hPending =>
      cases hDrives
      rcases hTarget with h | h <;> cases h

/-- A call that contends and does not move the request is refused, and the database
stays as it was. -/
theorem Contends.loses {index : Nat} {handle : Handle} {call : Call}
    (h : Contends requestId shared.database.toTables call)
    (hHandle : shared.handles[index]? = some handle)
    (hLost : ¬ LeavesPending requestId shared (.call index call)) :
    (∃ fault, shared.perform handle call = .error fault) ∧
      (shared.step (.call index call)).database = shared.database := by
  cases hOutcome : shared.perform handle call with
  | ok outcome => exact absurd (h.wins hHandle hOutcome) hLost
  | error fault =>
      refine ⟨⟨fault, rfl⟩, ?_⟩
      rw [SharedStore.step_call hHandle, hOutcome]

/-- A call that contends and commits a decision found the request pending, under
the active generation. -/
theorem Contends.commits {index : Nat} {call : Call} {state : RequestState}
    (h : Contends requestId shared.database.toTables call)
    (hReads : ReadsEarlier requestId shared)
    (hBefore : requestState requestId shared.database.toTables ≠ some state)
    (hAfter : requestState requestId
      (shared.step (.call index call)).database.toTables = some state)
    (hState : state = .approved ∨ state = .denied) :
    ∃ row, shared.database.request? requestId = some row ∧ row.state = .pending ∧
      row.generation = shared.database.brokerMetadata.credentialGeneration := by
  rcases shared.step_database (.call index call) with hSame | hDone
  · rw [hSame] at hAfter
    exact absurd hAfter hBefore
  obtain ⟨_, handle, _, result, hCall, hHandle, hDone⟩ := hDone
  cases hCall
  cases Call.effect hDone requestId with
  | kept _ hSpared => exact absurd h.concerns hSpared
  | created request policy generation hCall =>
      rw [hCall] at h
      cases h
  | moved old new reason hMoved hDrives =>
      have hRow : shared.database.request? requestId = some old := hMoved.rowBefore
      obtain ⟨found, hFound, hNew⟩ := requestState_eq_some_iff.mp hAfter
      have hSame : new = found := Option.some.inj (hMoved.rowAfter.symm.trans hFound)
      rw [← hNew, ← hSame] at hState
      exact ⟨old, hRow, h.source_pending hRow hDrives,
        h.decided_generation hReads (List.mem_of_getElem? hHandle) hRow hDrives
          hState⟩

/-- A new boot that finds the request out of its pending state leaves it alone, or
expires it as planned or approved work. -/
theorem boot_not_contending {index : Nat} {bootEpoch : UInt64}
    {signer : BrokerSigningKey} {nowUtc : Int64} {entropy : Nat → Entropy}
    (h : ¬ Contends requestId shared.database.toTables
      (.startBoot bootEpoch signer nowUtc entropy)) :
    (shared.step (.call index (.startBoot bootEpoch signer nowUtc
        entropy))).database.dossier requestId = shared.database.dossier requestId ∨
      (∃ state ∈ [RequestState.planning, .approved],
        requestState requestId shared.database.toTables = some state) ∧
        requestState requestId (shared.step (.call index (.startBoot bootEpoch signer
          nowUtc entropy))).database.toTables = some .expired := by
  rcases shared.step_database
    (.call index (.startBoot bootEpoch signer nowUtc entropy)) with hSame | hDone
  · rw [hSame]
    exact Or.inl rfl
  obtain ⟨_, handle, _, result, hCall, hHandle, hDone⟩ := hDone
  cases hCall
  cases Call.effect hDone requestId with
  | kept hKept _ => exact Or.inl hKept
  | created request policy generation hCall => cases hCall
  | moved old new reason hMoved hDrives =>
      obtain ⟨hSource, hExpired, hWork⟩ := hDrives.of_startBoot
      refine Or.inr ⟨⟨old.state, ?_, ?_⟩, ?_⟩
      · have hOpen : old.state ≠ .pending := by
          intro hPending
          apply h
          exact .boot bootEpoch signer nowUtc entropy hWork
            (requestState_eq_some_iff.mpr ⟨old, hMoved.rowBefore, hPending⟩)
        rcases List.mem_cons.mp hSource with hState | hRest
        · exact hState ▸ List.mem_cons_self
        · exact List.mem_cons_of_mem _ (List.mem_of_ne_of_mem hOpen hRest)
      · exact requestState_eq_some_iff.mpr ⟨old, hMoved.rowBefore, rfl⟩
      · exact requestState_eq_some_iff.mpr ⟨new, hMoved.rowAfter, hExpired⟩

theorem FairRace.of_reads (hReads : ReadsEarlier requestId shared) (act : Act) :
    FairRace requestId shared act := by
  refine ⟨?_, ?_, ?_⟩
  · rintro index handle call rfl hHandle hContends hLost
    exact hContends.loses hHandle hLost
  · rintro index call state rfl hContends hBefore hAfter hState
    exact hContends.commits hReads hBefore hAfter hState
  · rintro index bootEpoch signer nowUtc entropy rfl hContends
    exact boot_not_contending hContends

/-- One durable winner: whatever the handles of a database do, a request leaves its
pending state at most once, every other call that tries to move it fails without a
change, and a decision is committed only while its generation is the active one. -/
theorem one_durable_winner (acts : List Act) (requestId : PublicId) :
    AtMostOnce SharedStore.step SharedStore.empty acts (LeavesPending requestId) ∧
      Throughout SharedStore.step SharedStore.empty acts (FairRace requestId) := by
  refine ⟨?_, ?_⟩
  · exact atMostOnce_of_settled LeavesPending.pastPending PastPending.step
      PastPending.not_leavesPending SharedStore.empty acts
  · intro earlier act later _
    apply FairRace.of_reads
    apply run_invariant _ ReadsEarlier.step earlier
    intro handle hHandle
    cases hHandle

end Acts

end Broker
end RootPermit
