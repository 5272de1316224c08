import RootPermit.Broker.Calls

/-!
# What the database holds about one request

The row of a request, its events and its receipts form its dossier.  The parts of
the store's transactions change the tables in four ways: they modify the row of a
request and append a row to one of three tables.  This module says what each way
does to every dossier, and which of them a successful part of a transaction takes.

* `transition_eq_ok` — a compare-and-set with the event that records it;
* `createReceipt_eq_ok` — the receipt of a terminal state.
-/

namespace RootPermit
namespace Broker

open Foundation Protocol

structure Dossier where
  row : Option RequestRow
  events : List EventRow
  receipts : List ReceiptRow

namespace Tables

def dossier (tables : Tables) (requestId : PublicId) : Dossier where
  row := tables.request? requestId
  events := tables.eventsOf requestId
  receipts := tables.receiptsOf requestId

/-! ### Changes of the tables -/

def modifyRequest (tables : Tables) (requestId : PublicId)
    (change : RequestRow → RequestRow) : Tables :=
  { tables with
    requests := Table.update
      (Table.at? RequestRow.requestId requestId.asStr fun _ => true) change
      tables.requests }

def addRequest (tables : Tables) (row : RequestRow) : Tables :=
  { tables with requests := tables.requests ++ [row] }

def addEvent (tables : Tables) (row : EventRow) : Tables :=
  { tables with requestEvents := tables.requestEvents ++ [row] }

def addReceipt (tables : Tables) (row : ReceiptRow) : Tables :=
  { tables with receipts := tables.receipts ++ [row] }

variable {tables : Tables} {requestId other : PublicId}

theorem request?_modifyRequest {change : RequestRow → RequestRow}
    (hChange : ∀ row, (change row).requestId = row.requestId) :
    (tables.modifyRequest requestId change).request? other =
      (tables.request? other).map fun row =>
        if row.requestId = requestId.asStr then change row else row := by
  unfold request? modifyRequest
  rw [Table.lookup_update hChange]
  simp [Table.at?]

theorem dossier_modifyRequest_self {change : RequestRow → RequestRow}
    (hChange : ∀ row, (change row).requestId = row.requestId) :
    (tables.modifyRequest requestId change).dossier requestId =
      { tables.dossier requestId with
        row := (tables.dossier requestId).row.map change } := by
  have hNew : (tables.modifyRequest requestId change).request? requestId =
      (tables.request? requestId).map change := by
    rw [request?_modifyRequest hChange]
    cases hRow : tables.request? requestId with
    | none => rfl
    | some row =>
        have hId : row.requestId = requestId.asStr := Table.column_of_lookup hRow
        rw [Option.map_some, if_pos hId, Option.map_some]
  unfold dossier
  rw [hNew]
  rfl

theorem dossier_modifyRequest_of_ne {change : RequestRow → RequestRow}
    (hChange : ∀ row, (change row).requestId = row.requestId)
    (hOther : other ≠ requestId) :
    (tables.modifyRequest requestId change).dossier other = tables.dossier other := by
  have hSame : (tables.modifyRequest requestId change).request? other =
      tables.request? other := by
    rw [request?_modifyRequest hChange]
    cases hRow : tables.request? other with
    | none => rfl
    | some row =>
        have hId : row.requestId = other.asStr := Table.column_of_lookup hRow
        have hNe : row.requestId ≠ requestId.asStr := by
          rw [hId]
          intro hText
          exact hOther (PublicId.ext_iff'.mpr hText)
        rw [Option.map_some, if_neg hNe]
  unfold dossier
  rw [hSame]
  rfl

theorem dossier_addEvent {row : EventRow} (hRow : row.requestId = requestId.asStr) :
    (tables.addEvent row).dossier other =
      if other = requestId then
        { tables.dossier other with events := tables.eventsOf other ++ [row] }
      else tables.dossier other := by
  have hEvents : (tables.addEvent row).eventsOf other =
      tables.eventsOf other ++ if other = requestId then [row] else [] := by
    unfold eventsOf addEvent
    rw [Table.select_append, hRow]
    simp [PublicId.ext_iff', eq_comm]
  by_cases hOther : other = requestId
  · rw [if_pos hOther] at hEvents ⊢
    unfold dossier
    rw [hEvents]
    rfl
  · rw [if_neg hOther, List.append_nil] at hEvents
    rw [if_neg hOther]
    unfold dossier
    rw [hEvents]
    rfl

theorem dossier_addReceipt {row : ReceiptRow}
    (hRow : row.requestId = requestId.asStr) :
    (tables.addReceipt row).dossier other =
      if other = requestId then
        { tables.dossier other with receipts := tables.receiptsOf other ++ [row] }
      else tables.dossier other := by
  have hReceipts : (tables.addReceipt row).receiptsOf other =
      tables.receiptsOf other ++ if other = requestId then [row] else [] := by
    unfold receiptsOf addReceipt
    rw [Table.select_append, hRow]
    simp [PublicId.ext_iff', eq_comm]
  by_cases hOther : other = requestId
  · rw [if_pos hOther] at hReceipts ⊢
    unfold dossier
    rw [hReceipts]
    rfl
  · rw [if_neg hOther, List.append_nil] at hReceipts
    rw [if_neg hOther]
    unfold dossier
    rw [hReceipts]
    rfl

theorem receiptsOf_addReceipt {row : ReceiptRow}
    (hRow : row.requestId = requestId.asStr) :
    (tables.addReceipt row).receiptsOf requestId =
      tables.receiptsOf requestId ++ [row] := by
  have hDossier : (tables.addReceipt row).dossier requestId =
      { tables.dossier requestId with
        receipts := tables.receiptsOf requestId ++ [row] } := by
    rw [dossier_addReceipt hRow, if_pos rfl]
  exact congrArg Dossier.receipts hDossier

theorem dossier_addRequest {row : RequestRow}
    (hRow : row.requestId = requestId.asStr)
    (hAbsent : tables.request? requestId = none) :
    (tables.addRequest row).dossier other =
      if other = requestId then { tables.dossier other with row := some row }
      else tables.dossier other := by
  have hLookup : (tables.addRequest row).request? other =
      (tables.request? other).or (if other = requestId then some row else none) := by
    unfold request? addRequest
    rw [Table.lookup_append, hRow]
    simp [PublicId.ext_iff', eq_comm]
  by_cases hOther : other = requestId
  · rw [if_pos hOther, hOther, hAbsent, Option.none_or] at hLookup
    rw [if_pos hOther, hOther]
    unfold dossier
    rw [hLookup]
    rfl
  · rw [if_neg hOther, Option.or_none] at hLookup
    rw [if_neg hOther]
    unfold dossier
    rw [hLookup]
    rfl

end Tables

/-! ### Parts of transactions -/

theorem updateRequest_eq_ok_iff {requestId : PublicId}
    {change : RequestRow → RequestRow} {before after : Database} {result : Unit} :
    updateRequest requestId change before = .ok (result, after) ↔
      after.toTables = before.toTables.modifyRequest requestId change :=
  execute_eq_ok_iff

theorem ensureIdentity_eq_ok_iff [Cryptography] {signer : BrokerSigningKey}
    {before after : Database} {result : Unit} :
    ensureIdentity signer before = .ok (result, after) ↔
      (∃ row, before.brokerIdentity = some row ∧ row.Names signer) ∧
        before = after := by
  rw [ensureIdentity, query_eq_ok_iff]
  cases hIdentity : before.brokerIdentity with
  | none => simp
  | some row => simp

/-- A compare-and-set succeeds exactly when the request has the expected state. -/
theorem setState_eq_ok_iff {requestId : PublicId} {expected : Option RequestState}
    {next : RequestState} {before after : Database} {result : Unit} :
    setState requestId expected next before = .ok (result, after) ↔
      ∃ row, before.request? requestId = some row ∧
        (∀ state ∈ expected, row.state = state) ∧
        after.toTables = before.toTables.modifyRequest requestId
          fun row => { row with state := next } := by
  have hKey := before.constraints.requestKey
  have hGuard : ∀ row : RequestRow,
      (expected.all fun state => decide (row.state = state)) = true ↔
        ∀ state ∈ expected, row.state = state := by
    intro row
    cases expected with
    | none => simp
    | some state => simp
  simp only [setState, run_bind_eq_ok_iff, query_eq_ok_iff, execute_eq_ok_iff,
    attempt_eq_ok_iff, rejectIf_eq_ok_iff, Except.ok.injEq, not_not]
  constructor
  · intro h
    obtain ⟨_, _, ⟨rfl, rfl⟩, _, _, hAfter, _, _, ⟨-, rfl⟩, hCount, rfl⟩ := h
    obtain ⟨row, hRow, hState⟩ := (Table.count_at_eq_one_iff hKey).mp hCount
    refine ⟨row, hRow, (hGuard row).mp hState, ?_⟩
    rw [hAfter, Table.update_at_of_guard hKey hRow hState]
    rfl
  · intro h
    obtain ⟨row, hRow, hState, hAfter⟩ := h
    have hPassed := (hGuard row).mpr hState
    refine ⟨_, _, ⟨rfl, rfl⟩, (), after, ?_, _, _, ⟨rfl, rfl⟩, ?_, rfl⟩
    · rw [hAfter, Table.update_at_of_guard hKey hRow hPassed]
      rfl
    · exact (Table.count_at_eq_one_iff hKey).mpr ⟨row, hRow, hPassed⟩

/-- The row of an event. -/
def LifecycleEvent.toRow (requestId : PublicId) (event : LifecycleEvent) :
    EventRow where
  requestId := requestId.asStr
  sequence := Int64.ofNat event.sequence.toNat
  state := event.state.asDb
  reason := event.reason.asDb
  previousEventDigest := event.previousEventDigest.map Subtype.val
  eventDigest := event.eventDigest.val

/-- The event of a transition that comes after the latest of `events`. -/
structure NextEvent [Cryptography] (requestId : PublicId) (next : RequestState)
    (reason : TransitionReason) (events : List EventRow) (event : LifecycleEvent) :
    Prop where
  latest : ∃ latest, latestRow events = some latest ∧
    (event.sequence.toNat : Int) = latest.sequence.toInt + 1 ∧
    event.previousEventDigest.map Subtype.val = some latest.eventDigest
  state : event.state = next
  reason : event.reason = reason
  digest : event.eventDigest = lifecycleEventDigest requestId event.sequence
    event.previousEventDigest event.state event.reason
  fits : event.sequence.toNat < 2 ^ 63

/-- Both ways of counting add one to every sequence that fits its column. -/
def CountsByOne (advance : UInt64 → Option UInt64) : Prop :=
  ∀ current sequence, current.toNat < 2 ^ 63 → advance current = some sequence →
    sequence.toNat = current.toNat + 1

theorem checkedSucc_countsByOne : CountsByOne checkedSucc := by
  intro current sequence _ h
  exact toNat_of_checkedSucc h

theorem saturatingSucc_countsByOne :
    CountsByOne fun sequence => some (saturatingSucc sequence) := by
  intro current sequence hCurrent h
  rw [Option.some.injEq] at h
  rw [← h]
  apply toNat_saturatingSucc
  omega

theorem insertEvent_eq_ok [Cryptography] {requestId : PublicId}
    {next : RequestState} {reason : TransitionReason}
    {advance : UInt64 → Option UInt64} (hAdvance : CountsByOne advance)
    {before after : Database} {result : Unit}
    (h : insertEvent requestId next reason advance before = .ok (result, after)) :
    ∃ event, NextEvent requestId next reason (before.eventsOf requestId) event ∧
      after.toTables = before.toTables.addEvent (event.toRow requestId) := by
  simp only [insertEvent, run_bind_eq_ok_iff, query_eq_ok_iff, execute_eq_ok_iff,
    attempt_eq_ok_iff, latestEvent, orFault_eq_ok_iff, toU64?_eq_some_iff,
    toI64?_eq_some_iff, ByteArr.ofBytes?_eq_some_iff] at h
  obtain ⟨latest, _, ⟨hLatest, rfl⟩, current, _, ⟨hCurrent, rfl⟩, sequence, _,
    ⟨hSequence, rfl⟩, previous, _, ⟨hPrevious, rfl⟩, stored, _, ⟨hStored, rfl⟩,
    hAfter⟩ := h
  have hHigh : latest.sequence.toInt < 2 ^ 63 := latest.sequence.toInt_lt
  have hCount := hAdvance current sequence (by omega) hSequence
  have hFits : (sequence.toNat : Int) < 2 ^ 63 := by
    rw [← hStored]
    exact stored.toInt_lt
  let event : LifecycleEvent :=
    { sequence, reason
      previousEventDigest := some previous
      state := next
      eventDigest :=
        lifecycleEventDigest requestId sequence (some previous) next reason }
  refine ⟨event, ⟨⟨latest, hLatest, ?_, ?_⟩, rfl, rfl, rfl, ?_⟩, ?_⟩
  · show (sequence.toNat : Int) = latest.sequence.toInt + 1
    omega
  · show some previous.val = some latest.eventDigest
    rw [hPrevious]
  · show sequence.toNat < 2 ^ 63
    omega
  · have hColumn : stored = Int64.ofNat sequence.toNat := by
      rw [← Int64.ofInt_toInt stored, hStored]
      rfl
    rw [hAfter, hColumn]
    rfl

/-- The tables after a transition: a new state and its event. -/
def Tables.advance (tables : Tables) (requestId : PublicId) (next : RequestState)
    (event : LifecycleEvent) : Tables :=
  (tables.modifyRequest requestId fun row => { row with state := next }).addEvent
    (event.toRow requestId)

theorem Tables.dossier_advance {tables : Tables} {requestId other : PublicId}
    {next : RequestState} {event : LifecycleEvent} {row : RequestRow}
    (hRow : tables.request? requestId = some row) :
    (tables.advance requestId next event).dossier other =
      if other = requestId then
        { row := some { row with state := next }
          events := tables.eventsOf requestId ++ [event.toRow requestId]
          receipts := tables.receiptsOf requestId }
      else tables.dossier other := by
  unfold Tables.advance
  rw [Tables.dossier_addEvent rfl]
  by_cases hOther : other = requestId
  · rw [if_pos hOther, if_pos hOther, hOther,
      Tables.dossier_modifyRequest_self (by simp)]
    unfold Tables.dossier
    rw [hRow]
    rfl
  · rw [if_neg hOther, if_neg hOther,
      Tables.dossier_modifyRequest_of_ne (by simp) hOther]

/-- A compare-and-set followed by its event. -/
theorem transition_eq_ok [Cryptography] {requestId : PublicId}
    {expected : Option RequestState} {next : RequestState}
    {reason : TransitionReason} {advance : UInt64 → Option UInt64}
    (hAdvance : CountsByOne advance) {before between after : Database}
    {first second : Unit}
    (hSet : setState requestId expected next before = .ok (first, between))
    (hInsert : insertEvent requestId next reason advance between =
      .ok (second, after)) :
    ∃ row event, before.request? requestId = some row ∧
      (∀ state ∈ expected, row.state = state) ∧
      NextEvent requestId next reason (before.eventsOf requestId) event ∧
      after.toTables = before.toTables.advance requestId next event := by
  obtain ⟨row, hRow, hState, hBetween⟩ := setState_eq_ok_iff.mp hSet
  obtain ⟨event, hEvent, hAfter⟩ := insertEvent_eq_ok hAdvance hInsert
  rw [hBetween] at hEvent hAfter
  exact ⟨row, event, hRow, hState, hEvent, hAfter⟩

theorem appendTransition_eq_ok [Cryptography] {requestId : PublicId}
    {expected : Option RequestState} {next : RequestState}
    {reason : TransitionReason} {before after : Database} {result : Unit}
    (h : appendTransition requestId expected next reason before =
      .ok (result, after)) :
    ∃ row event, before.request? requestId = some row ∧
      (∀ state ∈ expected, row.state = state) ∧
      NextEvent requestId next reason (before.eventsOf requestId) event ∧
      after.toTables = before.toTables.advance requestId next event := by
  rw [appendTransition, run_bind_eq_ok_iff] at h
  obtain ⟨_, between, hSet, hInsert⟩ := h
  exact transition_eq_ok checkedSucc_countsByOne hSet hInsert

/-! ### Receipts -/

/-- The row is the receipt of a request that is closed in state `state`: its bytes
are the signed envelope of the receipt that the row of the request determines. -/
structure ReceiptMade [Cryptography] (signer : BrokerSigningKey)
    (requestId : PublicId) (state : RequestState) (nowUtc : Int64)
    (authorizationEvidence : List CborValue) (row : RequestRow)
    (metadata : MetadataRow) (made : ReceiptRow) : Prop where
  contents : ∃ receiptId receipt payload,
    made.receiptId = receiptId.asStr ∧
    receiptOf receiptId requestId row metadata state nowUtc authorizationEvidence =
      .ok receipt ∧
    receipt.canonicalBytes = .ok payload ∧
    signEnvelope signer payload COSE_CONTENT_TYPE_RECEIPT .receipt =
      .ok made.coseBytes
  requestId : made.requestId = requestId.asStr
  requesterUid : made.requesterUid = row.requesterUid
  terminalState : made.terminalState = state.asDb
  createdUtc : made.createdUtc = row.createdUtc
  completedUtc : made.completedUtc = nowUtc

theorem setReceiptBytes_eq_ok_iff {requestId : PublicId} {cose : Bytes}
    {before after : Database} {result : Unit} :
    setReceiptBytes requestId cose before = .ok (result, after) ↔
      (∀ row, before.request? requestId = some row → row.receiptBytes = none) ∧
        after.toTables = before.toTables.modifyRequest requestId
          fun row => { row with receiptBytes := some cose } := by
  simp only [setReceiptBytes, run_bind_eq_ok_iff, query_eq_ok_iff,
    attempt_eq_ok_iff, rejectIf_eq_ok_iff, updateRequest_eq_ok_iff,
    Except.ok.injEq]
  constructor
  · intro h
    obtain ⟨_, _, ⟨rfl, rfl⟩, _, _, ⟨hUnset, rfl⟩, hAfter⟩ := h
    refine ⟨?_, hAfter⟩
    intro row hRow
    cases hBytes : row.receiptBytes with
    | none => rfl
    | some bytes =>
        refine absurd ⟨row, hRow, ?_⟩ hUnset
        rw [hBytes]
        rfl
  · intro h
    obtain ⟨hUnset, hAfter⟩ := h
    refine ⟨_, _, ⟨rfl, rfl⟩, (), _, ⟨?_, rfl⟩, hAfter⟩
    intro hSet
    obtain ⟨row, hRow, hBytes⟩ := hSet
    rw [hUnset row hRow] at hBytes
    cases hBytes

/-- The tables after a receipt was made. -/
def Tables.close (tables : Tables) (requestId : PublicId) (made : ReceiptRow) :
    Tables :=
  (tables.addReceipt made).modifyRequest requestId
    fun row => { row with receiptBytes := some made.coseBytes }

theorem Tables.dossier_close {tables : Tables} {requestId other : PublicId}
    {made : ReceiptRow} {row : RequestRow}
    (hMade : made.requestId = requestId.asStr)
    (hRow : tables.request? requestId = some row) :
    (tables.close requestId made).dossier other =
      if other = requestId then
        { row := some { row with receiptBytes := some made.coseBytes }
          events := tables.eventsOf requestId
          receipts := tables.receiptsOf requestId ++ [made] }
      else tables.dossier other := by
  unfold Tables.close
  by_cases hOther : other = requestId
  · rw [if_pos hOther, hOther, Tables.dossier_modifyRequest_self (by simp),
      Tables.dossier_addReceipt hMade, if_pos rfl]
    unfold Tables.dossier
    rw [hRow]
    rfl
  · rw [if_neg hOther, Tables.dossier_modifyRequest_of_ne (by simp) hOther,
      Tables.dossier_addReceipt hMade, if_neg hOther]

/-- A receipt is appended and copied into the row of its request, which had
none. -/
theorem createReceipt_eq_ok [Cryptography] {requestId : PublicId}
    {state : RequestState} {signer : BrokerSigningKey} {nowUtc : Int64}
    {evidence : List CborValue} {entropy : Entropy} {before after : Database}
    {result : Bytes}
    (h : createReceipt requestId state signer nowUtc evidence entropy before =
      .ok (result, after)) :
    ∃ row made, before.request? requestId = some row ∧ row.receiptBytes = none ∧
      ReceiptMade signer requestId state nowUtc evidence row before.brokerMetadata
        made ∧
      before.receiptsOf requestId = [] ∧ result = made.coseBytes ∧
      after.toTables = before.toTables.close requestId made := by
  simp only [createReceipt, run_bind_eq_ok_iff, query_eq_ok_iff, execute_eq_ok_iff,
    attempt_eq_ok_iff, requestRow, orFault_eq_ok_iff, mapError_eq_ok_iff,
    setReceiptBytes_eq_ok_iff, run_pure_eq_ok_iff, Except.ok.injEq] at h
  obtain ⟨receiptId, _, ⟨-, rfl⟩, row, _, ⟨hRow, rfl⟩, _, _, ⟨rfl, rfl⟩, receipt, _,
    ⟨hReceipt, rfl⟩, payload, _, ⟨hPayload, rfl⟩, cose, _, ⟨hCose, rfl⟩, _,
    between, hInsert, stored, _, ⟨hStored, rfl⟩, _, _, ⟨hUnset, hAfter⟩, rfl, rfl⟩ := h
  let made : ReceiptRow :=
    { receiptId := receiptId.asStr
      requestId := requestId.asStr
      requesterUid := row.requesterUid
      terminalState := state.asDb
      coseBytes := cose
      createdUtc := row.createdUtc
      completedUtc := nowUtc }
  -- The new row is the only receipt of the request, so it is the one read back.
  have hReceipts : between.receiptsOf requestId =
      before.receiptsOf requestId ++ [made] := by
    rw [hInsert]
    unfold Tables.receiptsOf
    rw [Table.select_append, if_pos rfl]
  have hOnly : between.receiptsOf requestId = [made] := by
    apply Table.select_eq_of_mem between.constraints.receiptRequest
    show made ∈ between.receiptsOf requestId
    rw [hReceipts]
    exact List.mem_append_right _ List.mem_cons_self
  have hSame : stored = made := by
    rw [hOnly, List.head?_cons, Option.some.injEq] at hStored
    exact hStored.symm
  refine ⟨row, made, hRow, ?_, ⟨⟨receiptId, receipt, payload, rfl, hReceipt,
    hPayload, hCose⟩, rfl, rfl, rfl, rfl, rfl⟩, ?_, by rw [hSame], ?_⟩
  · apply hUnset row
    rw [hInsert]
    exact hRow
  · rw [hOnly] at hReceipts
    exact List.append_left_eq_self.mp hReceipts.symm
  · rw [hAfter, hInsert, hSame]
    rfl

end Broker
end RootPermit
