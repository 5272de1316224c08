import RootPermit.Broker.Soundness
import RootPermit.Protocol.CborSize

/-!
# When the parts of a transaction succeed

The checks of the schema and the errors of the store leave few ways for a transition
or a receipt to fail once the request is open and its chain is intact.  This module
says which.

* `appendTransition_ok` — a transition of an open request is recorded;
* `createReceipt_succeeds_iff` — its receipt is made exactly when the clock has not
  gone back behind the creation time of the request;
* `closing_succeeds_iff` — the two together, which is how a request is closed;
* `OpenRequest.of_run` — what holds of the open requests of every reachable store.
-/

namespace RootPermit
namespace Broker

open Foundation Protocol

/-- The computation ends in some result and some database. -/
def Succeeds {α : Type} (transaction : Tx α) (before : Database) : Prop :=
  ∃ result after, transaction before = .ok (result, after)

theorem execute_ok {change : Tables → Tables} {before : Database}
    (h : Constraints (change before.toTables)) :
    ∃ after, execute change before = .ok ((), after) ∧
      after.toTables = change before.toTables := by
  refine ⟨{ toTables := change before.toTables, constraints := h }, ?_, rfl⟩
  unfold execute
  rw [dif_pos h]

/-! ### Constraints after a change -/

section Constraints

variable {tables : Tables} {requestId : PublicId}

theorem Constraints.modifyRequest {change : RequestRow → RequestRow}
    (h : Constraints tables) (hSame : ∀ row, SameSubmission row (change row))
    (hChecked : ∀ row, tables.request? requestId = some row → (change row).Checked)
    (hActive : ∀ row, tables.request? requestId = some row →
      (change row).state ∈ ACTIVE_STATES → row.state ∈ ACTIVE_STATES) :
    Constraints (tables.modifyRequest requestId change) := by
  let condition := Table.at? RequestRow.requestId requestId.asStr fun _ => true
  have hFound : ∀ row ∈ tables.requests, condition row = true →
      tables.request? requestId = some row := by
    intro row hRow hCondition
    refine (Table.lookup_eq_some_iff h.requestKey).mpr ⟨hRow, ?_⟩
    simpa [condition, Table.at?] using hCondition
  have hIds : (Table.update condition change tables.requests).map
      RequestRow.requestId = tables.requests.map RequestRow.requestId :=
    Table.map_update fun row => (hSame row).requestId
  have hKeys : (Table.update condition change tables.requests).map
      (fun row => (row.requesterUid, row.operationKey)) =
        tables.requests.map fun row => (row.requesterUid, row.operationKey) :=
    Table.map_update fun row =>
      Prod.ext (hSame row).requesterUid (hSame row).operationKey
  -- A row that holds a slot held it before the change.
  have hSlots : (((Table.update condition change tables.requests).filter fun row =>
      decide (row.state ∈ ACTIVE_STATES)).map RequestRow.deviceId).Sublist
        ((tables.requests.filter fun row =>
          decide (row.state ∈ ACTIVE_STATES)).map RequestRow.deviceId) := by
    apply Table.map_filter_update_sublist fun row => (hSame row).deviceId
    intro row hRow hCondition hState
    have hBefore := hActive row (hFound row hRow hCondition) (of_decide_eq_true hState)
    exact decide_eq_true hBefore
  exact {
    h with
    requestKey := (congrArg List.Nodup hIds).mpr h.requestKey
    requestsIdempotency := (congrArg List.Nodup hKeys).mpr h.requestsIdempotency
    requestsOneActivePerDevice := hSlots.nodup h.requestsOneActivePerDevice
    requestChecks := by
      intro row hRow
      obtain ⟨original, hOriginal, rfl⟩ := List.mem_map.mp hRow
      split
      · rename_i hCondition
        exact hChecked original (hFound original hOriginal hCondition)
      · exact h.requestChecks original hOriginal
    eventReferences := by
      intro row hRow
      show row.requestId ∈ (Table.update condition change tables.requests).map _
      rw [hIds]
      exact h.eventReferences row hRow
    receiptReferences := by
      intro row hRow
      show row.requestId ∈ (Table.update condition change tables.requests).map _
      rw [hIds]
      exact h.receiptReferences row hRow }

theorem Constraints.addEvent {row : EventRow} (h : Constraints tables)
    (hReference : row.requestId ∈ tables.requests.map RequestRow.requestId)
    (hFresh : ∀ other ∈ tables.requestEvents, other.requestId = row.requestId →
      other.sequence ≠ row.sequence) (hChecked : row.Checked) :
    Constraints (tables.addEvent row) :=
  { h with
    eventKey := by
      refine Table.keyed_append_iff.mpr ⟨h.eventKey, ?_⟩
      intro other hOther hSame
      rw [Prod.mk.injEq] at hSame
      exact hFresh other hOther hSame.1 hSame.2
    eventReferences := List.forall_mem_append.mpr
      ⟨h.eventReferences, List.forall_mem_singleton.mpr hReference⟩
    eventChecks := List.forall_mem_append.mpr
      ⟨h.eventChecks, List.forall_mem_singleton.mpr hChecked⟩ }

theorem Constraints.addReceipt {row : ReceiptRow} (h : Constraints tables)
    (hReference : row.requestId ∈ tables.requests.map RequestRow.requestId)
    (hFresh : ∀ other ∈ tables.receipts, other.receiptId ≠ row.receiptId)
    (hFirst : ∀ other ∈ tables.receipts, other.requestId ≠ row.requestId)
    (hUid : 0 ≤ row.requesterUid) : Constraints (tables.addReceipt row) :=
  { h with
    receiptKey := Table.keyed_append_iff.mpr ⟨h.receiptKey, hFresh⟩
    receiptRequest := Table.keyed_append_iff.mpr ⟨h.receiptRequest, hFirst⟩
    receiptReferences := List.forall_mem_append.mpr
      ⟨h.receiptReferences, List.forall_mem_singleton.mpr hReference⟩
    receiptChecks := List.forall_mem_append.mpr
      ⟨h.receiptChecks, List.forall_mem_singleton.mpr hUid⟩ }

theorem Database.checked_of_request? {database : Database} {row : RequestRow}
    (h : database.request? requestId = some row) : row.Checked :=
  database.constraints.requestChecks row (Table.mem_of_lookup h)

theorem Database.mem_requestIds {database : Database} {row : RequestRow}
    (h : database.request? requestId = some row) :
    requestId.asStr ∈ database.requests.map RequestRow.requestId :=
  Table.column_of_lookup h ▸ List.mem_map_of_mem (Table.mem_of_lookup h)

end Constraints

/-! ### Transitions -/

/-- The request has a state that is not terminal, and nothing of it was closed. -/
structure OpenRequest [Cryptography] (requestId : PublicId) (row : RequestRow)
    (dossier : Dossier) : Prop where
  found : dossier.row = some row
  isOpen : row.state.isTerminal = false
  chain : ∃ log, StoredLog requestId row.state dossier.events log
  short : dossier.events.length ≤ row.state.rank + 1
  receipts : dossier.receipts = []
  receiptBytes : row.receiptBytes = none

/-- The last event of a log stands at its length, and no event stands after it. -/
theorem StoredLog.positions [Cryptography] {requestId : PublicId}
    {state : RequestState} {rows : List EventRow} {log : List LifecycleEvent}
    (h : StoredLog requestId state rows log) :
    (∃ last, log.getLast? = some last ∧ last.sequence.toNat = rows.length) ∧
      ∀ event ∈ log, event.sequence.toNat ≤ rows.length := by
  have hPositions := h.linked.positions
  have hLength : rows.length = log.length := by rw [h.rows, List.length_map]
  rw [hLength]
  constructor
  · obtain ⟨last, hLast, -⟩ := h.last
    have hEnd := LogFormat.getLast?_position_of_range hPositions
    rw [hLast] at hEnd
    exact ⟨last, hLast, hEnd⟩
  · intro event hEvent
    have hMem : event.sequence.toNat ∈ List.range' 1 log.length :=
      hPositions ▸ List.mem_map_of_mem (f := (lifecycleLog requestId).position) hEvent
    rw [List.mem_range'_1] at hMem
    omega

section Transitions

variable [Cryptography] {requestId : PublicId} {row : RequestRow} {before : Database}

/-- The event of a transition can be stored as long as the chain is short. -/
theorem insertEvent_ok {state next : RequestState} {reason : TransitionReason}
    {log : List LifecycleEvent} (hRow : before.request? requestId = some row)
    (hLog : StoredLog requestId state (before.eventsOf requestId) log)
    (hShort : (before.eventsOf requestId).length + 1 < 2 ^ 63) :
    ∃ after, insertEvent requestId next reason checkedSucc before =
      .ok ((), after) := by
  obtain ⟨⟨last, hLast, hPosition⟩, hBelow⟩ := hLog.positions
  have hMem : last ∈ log := List.mem_of_getLast? hLast
  have hLatest : latestRow (before.eventsOf requestId) =
      some (last.toRow requestId) := by
    rw [hLog.latestRow_eq, hLast, Option.map_some]
  have hCurrent : toU64? (last.toRow requestId).sequence.toInt =
      some last.sequence := by
    rw [toU64?_eq_some_iff, toInt_sequence_toRow (hLog.fits last hMem)]
  obtain ⟨sequence, hSequence⟩ : ∃ sequence, checkedSucc last.sequence =
      some sequence := exists_toU64? (by omega) (by omega)
  have hNext := toNat_of_checkedSucc hSequence
  obtain ⟨stored, hStored⟩ : ∃ stored, toI64? sequence.toNat = some stored :=
    exists_toI64? (by omega) (by omega)
  have hColumn : stored.toInt = sequence.toNat := toI64?_eq_some_iff.mp hStored
  have hDigest : ByteArr.ofBytes? 32 (last.toRow requestId).eventDigest =
      some last.eventDigest := ByteArr.ofBytes?_val last.eventDigest
  let added : EventRow :=
    { requestId := requestId.asStr
      sequence := stored
      state := next.asDb
      reason := reason.asDb
      previousEventDigest := some last.eventDigest.val
      eventDigest := (lifecycleEventDigest requestId sequence (some last.eventDigest)
        next reason).val }
  -- The events of the request all stand before the new one.
  have hFresh : ∀ other ∈ before.requestEvents, other.requestId = added.requestId →
      other.sequence ≠ added.sequence := by
    intro other hOther hSame hSequences
    have hSelected : other ∈ before.eventsOf requestId :=
      Table.mem_select_iff.mpr ⟨hOther, hSame⟩
    rw [hLog.rows] at hSelected
    obtain ⟨event, hEvent, rfl⟩ := List.mem_map.mp hSelected
    have hPlace := congrArg Int64.toInt hSequences
    rw [toInt_sequence_toRow (hLog.fits event hEvent)] at hPlace
    change (event.sequence.toNat : Int) = stored.toInt at hPlace
    have hBefore := hBelow event hEvent
    omega
  have hChecked : added.Checked := by
    refine ⟨?_, ?_, ?_, ?_⟩
    · rw [Int64.lt_iff_toInt_lt]
      show (0 : Int) < stored.toInt
      omega
    · show 0 < reason.asDb
      cases reason <;> decide
    · intro bytes hBytes
      rw [← Option.some.inj hBytes]
      exact last.eventDigest.property
    · exact (lifecycleEventDigest requestId sequence (some last.eventDigest) next
        reason).property
  obtain ⟨after, hAfter, -⟩ : ∃ after,
      execute (fun tables => tables.addEvent added) before = .ok ((), after) ∧
        after.toTables = before.toTables.addEvent added :=
    execute_ok (before.constraints.addEvent (Database.mem_requestIds hRow) hFresh
      hChecked)
  refine ⟨after, ?_⟩
  simp only [insertEvent, run_bind_eq_ok_iff, query_eq_ok_iff, attempt_eq_ok_iff,
    latestEvent, orFault_eq_ok_iff]
  exact ⟨_, before, ⟨hLatest, rfl⟩, _, before, ⟨hCurrent, rfl⟩, _, before,
    ⟨hSequence, rfl⟩, _, before, ⟨hDigest, rfl⟩, _, before, ⟨hStored, rfl⟩, hAfter⟩

omit [Cryptography] in
theorem setState_ok {expected : Option RequestState} {next : RequestState}
    (hRow : before.request? requestId = some row)
    (hState : ∀ state ∈ expected, row.state = state)
    (hOpen : row.state.isTerminal = false) :
    ∃ after, setState requestId expected next before = .ok ((), after) ∧
      after.toTables = before.toTables.modifyRequest requestId
        fun row => { row with state := next } := by
  have hConstraints : Constraints (before.toTables.modifyRequest requestId
      fun row => { row with state := next }) := by
    refine before.constraints.modifyRequest
      (fun row => SameSubmission.setState row next) ?_ ?_
    · intro found hFound
      have hChecked : found.Checked := Database.checked_of_request? hFound
      exact hChecked
    · intro found hFound _
      have hSame : found = row := Option.some.inj (hFound.symm.trans hRow)
      rw [hSame]
      exact mem_ACTIVE_STATES_iff.mpr hOpen
  exact ⟨⟨_, hConstraints⟩, setState_eq_ok_iff.mpr ⟨row, hRow, hState, rfl⟩, rfl⟩

/-- A transition of an open request from its own state is recorded. -/
theorem appendTransition_ok {expected : Option RequestState} {next : RequestState}
    {reason : TransitionReason}
    (h : OpenRequest requestId row (before.dossier requestId))
    (hState : ∀ state ∈ expected, row.state = state) :
    ∃ after, appendTransition requestId expected next reason before =
      .ok ((), after) := by
  obtain ⟨between, hSet, hBetween⟩ :
      ∃ between, setState requestId expected next before = .ok ((), between) ∧
        between.toTables = before.toTables.modifyRequest requestId
          fun row => { row with state := next } := setState_ok h.found hState h.isOpen
  obtain ⟨log, hLog⟩ := h.chain
  have hEvents : between.eventsOf requestId = before.eventsOf requestId := by
    rw [hBetween]
    rfl
  have hRow : between.request? requestId = some { row with state := next } := by
    change (between.dossier requestId).row = _
    rw [hBetween, Tables.dossier_modifyRequest_self (by simp), h.found]
    rfl
  have hShort : (before.eventsOf requestId).length ≤ row.state.rank + 1 := h.short
  have hRank := row.state.rank_le
  obtain ⟨after, hInsert⟩ : ∃ after,
      insertEvent requestId next reason checkedSucc between = .ok ((), after) := by
    have hKept : StoredLog requestId row.state (between.eventsOf requestId) log := by
      rw [hEvents]
      exact hLog
    apply insertEvent_ok hRow hKept
    rw [hEvents]
    omega
  refine ⟨after, ?_⟩
  rw [appendTransition, run_bind_eq_ok_iff]
  exact ⟨(), between, hSet, hInsert⟩

end Transitions

/-! ### Receipts -/

/-- The id came from `PublicId::random`. -/
def PublicId.IsRandom (id : PublicId) : Prop :=
  ∃ bytes : ByteArr 16, PublicId.random (some bytes) = .ok id

theorem isBase64url_symbol {sextet : Nat} (h : sextet < 64) :
    isBase64url (Base64Url.symbol sextet) = true := by
  have hAll : ∀ sextet < 64, isBase64url (Base64Url.symbol sextet) = true := by
    decide +kernel
  exact hAll sextet h

/-- Random bytes always spell an id, which determines them. -/
theorem PublicId.random_eq_ok (bytes : ByteArr 16) :
    ∃ id : PublicId, PublicId.random (some bytes) = .ok id ∧
      id.asStr = Base64Url.encodeText bytes.val ∧ id.bytes = .ok bytes := by
  have hText := Base64Url.utf8_encodeText bytes.val
  have hShape : isPublicId (Base64Url.encodeText bytes.val) = true := by
    unfold isPublicId
    rw [hText, Base64Url.length_encode, bytes.property, Bool.and_eq_true]
    refine ⟨rfl, List.all_eq_true.mpr ?_⟩
    intro byte hByte
    obtain ⟨sextet, hSextet, rfl⟩ := Base64Url.exists_symbol_of_mem hByte
    exact isBase64url_symbol hSextet
  refine ⟨⟨_, hShape⟩, ?_, rfl, ?_⟩
  · simp only [PublicId.random, randomBytes16, orFault, ok_bind, PublicId.parse,
      dif_pos hShape]
    rfl
  · simp only [PublicId.bytes, PublicId.bytes?, hText, Base64Url.decode_encode,
      Option.bind_some, ByteArr.ofBytes?_val, orFault]

theorem PublicId.IsRandom.bytes {id : PublicId} (h : id.IsRandom) :
    ∃ bytes, id.bytes = .ok bytes := by
  obtain ⟨bytes, hRandom⟩ := h
  obtain ⟨found, hFound, -, hBytes⟩ := PublicId.random_eq_ok bytes
  rw [hRandom, Except.ok.injEq] at hFound
  exact ⟨bytes, hFound ▸ hBytes⟩

/-- The operating system has random bytes, and no receipt has their id. -/
def FreshReceiptId (entropy : Entropy) (receipts : List ReceiptRow) : Prop :=
  ∃ bytes, entropy = some bytes ∧
    ∀ made ∈ receipts, made.receiptId ≠ Base64Url.encodeText bytes.val

section Receipts

variable [Cryptography] {requestId : PublicId} {row : RequestRow}
  {state : RequestState} {signer : BrokerSigningKey} {nowUtc : Int64}

theorem BrokerSigningKey.length_kid (signer : BrokerSigningKey) :
    signer.kid.length = 16 := by
  rw [BrokerSigningKey.kid, List.length_take, (sha256 signer.publicKey.val).property]
  rfl

/-- A payload that fits a byte string is signed. -/
theorem signEnvelope_ok (signer : BrokerSigningKey) {payload : Bytes}
    (contentType : UInt64) (domain : Domain) (hPayload : payload.length ≤ 65536) :
    ∃ bytes, signEnvelope signer payload contentType domain = .ok bytes := by
  have hKid : 8 ≤ signer.kid.length ∧ signer.kid.length ≤ 32 := by
    rw [signer.length_kid]
    decide
  obtain ⟨cose, output, hSign, hEncode⟩ :=
    CoseSign1.exists_signed contentType domain signer.key hKid hPayload
  refine ⟨output, ?_⟩
  rw [signEnvelope, hSign, ok_bind, hEncode]
  rfl

/-- The columns of a checked row suffice for a receipt. -/
theorem receiptOf_ok {receiptId : PublicId} {metadata : MetadataRow}
    (hChecked : row.Checked) (hEpoch : 0 ≤ metadata.bootEpoch)
    (hReceiptId : ∃ bytes, receiptId.bytes = .ok bytes)
    (hRequestId : ∃ bytes, requestId.bytes = .ok bytes) :
    ∃ receipt, receiptOf receiptId requestId row metadata state nowUtc [] =
      .ok receipt := by
  obtain ⟨receiptBytes, hReceiptId⟩ := hReceiptId
  obtain ⟨requestBytes, hRequestId⟩ := hRequestId
  obtain ⟨-, hInput, -, -, -, hPlan, hRequest, -⟩ := hChecked
  have hLength : (row.requestDigest.getD row.inputDigest).length = 32 := by
    cases hDigest : row.requestDigest with
    | none => exact hInput
    | some bytes => exact hRequest bytes hDigest
  have hRequestDigest : ByteArr.ofBytes? 32 (row.requestDigest.getD row.inputDigest) =
      some ⟨_, hLength⟩ := ByteArr.ofBytes?_eq_some_iff.mpr rfl
  obtain ⟨planDigest, hPlanDigest⟩ : ∃ digest, digestColumn row.planDigest =
      .ok digest := by
    cases hDigest : row.planDigest with
    | none => exact ⟨_, rfl⟩
    | some bytes =>
        have hPlanLength : bytes.length = 32 := hPlan bytes hDigest
        refine ⟨⟨bytes, hPlanLength⟩, ?_⟩
        rw [digestColumn, orFault_eq_ok_iff]
        exact ByteArr.ofBytes?_eq_some_iff.mpr rfl
  have hEpochInt : 0 ≤ metadata.bootEpoch.toInt := Int64.le_iff_toInt_le.mp hEpoch
  have hEpochHigh : metadata.bootEpoch.toInt < 2 ^ 63 := metadata.bootEpoch.toInt_lt
  obtain ⟨epoch, hEpochWord⟩ := exists_toU64? hEpochInt (by omega)
  simp only [receiptOf, bind_eq_ok_iff, orFault_eq_ok_iff, pure_eq_ok,
    Except.ok.injEq]
  exact ⟨_, _, hRequestDigest, _, hPlanDigest, _, hReceiptId, _, hRequestId, _,
    hEpochWord, rfl⟩

theorem small_executionEvidence (evidence : Option Bytes) :
    Small 1 109 (executionEvidence state evidence) := by
  have hCode : Small 0 41 (.unsigned (receiptStateCode state)) :=
    (Small.unsigned _).mono le_rfl (by decide)
  cases evidence with
  | none =>
      have hTable : executionEvidence state none =
          record [(1, .unsigned (receiptStateCode state))] := rfl
      rw [hTable]
      show Small (0 + 1) (9 + 2 * (9 + 41)) _
      refine Small.record (List.nodup_singleton _) (by simp) (by decide) ?_
      exact List.forall_mem_singleton.mpr hCode
  | some bytes =>
      have hTable : executionEvidence state (some bytes) =
          record [(1, .unsigned (receiptStateCode state)),
            (2, .bytes (sha256 bytes).val)] := rfl
      have hKeys : [(1 : UInt64), 2].Nodup := by decide
      rw [hTable]
      show Small (0 + 1) (9 + 2 * (9 + 41)) _
      refine Small.record hKeys le_rfl (by decide) ?_
      rw [List.forall_mem_cons, List.forall_mem_singleton]
      exact ⟨hCode, Small.byteArr (sha256 bytes) le_rfl (by decide)⟩

/-- The record of such a receipt is small. -/
theorem small_receipt {receiptId : PublicId} {metadata : MetadataRow}
    {receipt : Receipt}
    (h : receiptOf receiptId requestId row metadata state nowUtc [] = .ok receipt) :
    Small 2 65536 receipt.toCbor ∧ Receipt.layout.Valid receipt ∧
      receipt.createdUtc = row.createdUtc ∧ receipt.completedUtc = nowUtc := by
  simp only [receiptOf, bind_eq_ok_iff, pure_eq_ok, Except.ok.injEq] at h
  obtain ⟨requestDigest, -, planDigest, -, receiptBytes, -, requestBytes, -, epoch, -,
    rfl⟩ := h
  refine ⟨?_, ?_, rfl, rfl⟩
  · have hEmptyArray : Small (0 + 1) (9 + 0 * 0) (.array []) :=
      Small.array le_rfl (by decide) (by simp)
    have hEmptyMap : Small (0 + 1) (9 + 0 * (9 + 0)) (record []) :=
      Small.record List.nodup_nil le_rfl (by decide) (by simp)
    have hBytes : ∀ {length : Nat} (value : ByteArr length), length ≤ 32 →
        Small 1 109 (.bytes value.val) := fun value hLength =>
      (Small.byteArr value hLength (by decide)).mono (by decide) (by decide)
    have hUnsigned : ∀ value, Small 1 109 (.unsigned value) := fun value =>
      (Small.unsigned value).mono (by decide) (by decide)
    have hSigned : ∀ value, Small 1 109 (signed value) := fun value =>
      (Small.signed value).mono (by decide) (by decide)
    have hRecord : Small (1 + 1) (9 + 12 * (9 + 109)) (record
        (Receipt.layout.entries
          { receiptId := receiptBytes, requestId := requestBytes, requestDigest
            planDigest
            terminalState := receiptStateCode state
            authorizationEvidence := []
            prestateEvidence := .map []
            executionEvidence := executionEvidence state row.recoveryEvidence
            createdUtc := row.createdUtc, completedUtc := nowUtc
            brokerEpoch := epoch })) := by
      refine Small.record (Layout.entries_nodup _) le_rfl (by decide) ?_
      simp only [Receipt.layout, Receipt.entries, List.forall_mem_cons]
      exact ⟨hUnsigned _, hBytes _ (by decide), hBytes _ (by decide),
        hBytes _ (by decide), hBytes _ (by decide), hUnsigned _,
        hEmptyArray.mono le_rfl (by decide), hEmptyMap.mono le_rfl (by decide),
        small_executionEvidence _, hSigned _, hSigned _, hUnsigned _, by simp⟩
    exact hRecord.mono le_rfl (by decide)
  · unfold Layout.Valid
    simp only [Receipt.layout, Receipt.specs, List.forall_mem_cons]
    exact ⟨trivial, trivial, trivial, trivial, trivial, trivial, trivial, rfl, rfl,
      trivial, trivial, trivial, by simp⟩

/-- The receipt of a checked row is valid when it is not completed before the request
was created. -/
theorem canonicalBytes_receiptOf {receiptId : PublicId} {metadata : MetadataRow}
    {receipt : Receipt}
    (h : receiptOf receiptId requestId row metadata state nowUtc [] = .ok receipt) :
    (row.createdUtc ≤ nowUtc → ∃ payload, receipt.canonicalBytes = .ok payload ∧
      payload.length ≤ 65536) ∧
    ((∃ payload, receipt.canonicalBytes = .ok payload) → row.createdUtc ≤ nowUtc) := by
  obtain ⟨hSmall, hValid, hCreated, hCompleted⟩ := small_receipt h
  constructor
  · intro hClock
    obtain ⟨payload, hPayload, hLength⟩ := hSmall.encode_eq_ok (by decide) (by decide)
    refine ⟨payload, Receipt.canonicalBytes_eq_ok_iff.mpr ⟨⟨hValid, ?_⟩, hPayload⟩,
      hLength⟩
    rw [hCreated, hCompleted]
    exact hClock
  · intro hPayload
    obtain ⟨payload, hPayload⟩ := hPayload
    have hTimes := (Receipt.canonicalBytes_eq_ok_iff.mp hPayload).1.2
    rw [hCreated, hCompleted] at hTimes
    exact hTimes

/-- The receipt of a closed request can be made exactly when the clock has not gone
back behind the creation time of the request. -/
theorem createReceipt_succeeds_iff {entropy : Entropy} {before : Database}
    (hRow : before.request? requestId = some row) (hUnset : row.receiptBytes = none)
    (hFirst : before.receiptsOf requestId = [])
    (hId : ∃ bytes, requestId.bytes = .ok bytes)
    (hFresh : FreshReceiptId entropy before.receipts) :
    Succeeds (createReceipt requestId state signer nowUtc [] entropy) before ↔
      row.createdUtc ≤ nowUtc := by
  constructor
  · intro h
    obtain ⟨result, after, hDone⟩ := h
    obtain ⟨found, made, hFound, -, hMade, -⟩ := createReceipt_eq_ok hDone
    rw [hRow, Option.some.injEq] at hFound
    subst hFound
    obtain ⟨receiptId, receipt, payload, -, hReceipt, hPayload, -⟩ := hMade.contents
    exact (canonicalBytes_receiptOf hReceipt).2 ⟨payload, hPayload⟩
  · intro hClock
    obtain ⟨bytes, rfl, hUnused⟩ := hFresh
    obtain ⟨receiptId, hRandom, hText, hBytes⟩ := PublicId.random_eq_ok bytes
    have hChecked := Database.checked_of_request? hRow
    obtain ⟨receipt, hReceipt⟩ : ∃ receipt, receiptOf receiptId requestId row
        before.brokerMetadata state nowUtc [] = .ok receipt :=
      receiptOf_ok hChecked before.constraints.metadataChecks.1 ⟨bytes, hBytes⟩ hId
    obtain ⟨payload, hPayload, hLength⟩ := (canonicalBytes_receiptOf hReceipt).1 hClock
    obtain ⟨cose, hCose⟩ :=
      signEnvelope_ok signer COSE_CONTENT_TYPE_RECEIPT .receipt hLength
    let made : ReceiptRow :=
      { receiptId := receiptId.asStr
        requestId := requestId.asStr
        requesterUid := row.requesterUid
        terminalState := state.asDb
        coseBytes := cose
        createdUtc := row.createdUtc
        completedUtc := nowUtc }
    have hNew : ∀ other ∈ before.receipts, other.receiptId ≠ made.receiptId := by
      intro other hOther
      show other.receiptId ≠ receiptId.asStr
      rw [hText]
      exact hUnused other hOther
    have hOnly : ∀ other ∈ before.receipts, other.requestId ≠ made.requestId := by
      intro other hOther hSame
      have hSelected : other ∈ before.receiptsOf requestId :=
        Table.mem_select_iff.mpr ⟨hOther, hSame⟩
      rw [hFirst] at hSelected
      cases hSelected
    -- The receipt is inserted, read back and noted in the row of the request.
    obtain ⟨between, hInsert, hBetween⟩ : ∃ between,
        execute (fun tables => tables.addReceipt made) before = .ok ((), between) ∧
          between.toTables = before.toTables.addReceipt made :=
      execute_ok (before.constraints.addReceipt (Database.mem_requestIds hRow) hNew
        hOnly hChecked.1)
    have hStored : (between.receiptsOf requestId).head? = some made := by
      rw [hBetween, Tables.receiptsOf_addReceipt rfl, hFirst]
      rfl
    have hSameRow : between.request? requestId = some row := by
      rw [hBetween]
      exact hRow
    have hSet : Constraints (between.toTables.modifyRequest requestId
        fun row => { row with receiptBytes := some cose }) := by
      refine between.constraints.modifyRequest
        (fun row => SameSubmission.setReceiptBytes row cose) ?_ fun _ _ h => h
      intro found hFound
      have hFoundChecked : found.Checked := Database.checked_of_request? hFound
      exact hFoundChecked
    have hUnsetBetween : ∀ found, between.request? requestId = some found →
        found.receiptBytes = none := by
      intro found hFound
      rw [hSameRow, Option.some.injEq] at hFound
      exact hFound ▸ hUnset
    refine ⟨cose, ⟨_, hSet⟩, ?_⟩
    simp only [createReceipt, run_bind_eq_ok_iff, query_eq_ok_iff, attempt_eq_ok_iff,
      requestRow, orFault_eq_ok_iff, mapError_eq_ok_iff, setReceiptBytes_eq_ok_iff,
      run_pure_eq_ok_iff, Except.ok.injEq]
    exact ⟨receiptId, before, ⟨hRandom, rfl⟩, row, before, ⟨hRow, rfl⟩, _, before,
      ⟨rfl, rfl⟩, receipt, before, ⟨hReceipt, rfl⟩, payload, before, ⟨hPayload, rfl⟩,
      cose, before, ⟨hCose, rfl⟩, (), between, hInsert, made, between, ⟨hStored, rfl⟩,
      (), _, ⟨hUnsetBetween, rfl⟩, rfl, rfl⟩

end Receipts

/-! ### Closing a request -/

section Closing

variable [Cryptography] {requestId : PublicId} {row : RequestRow}
  {signer : BrokerSigningKey} {nowUtc : Int64} {entropy : Entropy}
  {expected : Option RequestState} {next : RequestState} {reason : TransitionReason}
  {before : Database}

/-- The request as its receipt finds it: only the state of its row has changed. -/
theorem appendTransition_dossier {between : Database} {done : Unit}
    (hRow : before.request? requestId = some row)
    (h : appendTransition requestId expected next reason before =
      .ok (done, between)) :
    between.request? requestId = some { row with state := next } ∧
      between.receiptsOf requestId = before.receiptsOf requestId ∧
      between.receipts = before.receipts ∧
      ∀ other, other ≠ requestId → between.dossier other = before.dossier other := by
  obtain ⟨found, event, hFound, -, -, hBetween⟩ := appendTransition_eq_ok h
  rw [hRow, Option.some.injEq] at hFound
  subst hFound
  have hDossier : (before.toTables.advance requestId next event).dossier requestId =
      if requestId = requestId then
        { row := some { row with state := next }
          events := before.eventsOf requestId ++ [event.toRow requestId]
          receipts := before.receiptsOf requestId }
      else before.dossier requestId := Tables.dossier_advance hRow
  rw [if_pos rfl, ← hBetween] at hDossier
  refine ⟨congrArg Dossier.row hDossier, congrArg Dossier.receipts hDossier, ?_, ?_⟩
  · rw [hBetween]
    rfl
  · intro other hOther
    rw [hBetween, Tables.dossier_advance hRow, if_neg hOther]

/-- An open request can be closed exactly when the clock has not gone back behind its
creation time. -/
theorem closing_succeeds_iff (h : OpenRequest requestId row (before.dossier requestId))
    (hState : ∀ state ∈ expected, row.state = state)
    (hId : ∃ bytes, requestId.bytes = .ok bytes)
    (hFresh : FreshReceiptId entropy before.receipts) :
    (∃ between, appendTransition requestId expected next reason before =
        .ok ((), between) ∧
      Succeeds (createReceipt requestId next signer nowUtc [] entropy) between) ↔
      row.createdUtc ≤ nowUtc := by
  obtain ⟨between, hAppend⟩ : ∃ between,
      appendTransition requestId expected next reason before = .ok ((), between) :=
    appendTransition_ok h hState
  obtain ⟨hRow, hReceipts, hAll, -⟩ := appendTransition_dossier h.found hAppend
  have hFirst : between.receiptsOf requestId = [] := hReceipts.trans h.receipts
  have hReceipt : Succeeds (createReceipt requestId next signer nowUtc [] entropy)
      between ↔ ({ row with state := next } : RequestRow).createdUtc ≤ nowUtc :=
    createReceipt_succeeds_iff hRow h.receiptBytes hFirst hId (hAll ▸ hFresh)
  constructor
  · intro hBoth
    obtain ⟨found, hFound, hDone⟩ := hBoth
    rw [hAppend, Except.ok.injEq, Prod.mk.injEq] at hFound
    exact hReceipt.mp (hFound.2 ▸ hDone)
  · intro hClock
    exact ⟨between, hAppend, hReceipt.mpr hClock⟩

end Closing

/-! ### Reachable stores -/

/-- No chain is longer than the lifecycle. -/
def ShortChains (tables : Tables) : Prop :=
  ∀ requestId row, tables.request? requestId = some row →
    (tables.eventsOf requestId).length ≤ row.state.rank + 1

theorem ShortChains.step [Cryptography] (store : BrokerStore) (call : Call)
    (h : ShortChains store.database.toTables) :
    ShortChains (store.step call).database.toTables := by
  rcases store.step_cases call with hSame | hDone
  · rw [hSame]
    exact h
  intro requestId row hRow
  cases Call.effect hDone requestId with
  | kept hKept =>
      have hEvents := congrArg Dossier.events hKept
      change (store.step call).database.eventsOf requestId =
        store.database.eventsOf requestId at hEvents
      rw [hEvents]
      exact h requestId row ((congrArg Dossier.row hKept).symm.trans hRow)
  | created request policy generation _ _ _ hCreated =>
      have hEvents := congrArg Dossier.events hCreated
      change (store.step call).database.eventsOf requestId = _ at hEvents
      rw [hEvents]
      exact Nat.le_add_left _ _
  | moved old new reason hMoved hDrives =>
      have hNew : row = new := Option.some.inj (hRow.symm.trans hMoved.rowAfter)
      obtain ⟨event, -, hEvents⟩ := hMoved.event
      change (store.step call).database.eventsOf requestId = _ at hEvents
      have hOld := h requestId old hMoved.rowBefore
      have hForward := hDrives.rank_lt
      rw [hEvents, List.length_append, List.length_singleton, hNew]
      change (store.database.eventsOf requestId).length + 1 ≤ _
      omega

theorem shortChains_of_run [Cryptography] (calls : List Call) :
    ShortChains (run BrokerStore.step BrokerStore.empty calls).database.toTables :=
  run_invariant (I := fun store : BrokerStore => ShortChains store.database.toTables)
    (fun _ _ hRow => by cases hRow) ShortChains.step calls

/-- An open request of a reachable store can be moved and closed. -/
theorem OpenRequest.of_run [Cryptography] (calls : List Call) {requestId : PublicId}
    {row : RequestRow}
    (hRow : (run BrokerStore.step BrokerStore.empty calls).database.request? requestId =
      some row) (hOpen : row.state.isTerminal = false) :
    OpenRequest requestId row
      ((run BrokerStore.step BrokerStore.empty calls).database.dossier requestId) := by
  have hRequest := (BrokerStore.sound_of_run calls).requests requestId row hRow
  obtain ⟨hReceipts, hBytes⟩ := hRequest.opened hOpen
  exact ⟨hRow, hOpen, hRequest.chain, shortChains_of_run calls requestId row hRow,
    hReceipts, hBytes⟩

end Broker
end RootPermit
