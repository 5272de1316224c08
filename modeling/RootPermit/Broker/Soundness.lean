import RootPermit.Broker.EventChain
import RootPermit.Protocol.SchemaRoundTrip

/-!
# Soundness of the durable state

The invariant of every database that the store can reach: each request has a
linked event chain that ends in its state, and it has a receipt, made with the
pinned key, exactly when its state is terminal.

* `SoundDatabase.transaction` — every successful call preserves the invariant;
* `Kept` — what further calls leave of a request: its submission, its events, and
  everything once it is closed;
* `events_chain_intact` and `terminal_receipt_unique` — what follows for the events
  and the receipts of every reachable store.
-/

namespace RootPermit
namespace Broker

open Foundation Protocol

/-! ### Moves go forward -/

theorem Drives.rank_lt [Cryptography] {deviceIdBytes : ByteArr 16}
    {snapshots : Snapshots} {before : Tables} {requestId : PublicId} {call : Call}
    {source target : RequestState} {reason : TransitionReason}
    (h : Drives deviceIdBytes snapshots before requestId call source target reason) :
    source.rank < target.rank := by
  cases h with
  | nonterminal _ _ _ hEdge => exact RequestState.rank_lt_of_permits hEdge
  | prepared => decide
  | terminal _ _ _ _ _ _ hEdge => exact RequestState.rank_lt_of_permits hEdge
  | reconciled succeeded => cases succeeded <;> decide
  | booted _ _ _ _ _ hSource =>
      rcases List.mem_cons.mp hSource with rfl | hSource
      · decide
      · rcases List.mem_cons.mp hSource with rfl | hSource
        · decide
        · rw [List.mem_singleton.mp hSource]
          decide
  | lapsed _ _ _ _ _ hTarget => rcases hTarget with rfl | rfl <;> decide
  | decided _ _ _ _ _ verified => cases verified.decision <;> decide

theorem RequestState.rank_of_isTerminal {state : RequestState}
    (h : state.isTerminal = true) : state.rank = 5 := by
  cases state <;> first | rfl | cases h

theorem RequestState.rank_le (state : RequestState) : state.rank ≤ 5 := by
  cases state <;> decide

/-- No call moves a request that is closed. -/
theorem Drives.source_open [Cryptography] {deviceIdBytes : ByteArr 16}
    {snapshots : Snapshots} {before : Tables} {requestId : PublicId} {call : Call}
    {source target : RequestState} {reason : TransitionReason}
    (h : Drives deviceIdBytes snapshots before requestId call source target reason) :
    source.isTerminal = false := by
  by_contra hClosed
  have hSource := RequestState.rank_of_isTerminal (Bool.not_eq_false _ ▸ hClosed)
  have hTarget := target.rank_le
  have hForward := h.rank_lt
  omega

/-! ### The invariant -/

/-- The dossier of a request agrees with its state. -/
structure SoundRequest [Cryptography] (identity : Option IdentityRow)
    (requestId : PublicId) (row : RequestRow) (dossier : Dossier) : Prop where
  chain : ∃ log, StoredLog requestId row.state dossier.events log
  opened : row.state.isTerminal = false →
    dossier.receipts = [] ∧ row.receiptBytes = none
  closed : row.state.isTerminal = true →
    ∃ made, Receipted identity requestId row made ∧ dossier.receipts = [made] ∧
      row.receiptBytes = some made.coseBytes

structure SoundDatabase [Cryptography] (tables : Tables) : Prop where
  requestIds : ∀ text ∈ tables.requestIds, isPublicId text = true
  requests : ∀ requestId row, tables.request? requestId = some row →
    SoundRequest tables.brokerIdentity requestId row (tables.dossier requestId)

section Invariant

variable [Cryptography]

theorem Receipted.mono {before after : Tables} {requestId : PublicId}
    {row : RequestRow} {made : ReceiptRow} (hKept : IdentityKept before after)
    (h : Receipted before.brokerIdentity requestId row made) :
    Receipted after.brokerIdentity requestId row made := by
  obtain ⟨pinned, signer, nowUtc, evidence, metadata, hPinned, hNames, hMade⟩ := h
  obtain ⟨kept, hAfter, hKid, hPublic, -, -⟩ := hKept pinned hPinned
  refine ⟨kept, signer, nowUtc, evidence, metadata, hAfter, ?_, hMade⟩
  exact ⟨hKid.trans hNames.1, hPublic.trans hNames.2⟩

theorem SoundRequest.mono {before after : Tables} {requestId : PublicId}
    {row : RequestRow} {dossier : Dossier} (hKept : IdentityKept before after)
    (h : SoundRequest before.brokerIdentity requestId row dossier) :
    SoundRequest after.brokerIdentity requestId row dossier := by
  refine ⟨h.chain, h.opened, ?_⟩
  intro hClosed
  obtain ⟨made, hMade, hRest⟩ := h.closed hClosed
  exact ⟨made, hMade.mono hKept, hRest⟩

/-- A new request is sound. -/
theorem SoundRequest.created {identity : Option IdentityRow} {deviceId : String}
    {request : SubmitPackageInstall} {generation : Int64} :
    SoundRequest identity request.requestId (newRequest deviceId request generation)
      { row := some (newRequest deviceId request generation)
        events := [createdEvent request.requestId]
        receipts := [] } := by
  refine ⟨StoredLog.created request.requestId, fun _ => ⟨rfl, rfl⟩, ?_⟩
  intro hClosed
  cases hClosed

/-- A move keeps a request sound. -/
theorem SoundRequest.moved {identity : Option IdentityRow} {requestId : PublicId}
    {reason : TransitionReason} {old new : RequestRow} {before after : Dossier}
    (h : SoundRequest identity requestId old before)
    (hOpen : old.state.isTerminal = false)
    (hMoved : Moved identity requestId reason old new before after) :
    SoundRequest identity requestId new after := by
  obtain ⟨log, hLog⟩ := h.chain
  obtain ⟨event, hNext, hEvents⟩ := hMoved.event
  refine ⟨⟨log ++ [event], ?_⟩, ?_, ?_⟩
  · rw [hEvents]
    exact hLog.append hNext
  · intro hState
    obtain ⟨hBytes, hReceipts⟩ := hMoved.remainsOpen hState
    rw [hBytes, hReceipts]
    exact h.opened hOpen
  · intro hState
    obtain ⟨made, hMade, -, hReceipts, -, hBytes⟩ := hMoved.closes hState
    exact ⟨made, hMade, hReceipts, hBytes⟩

/-- Every successful call preserves soundness. -/
theorem SoundDatabase.transaction {call : Call} {deviceIdBytes result : ByteArr 16}
    {snapshots : Snapshots} {before after : Database}
    (hSound : SoundDatabase before.toTables)
    (h : call.transaction deviceIdBytes snapshots before = .ok (result, after)) :
    SoundDatabase after.toTables := by
  have hShared := Call.shared h
  refine ⟨?_, ?_⟩
  · intro text hText
    rcases hShared.requestIds text hText with hOld | hNew
    · exact hSound.requestIds text hOld
    · exact hNew
  · intro requestId row hRow
    apply SoundRequest.mono hShared.identity
    cases Call.effect h requestId with
    | kept hKept =>
        have hBefore : before.request? requestId = some row :=
          (congrArg Dossier.row hKept).symm.trans hRow
        rw [hKept]
        exact hSound.requests requestId row hBefore
    | created request policy generation _ hRequest _ hCreated =>
        have hNew : some row = some (newRequest _ request generation) :=
          hRow.symm.trans (congrArg Dossier.row hCreated)
        rw [Option.some.inj hNew, hCreated, ← hRequest]
        exact SoundRequest.created
    | moved old new reason hMoved hDrives =>
        have hNew : row = new :=
          Option.some.inj (hRow.symm.trans hMoved.rowAfter)
        rw [hNew]
        exact (hSound.requests requestId old hMoved.rowBefore).moved
          hDrives.source_open hMoved

theorem SoundDatabase.migrated : SoundDatabase Database.migrated.toTables := by
  refine ⟨?_, ?_⟩
  · intro text hText
    cases hText
  · intro requestId row hRow
    cases hRow

/-- The database of the store is sound. -/
def BrokerStore.Sound (store : BrokerStore) : Prop :=
  SoundDatabase store.database.toTables

theorem BrokerStore.Sound.empty : BrokerStore.empty.Sound :=
  SoundDatabase.migrated

theorem BrokerStore.Sound.step (store : BrokerStore) (call : Call)
    (hSound : store.Sound) : (store.step call).Sound := by
  rcases store.step_cases call with hSame | hDone
  · rw [hSame]
    exact hSound
  · exact hSound.transaction hDone

/-- Every reachable store is sound. -/
theorem BrokerStore.sound_of_run (calls : List Call) :
    (run BrokerStore.step BrokerStore.empty calls).Sound :=
  run_invariant BrokerStore.Sound.empty BrokerStore.Sound.step calls

/-! ### What later calls keep -/

/-- What is kept of a request: it is the same submission, its events are only added
to, and nothing changes once it is closed. -/
structure Kept (requestId : PublicId) (before after : Tables) : Prop where
  row : ∀ old, before.request? requestId = some old →
    ∃ new, after.request? requestId = some new ∧ SameSubmission old new ∧
      old.state.rank ≤ new.state.rank
  events : before.eventsOf requestId <+: after.eventsOf requestId
  closed : ∀ old, before.request? requestId = some old →
    old.state.isTerminal = true →
    after.dossier requestId = before.dossier requestId

omit [Cryptography] in
theorem Kept.of_dossier {requestId : PublicId} {before after : Tables}
    (h : after.dossier requestId = before.dossier requestId) :
    Kept requestId before after := by
  refine ⟨?_, ?_, fun _ _ _ => h⟩
  · intro old hOld
    exact ⟨old, (congrArg Dossier.row h).trans hOld, SameSubmission.refl old,
      Nat.le_refl _⟩
  · have hEvents : after.eventsOf requestId = before.eventsOf requestId :=
      congrArg Dossier.events h
    rw [hEvents]

omit [Cryptography] in
theorem Kept.trans {requestId : PublicId} {first second third : Tables}
    (h : Kept requestId first second) (h' : Kept requestId second third) :
    Kept requestId first third := by
  refine ⟨?_, h.events.trans h'.events, ?_⟩
  · intro old hOld
    obtain ⟨middle, hMiddle, hSame, hRank⟩ := h.row old hOld
    obtain ⟨new, hNew, hSame', hRank'⟩ := h'.row middle hMiddle
    exact ⟨new, hNew, hSame.trans hSame', hRank.trans hRank'⟩
  · intro old hOld hClosed
    have hDossier := h.closed old hOld hClosed
    have hMiddle : second.request? requestId = some old :=
      (congrArg Dossier.row hDossier).trans hOld
    exact (h'.closed old hMiddle hClosed).trans hDossier

theorem Kept.transaction {call : Call} {deviceIdBytes result : ByteArr 16}
    {snapshots : Snapshots} {before after : Database}
    (h : call.transaction deviceIdBytes snapshots before = .ok (result, after))
    (requestId : PublicId) : Kept requestId before.toTables after.toTables := by
  cases Call.effect h requestId with
  | kept hKept => exact Kept.of_dossier hKept
  | created _ _ _ _ _ hAbsent _ =>
      have hNone := dossier_of_absent hAbsent
      refine ⟨?_, ?_, ?_⟩
      · intro old hOld
        rw [hAbsent] at hOld
        cases hOld
      · have hEvents : before.eventsOf requestId = [] :=
          congrArg Dossier.events hNone
        rw [hEvents]
        exact List.nil_prefix
      · intro old hOld _
        rw [hAbsent] at hOld
        cases hOld
  | moved old new reason hMoved hDrives =>
      have hBefore : ∀ row, before.request? requestId = some row → row = old :=
        fun row hRow => Option.some.inj (hRow.symm.trans hMoved.rowBefore)
      refine ⟨?_, ?_, ?_⟩
      · intro row hRow
        rw [hBefore row hRow]
        exact ⟨new, hMoved.rowAfter, hMoved.submission, hDrives.rank_lt.le⟩
      · obtain ⟨event, -, hEvents⟩ := hMoved.event
        exact ⟨_, hEvents.symm⟩
      · intro row hRow hClosed
        rw [hBefore row hRow, hDrives.source_open] at hClosed
        cases hClosed

theorem Kept.step (requestId : PublicId) (store : BrokerStore) (call : Call) :
    Kept requestId store.database.toTables (store.step call).database.toTables := by
  rcases store.step_cases call with hSame | hDone
  · rw [hSame]
    exact Kept.of_dossier rfl
  · exact Kept.transaction hDone requestId

/-- What any further calls keep of a request. -/
theorem Kept.run (requestId : PublicId) (store : BrokerStore) (later : List Call) :
    Kept requestId store.database.toTables
      (Foundation.run BrokerStore.step store later).database.toTables :=
  run_related (R := fun first second : BrokerStore =>
      Kept requestId first.database.toTables second.database.toTables)
    (fun _ => Kept.of_dossier rfl) Kept.trans (Kept.step requestId) store later

end Invariant

/-! ### The event chain of every request -/

/-- The events are the whole, intact chain of a request that is in `state`. -/
structure IntactChain [Cryptography] (requestId : PublicId) (state : RequestState)
    (chain : List LifecycleEvent) : Prop where
  nonempty : chain ≠ []
  sequences : chain.map (fun event => event.sequence.toNat) =
    List.range' 1 chain.length
  first : ∀ event, chain.head? = some event → event.state = .planning ∧
    event.reason = .created ∧ event.previousEventDigest = none
  linked : ∀ front first second back, chain = front ++ first :: second :: back →
    second.previousEventDigest = some first.eventDigest
  digests : ∀ event ∈ chain, event.eventDigest = lifecycleEventDigest requestId
    event.sequence event.previousEventDigest event.state event.reason
  last : ∀ event, chain.getLast? = some event → event.state = state

/-- A linked log from the creation of a request to its state is its intact chain. -/
theorem intact_of_linked [Cryptography] {requestId : PublicId}
    {state : RequestState} {log : List LifecycleEvent}
    (hLinked : (lifecycleLog requestId).Linked log)
    (hFirst : ∃ event, log.head? = some event ∧ event.state = .planning ∧
      event.reason = .created)
    (hLast : ∃ event, log.getLast? = some event ∧ event.state = state) :
    IntactChain requestId state log := by
  obtain ⟨first, hFirst, hPlanning, hCreated⟩ := hFirst
  obtain ⟨last, hLast, hState⟩ := hLast
  refine ⟨?_, hLinked.positions, ?_, ?_, ?_, ?_⟩
  · intro hEmpty
    rw [hEmpty] at hFirst
    cases hFirst
  · intro event hEvent
    rw [hFirst, Option.some.injEq] at hEvent
    subst hEvent
    obtain ⟨rest, hLog⟩ := List.head?_eq_some_iff.mp hFirst
    exact ⟨hPlanning, hCreated, (hLinked [] first rest hLog).previous⟩
  · intro front first second back hLog
    exact hLinked.previous_eq hLog
  · intro event hEvent
    exact hLinked.digest_eq hEvent
  · intro event hEvent
    rw [hLast, Option.some.injEq] at hEvent
    rw [← hEvent]
    exact hState

theorem StoredLog.intact [Cryptography] {requestId : PublicId}
    {state : RequestState} {rows : List EventRow} {log : List LifecycleEvent}
    (h : StoredLog requestId state rows log) : IntactChain requestId state log :=
  intact_of_linked h.linked h.first h.last

/-- A longer list of rows spells a longer log. -/
theorem StoredLog.extends [Cryptography] {requestId : PublicId}
    {state state' : RequestState} {rows rows' : List EventRow}
    {log log' : List LifecycleEvent} (h : StoredLog requestId state rows log)
    (h' : StoredLog requestId state' rows' log') (hRows : rows <+: rows') :
    ∃ added, log' = log ++ added := by
  have hPrefix : rows = rows'.take rows.length := List.prefix_iff_eq_take.mp hRows
  have hSpelled : (log'.take log.length).map (LifecycleEvent.toRow requestId) =
      log.map (LifecycleEvent.toRow requestId) := by
    rw [h.rows, h'.rows, List.length_map, ← List.map_take] at hPrefix
    exact hPrefix.symm
  -- Both lists are read back from the same rows.
  have hFits : ∀ event ∈ log'.take log.length, event.sequence.toNat < 2 ^ 63 :=
    fun event hEvent => h'.fits event (List.mem_of_mem_take hEvent)
  have hTaken : (Except.ok (log'.take log.length) : Except BrokerError _) =
      .ok log := by
    rw [← mapM_eventOfRow hFits, hSpelled, mapM_eventOfRow h.fits]
  have hLog : log'.take log.length = log := Except.ok.inj hTaken
  refine ⟨log'.drop log.length, ?_⟩
  calc
    log' = log'.take log.length ++ log'.drop log.length :=
      (List.take_append_drop _ _).symm
    _ = log ++ log'.drop log.length := by rw [hLog]

/-- The id of a request in a sound database is a public id. -/
theorem SoundDatabase.exists_publicId [Cryptography] {database : Database}
    (hSound : SoundDatabase database.toTables) {row : RequestRow}
    (hRow : row ∈ database.requests) :
    ∃ requestId : PublicId, requestId.asStr = row.requestId ∧
      database.request? requestId = some row := by
  have hId : isPublicId row.requestId = true :=
    hSound.requestIds row.requestId (List.mem_map_of_mem hRow)
  refine ⟨⟨row.requestId, hId⟩, rfl, ?_⟩
  exact (Table.lookup_eq_some_iff database.constraints.requestKey).mpr ⟨hRow, rfl⟩

/-- In every reachable store the events of every request are an intact chain that
ends in the state of the request, and every further run only adds to it. -/
theorem events_chain_intact [Cryptography] (calls later : List Call) :
    let store := run BrokerStore.step BrokerStore.empty calls
    ∀ row ∈ store.database.requests, ∃ requestId : PublicId,
      requestId.asStr = row.requestId ∧
      ∃ chain added, events requestId store.database.toTables = .ok chain ∧
        IntactChain requestId row.state chain ∧
        events requestId (run BrokerStore.step store later).database.toTables =
          .ok (chain ++ added) := by
  intro store row hRow
  have hSound : store.Sound := BrokerStore.sound_of_run calls
  have hSoundLater : (run BrokerStore.step store later).Sound :=
    run_invariant hSound BrokerStore.Sound.step later
  obtain ⟨requestId, hId, hLookup⟩ := hSound.exists_publicId hRow
  obtain ⟨chain, hChain⟩ := (hSound.requests requestId row hLookup).chain
  have hKept := Kept.run requestId store later
  obtain ⟨new, hNew, -, -⟩ := hKept.row row hLookup
  obtain ⟨chain', hChain'⟩ := (hSoundLater.requests requestId new hNew).chain
  obtain ⟨added, rfl⟩ := hChain.extends hChain' hKept.events
  exact ⟨requestId, hId, chain, added, hChain.events_eq, hChain.intact,
    hChain'.events_eq⟩

/-! ### The receipt of every closed request -/

/-- The bytes are an envelope that carries a receipt of this request in this state
and verifies under the pinned key and key ID. -/
def VerifiableReceipt [Cryptography] (pinned : IdentityRow) (requestId : PublicId)
    (state : RequestState) (bytes : Bytes) : Prop :=
  ∃ cose receipt, CoseSign1.decode bytes = .ok cose ∧
    Receipt.decode cose.payload = .ok receipt ∧
    requestId.bytes = .ok receipt.requestId ∧
    receipt.terminalState = receiptStateCode state ∧
    ∀ (key : VerificationKey) (policy : VerificationPolicy),
      key.kid = pinned.keyKid → key.publicKey.val = pinned.publicKey →
      policy.contentType = 3 → policy.domain = .receipt →
      policy.requiredRole ∈ key.roles →
      key.notBeforeUtc ≤ policy.nowUtc ∧ policy.nowUtc < key.notAfterUtc →
      cose.verify key policy = .ok ()

theorem receiptOf_eq_ok [Cryptography] {receiptId requestId : PublicId}
    {row : RequestRow} {metadata : MetadataRow} {state : RequestState}
    {nowUtc : Int64} {evidence : List CborValue} {receipt : Receipt}
    (h : receiptOf receiptId requestId row metadata state nowUtc evidence =
      .ok receipt) :
    requestId.bytes = .ok receipt.requestId ∧
      receipt.terminalState = receiptStateCode state := by
  simp only [receiptOf, bind_eq_ok_iff, pure_eq_ok, Except.ok.injEq] at h
  obtain ⟨_, -, _, -, _, -, bytes, hBytes, _, -, rfl⟩ := h
  exact ⟨hBytes, rfl⟩

/-- The envelope decodes to what was signed. -/
theorem signEnvelope_eq_ok [Cryptography] {signer : BrokerSigningKey}
    {payload bytes : Bytes} {contentType : UInt64} {domain : Domain}
    (h : signEnvelope signer payload contentType domain = .ok bytes) :
    ∃ cose, CoseSign1.sign payload signer.kid contentType domain signer.key =
      .ok cose ∧ cose.payload = payload ∧ CoseSign1.decode bytes = .ok cose := by
  rw [signEnvelope, mapError_eq_ok_iff, bind_eq_ok_iff] at h
  obtain ⟨cose, hSign, hEncode⟩ := h
  refine ⟨cose, hSign, ?_, CoseSign1.decode_eq_ok_iff_encode.mpr hEncode⟩
  obtain ⟨header, message, -, -, rfl⟩ := CoseSign1.sign_eq_ok_iff.mp hSign
  rfl

/-- The stored bytes decode to the receipt that was signed, in normal form. -/
theorem ReceiptMade.decodes [Cryptography] {signer : BrokerSigningKey}
    {requestId : PublicId} {state : RequestState} {nowUtc : Int64}
    {evidence : List CborValue} {row : RequestRow} {metadata : MetadataRow}
    {made : ReceiptRow}
    (h : ReceiptMade signer requestId state nowUtc evidence row metadata made) :
    ∃ receiptId receipt payload cose,
      receiptOf receiptId requestId row metadata state nowUtc evidence =
        .ok receipt ∧
      receipt.canonicalBytes = .ok payload ∧
      CoseSign1.sign payload signer.kid COSE_CONTENT_TYPE_RECEIPT .receipt
        signer.key = .ok cose ∧
      CoseSign1.decode made.coseBytes = .ok cose ∧
      Receipt.decode cose.payload = .ok receipt.normal := by
  obtain ⟨receiptId, receipt, payload, -, hReceipt, hPayload, hEnvelope⟩ := h.contents
  obtain ⟨cose, hSign, hSigned, hCose⟩ := signEnvelope_eq_ok hEnvelope
  refine ⟨receiptId, receipt, payload, cose, hReceipt, hPayload, hSign, hCose, ?_⟩
  rw [hSigned]
  exact Receipt.roundTrips.decode_of_canonicalBytes receipt payload hPayload

/-- A receipt made with the pinned key can be verified. -/
theorem Receipted.verifiable [Cryptography] (hVerifies : VerifiesItsSignatures)
    {identity : Option IdentityRow} {requestId : PublicId} {row : RequestRow}
    {made : ReceiptRow} (h : Receipted identity requestId row made) :
    ∃ pinned, identity = some pinned ∧
      VerifiableReceipt pinned requestId row.state made.coseBytes := by
  obtain ⟨pinned, signer, nowUtc, evidence, metadata, hPinned, hNames, hMade⟩ := h
  obtain ⟨receiptId, receipt, payload, cose, hReceipt, hPayload, hSign, hCose,
    hDecode⟩ := hMade.decodes
  obtain ⟨hId, hState⟩ := receiptOf_eq_ok hReceipt
  refine ⟨pinned, hPinned, cose, receipt.normal, hCose, hDecode, hId, hState, ?_⟩
  intro key policy hKid hPublic hType hDomain hRole hTime
  apply CoseSign1.verify_sign hVerifies hSign (hKid.trans hNames.1) _ hType hDomain
    hRole hTime
  exact Subtype.ext (hPublic.trans hNames.2)

/-- In every reachable store a request is closed exactly when one receipt names it;
that receipt states the state of the request, is the one copied into its row, and
can be verified with the pinned key; and no further run changes a closed
request. -/
theorem terminal_receipt_unique [Cryptography] (hVerifies : VerifiesItsSignatures)
    (calls later : List Call) :
    let store := run BrokerStore.step BrokerStore.empty calls
    ∀ row ∈ store.database.requests, ∃ requestId : PublicId,
      requestId.asStr = row.requestId ∧
      (row.state.isTerminal = true ↔
        (store.database.receiptsOf requestId).length = 1) ∧
      (row.state.isTerminal = true →
        (∃ made pinned, store.database.receiptsOf requestId = [made] ∧
          made.terminalState = row.state.asDb ∧
          row.receiptBytes = some made.coseBytes ∧
          store.database.brokerIdentity = some pinned ∧
          VerifiableReceipt pinned requestId row.state made.coseBytes) ∧
        (run BrokerStore.step store later).database.dossier requestId =
          store.database.dossier requestId) := by
  intro store row hRow
  have hSound : store.Sound := BrokerStore.sound_of_run calls
  obtain ⟨requestId, hId, hLookup⟩ := hSound.exists_publicId hRow
  have hRequest := hSound.requests requestId row hLookup
  refine ⟨requestId, hId, ⟨?_, ?_⟩, ?_⟩
  · intro hClosed
    obtain ⟨made, -, hReceipts, -⟩ := hRequest.closed hClosed
    have hOne : store.database.receiptsOf requestId = [made] := hReceipts
    rw [hOne]
    rfl
  · intro hOne
    by_contra hOpen
    obtain ⟨hReceipts, -⟩ := hRequest.opened (Bool.eq_false_iff.mpr hOpen)
    have hNone : store.database.receiptsOf requestId = [] := hReceipts
    rw [hNone] at hOne
    cases hOne
  · intro hClosed
    obtain ⟨made, hMade, hReceipts, hBytes⟩ := hRequest.closed hClosed
    obtain ⟨pinned, hPinned, hVerifiable⟩ := hMade.verifiable hVerifies
    obtain ⟨_, _, _, _, _, -, -, hReceiptRow⟩ := hMade
    exact ⟨⟨made, pinned, hReceipts, hReceiptRow.terminalState, hBytes, hPinned,
      hVerifiable⟩, (Kept.run requestId store later).closed row hLookup hClosed⟩

/-- A request of one package by one user. -/
def sampleRequest : SubmitPackageInstall where
  requestId := ⟨"AAAAAAAAAAAAAAAAAAAAAA", by decide +kernel⟩
  requesterUid := ⟨1000⟩
  operationKey := ⟨"operation-key-01", by decide +kernel⟩
  packageName := ⟨"jq", by decide +kernel⟩
  generation := 0

def allowAll : PackageInstallPolicy := fun _ _ => .allow

def sampleSigner : BrokerSigningKey :=
  ⟨ByteArr.fill 32 7⟩

/-- The sample request is found invalid by the planner. -/
def invalidRun : List Call :=
  [.initializeIdentity sampleSigner (some (ByteArr.fill 16 9)),
    .submit sampleRequest allowAll,
    .transitionTerminal sampleRequest.requestId .planning .invalid sampleSigner 5
      (some (ByteArr.fill 16 3))]

theorem keyedHash_verifiesItsSignatures :
    @VerifiesItsSignatures keyedHashCryptography := by
  intro seed message
  exact decide_eq_true rfl

/-- In the sample run the request is closed, and its receipt can be verified. -/
theorem terminal_receipt_unique_sample :
    ∃ (row : RequestRow) (requestId : PublicId) (bytes : Bytes)
      (pinned : IdentityRow),
      row ∈ (run (@BrokerStore.step keyedHashCryptography) BrokerStore.empty
        invalidRun).database.requests ∧
      row.state = .invalid ∧ row.receiptBytes = some bytes ∧
      @VerifiableReceipt keyedHashCryptography pinned requestId row.state bytes := by
  have hStates : (run (@BrokerStore.step keyedHashCryptography) BrokerStore.empty
      invalidRun).database.requests.map RequestRow.state = [.invalid] := by
    decide +kernel
  have hReceipts := @terminal_receipt_unique keyedHashCryptography
    keyedHash_verifiesItsSignatures invalidRun []
  generalize run (@BrokerStore.step keyedHashCryptography) BrokerStore.empty
    invalidRun = store at hStates hReceipts ⊢
  have hMem : RequestState.invalid ∈ store.database.requests.map RequestRow.state := by
    rw [hStates]
    exact List.mem_cons_self
  obtain ⟨row, hRow, hState⟩ := List.mem_map.mp hMem
  obtain ⟨requestId, -, -, hClosed⟩ := hReceipts row hRow
  have hTerminal : row.state.isTerminal = true := by
    rw [hState]
    rfl
  obtain ⟨⟨made, pinned, -, -, hBytes, -, hVerifiable⟩, -⟩ := hClosed hTerminal
  exact ⟨row, requestId, made.coseBytes, pinned, hRow, hState, hBytes, hVerifiable⟩

end Broker
end RootPermit
