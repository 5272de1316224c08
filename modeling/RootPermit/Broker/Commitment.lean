import RootPermit.Broker.Record

/-!
# What a chain commits to

An event digest hashes the id of the request and the fields of the event one after the
other, without lengths, and an absent predecessor as zeros; the digest of a receipt
draft does the same with the fields of the draft.  On the histories that the store and
the record can reach nothing is lost by that: only the name of the state varies in
length, and only the first event has no predecessor.

* `eventPreimage_injective`, `draftPreimage_injective` — what the bytes determine;
* `ReachableChain.linked` — every history is a linked log;
* `chain_of_last` — the last digest commits to the chain and its request;
* `history_committed` — and the digest of a draft to the whole record.

SHA-256 is only assumed not to collide on the bytes that the two compared histories
have hashed.
-/

namespace RootPermit
namespace Broker

open Foundation Protocol Record

/-! ### Preimages -/

/-- The bytes that are hashed for an event. -/
def eventPreimage (requestId : PublicId) (event : LifecycleEvent) : Bytes :=
  utf8 "rootpermit/v1/local-lifecycle-event\x00" ++ utf8 requestId.asStr ++
    beBytes 8 event.sequence.toNat ++
    (event.previousEventDigest.getD (ByteArr.fill 32 0)).val ++
    utf8 event.state.asDb ++ beBytes 8 event.reason.code.toNat

/-- The bytes that are hashed for a receipt draft. -/
def draftPreimage (draft : ReceiptDraft) : Bytes :=
  utf8 "rootpermit/v1/local-receipt-draft\x00" ++ utf8 draft.receiptId.asStr ++
    utf8 draft.requestId.asStr ++ draft.requestDigest.val ++
    (draft.planDigest.getD (ByteArr.fill 32 0)).val ++
    utf8 draft.terminalState.asDb ++ draft.finalEventDigest.val

theorem PublicId.eq_of_utf8 {first second : PublicId}
    (h : utf8 first.asStr = utf8 second.asStr) : first = second :=
  PublicId.ext_iff'.mpr (utf8_injective h)

theorem toNat_of_beBytes {first second : UInt64}
    (h : beBytes 8 first.toNat = beBytes 8 second.toNat) : first = second := by
  have hValue := congrArg beValue h
  rw [beValue_beBytes_of_lt first.toNat_lt, beValue_beBytes_of_lt second.toNat_lt]
    at hValue
  exact UInt64.toNat_inj.mp hValue

/-- Two digests of the same length are compared at a fixed place. -/
theorem ByteArr.append_inj {length : Nat} {first second : ByteArr length}
    {rest rest' : Bytes} (h : first.val ++ rest = second.val ++ rest') :
    first = second ∧ rest = rest' := by
  obtain ⟨hFirst, hRest⟩ :=
    List.append_inj h (first.property.trans second.property.symm)
  exact ⟨Subtype.ext hFirst, hRest⟩

/-- The hashed bytes determine the request and, up to an absent predecessor, the
event. -/
theorem eventPreimage_injective {requestId otherId : PublicId}
    {event other : LifecycleEvent}
    (h : eventPreimage requestId event = eventPreimage otherId other) :
    requestId = otherId ∧ event.sequence = other.sequence ∧
      event.previousEventDigest.getD (ByteArr.fill 32 0) =
        other.previousEventDigest.getD (ByteArr.fill 32 0) ∧
      event.state = other.state ∧ event.reason = other.reason := by
  simp only [eventPreimage, List.append_assoc] at h
  have hFields := List.append_cancel_left h
  obtain ⟨hId, hFields⟩ := List.append_inj hFields
    ((PublicId.length_utf8 requestId).trans (PublicId.length_utf8 otherId).symm)
  obtain ⟨hSequence, hFields⟩ := List.append_inj hFields (by simp)
  obtain ⟨hPrevious, hFields⟩ := ByteArr.append_inj hFields
  -- The name of the state has no fixed length, but what follows it has.
  obtain ⟨hState, hReason⟩ := List.append_inj' hFields (by simp)
  exact ⟨PublicId.eq_of_utf8 hId, toNat_of_beBytes hSequence, hPrevious,
    RequestState.asDb_injective (utf8_injective hState),
    TransitionReason.code_injective (toNat_of_beBytes hReason)⟩

/-- The hashed bytes determine the draft up to an absent plan. -/
theorem draftPreimage_injective {draft other : ReceiptDraft}
    (h : draftPreimage draft = draftPreimage other) :
    draft.receiptId = other.receiptId ∧ draft.requestId = other.requestId ∧
      draft.requestDigest = other.requestDigest ∧
      draft.planDigest.getD (ByteArr.fill 32 0) =
        other.planDigest.getD (ByteArr.fill 32 0) ∧
      draft.terminalState = other.terminalState ∧
      draft.finalEventDigest = other.finalEventDigest := by
  simp only [draftPreimage, List.append_assoc] at h
  have hFields := List.append_cancel_left h
  obtain ⟨hReceipt, hFields⟩ := List.append_inj hFields
    ((PublicId.length_utf8 _).trans (PublicId.length_utf8 _).symm)
  obtain ⟨hRequest, hFields⟩ := List.append_inj hFields
    ((PublicId.length_utf8 _).trans (PublicId.length_utf8 _).symm)
  obtain ⟨hDigest, hFields⟩ := ByteArr.append_inj hFields
  obtain ⟨hPlan, hFields⟩ := ByteArr.append_inj hFields
  obtain ⟨hState, hFinal⟩ := List.append_inj' hFields
    (draft.finalEventDigest.property.trans other.finalEventDigest.property.symm)
  exact ⟨PublicId.eq_of_utf8 hReceipt, PublicId.eq_of_utf8 hRequest, hDigest, hPlan,
    RequestState.asDb_injective (utf8_injective hState), Subtype.ext hFinal⟩

/-! ### Histories -/

section Histories

variable [Cryptography]

/-- A record that actions can reach. -/
def Record.LifecycleRecord.Reachable (record : LifecycleRecord) : Prop :=
  ∃ requestId receiptId requestedPackage requestDigest generation deadlineMonoNs
    actions, record = run LifecycleRecord.step (LifecycleRecord.new requestId receiptId
      requestedPackage requestDigest generation deadlineMonoNs) actions

/-- The event chains of requests that the store and the record can reach. -/
inductive ReachableChain : PublicId → List LifecycleEvent → Prop
  | stored (calls : List Call) (requestId : PublicId) (chain : List LifecycleEvent)
      (hEvents : events requestId
        (run BrokerStore.step BrokerStore.empty calls).database.toTables = .ok chain) :
      ReachableChain requestId chain
  | recorded (record : LifecycleRecord) (hReachable : record.Reachable) :
      ReachableChain record.requestId record.events

theorem Record.LifecycleRecord.Reachable.coherent {record : LifecycleRecord}
    (h : record.Reachable) : Coherent record := by
  obtain ⟨requestId, receiptId, requestedPackage, requestDigest, generation,
    deadlineMonoNs, actions, rfl⟩ := h
  exact run_invariant (Coherent.new requestId receiptId requestedPackage requestDigest
    generation deadlineMonoNs) Coherent.step actions

/-- Every such chain is a linked log of its request. -/
theorem ReachableChain.linked {requestId : PublicId} {chain : List LifecycleEvent}
    (h : ReachableChain requestId chain) : (lifecycleLog requestId).Linked chain := by
  cases h with
  | recorded record hReachable => exact hReachable.coherent.linked
  | stored calls _ _ hEvents =>
      have hSound := BrokerStore.sound_of_run calls
      generalize run BrokerStore.step BrokerStore.empty calls = store at hEvents hSound
      cases hRow : store.database.request? requestId with
      | none =>
          have hNone : store.database.eventsOf requestId = [] :=
            congrArg Dossier.events (dossier_of_absent hRow)
          rw [events, hNone] at hEvents
          change Except.ok [] = Except.ok chain at hEvents
          rw [← Except.ok.inj hEvents]
          exact LogFormat.linked_nil
      | some row =>
          obtain ⟨log, hLog⟩ := (hSound.requests requestId row hRow).chain
          have hRead : events requestId store.database.toTables = .ok log :=
            hLog.events_eq
          rw [hRead, Except.ok.injEq] at hEvents
          rw [← hEvents]
          exact hLog.linked

/-- The bytes that were hashed for a chain. -/
def chainPreimages (requestId : PublicId) (chain : List LifecycleEvent) : Set Bytes :=
  {bytes | ∃ event ∈ chain, bytes = eventPreimage requestId event}

/-- The last digest of a linked chain commits to the request and to all events. -/
theorem chain_of_last {requestId otherId : PublicId}
    {chain other : List LifecycleEvent} {last last' : LifecycleEvent}
    (hChain : (lifecycleLog requestId).Linked chain)
    (hOther : (lifecycleLog otherId).Linked other)
    (hInjective : Set.InjOn sha256
      (chainPreimages requestId chain ∪ chainPreimages otherId other))
    (hLast : chain.getLast? = some last) (hLast' : other.getLast? = some last')
    (hDigest : last.eventDigest = last'.eventDigest) :
    requestId = otherId ∧ chain = other := by
  have hFields : ∀ event ∈ chain, ∀ event' ∈ other,
      event.eventDigest = event'.eventDigest →
        requestId = otherId ∧ event = event' := by
    intro event hEvent event' hEvent' hSame
    have hHash : event.eventDigest = sha256 (eventPreimage requestId event) :=
      hChain.digest_eq hEvent
    have hHash' : event'.eventDigest = sha256 (eventPreimage otherId event') :=
      hOther.digest_eq hEvent'
    rw [hHash, hHash'] at hSame
    obtain ⟨hId, hSequence, hPrevious, hState, hReason⟩ := eventPreimage_injective
      (hInjective (Or.inl ⟨event, hEvent, rfl⟩) (Or.inr ⟨event', hEvent', rfl⟩) hSame)
    -- At the same place either both events have a predecessor or none has.
    have hFirst : event.previousEventDigest = none ↔
        event'.previousEventDigest = none := by
      have hNone : event.previousEventDigest = none ↔ event.sequence.toNat = 1 :=
        hChain.previous_eq_none_iff hEvent
      have hNone' : event'.previousEventDigest = none ↔ event'.sequence.toNat = 1 :=
        hOther.previous_eq_none_iff hEvent'
      rw [hNone, hNone', hSequence]
    have hLinks : event.previousEventDigest = event'.previousEventDigest := by
      cases hLeft : event.previousEventDigest with
      | none => exact (hFirst.mp hLeft).symm
      | some digest =>
          cases hRight : event'.previousEventDigest with
          | none =>
              rw [hFirst.mpr hRight] at hLeft
              cases hLeft
          | some digest' =>
              rw [hLeft, hRight] at hPrevious
              exact congrArg some hPrevious
    refine ⟨hId, ?_⟩
    obtain ⟨sequence, previous, state, reason, digest⟩ := event
    obtain ⟨sequence', previous', state', reason', digest'⟩ := event'
    simp only at hSequence hLinks hState hReason hHash hHash' hSame
    rw [LifecycleEvent.mk.injEq]
    exact ⟨hSequence, hLinks, hState, hReason, hHash.trans (hSame.trans hHash'.symm)⟩
  have hSame : chain = other := by
    refine hChain.eq_of_last hOther rfl
      (fun event hEvent event' hEvent' h => (hFields event hEvent event' hEvent' h).2) ?_
    rw [hLast, hLast']
    exact congrArg some hDigest
  exact ⟨(hFields last (List.mem_of_getLast? hLast) last' (List.mem_of_getLast? hLast')
    hDigest).1, hSame⟩

/-! ### Receipts -/

/-- The bytes that were hashed for the events and the receipt of a record. -/
def recordPreimages (record : LifecycleRecord) : Set Bytes :=
  chainPreimages record.requestId record.events ∪
    {bytes | ∃ draft ∈ record.receipt, bytes = draftPreimage draft}

omit [Cryptography] in
/-- Zeros never stand for the digest of a plan in a draft. -/
theorem receiptPlanDigest_eq_of_getD {record other : LifecycleRecord}
    (h : record.receiptPlanDigest.getD (ByteArr.fill 32 0) =
      other.receiptPlanDigest.getD (ByteArr.fill 32 0)) :
    record.receiptPlanDigest = other.receiptPlanDigest := by
  have hNonzero : ∀ {record : LifecycleRecord} {digest : Digest},
      record.receiptPlanDigest = some digest → digest ≠ ByteArr.fill 32 0 := by
    intro record digest hDigest
    obtain ⟨plan, -, hPlan⟩ := Option.bind_eq_some_iff.mp hDigest
    split at hPlan
    · rename_i hOther
      exact Option.some.inj hPlan ▸ hOther
    · cases hPlan
  cases hLeft : record.receiptPlanDigest with
  | none =>
      cases hRight : other.receiptPlanDigest with
      | none => rfl
      | some digest =>
          rw [hLeft, hRight] at h
          exact absurd h.symm (hNonzero hRight)
  | some digest =>
      cases hRight : other.receiptPlanDigest with
      | none =>
          rw [hLeft, hRight] at h
          exact absurd h (hNonzero hLeft)
      | some digest' =>
          rw [hLeft, hRight] at h
          exact congrArg some h

/-- Records with the same events and the same plan digest in their receipts have plans
of the same digest. -/
theorem planDigest_eq_of_coherent {record other : LifecycleRecord}
    (hRecord : Coherent record) (hOther : Coherent other)
    (hEvents : record.events = other.events)
    (hDigest : record.receiptPlanDigest = other.receiptPlanDigest) :
    record.plan.map FrozenPlan.planDigest = other.plan.map FrozenPlan.planDigest := by
  have hPlans : record.plan.isSome = true ↔ other.plan.isSome = true := by
    rw [hRecord.plan, hOther.plan, hEvents]
  unfold LifecycleRecord.receiptPlanDigest at hDigest
  cases hLeft : record.plan with
  | none =>
      cases hRight : other.plan with
      | none => rfl
      | some plan =>
          rw [hLeft, hRight] at hPlans
          exact absurd (hPlans.mpr rfl) (by decide)
  | some plan =>
      cases hRight : other.plan with
      | none =>
          rw [hLeft, hRight] at hPlans
          exact absurd (hPlans.mp rfl) (by decide)
      | some plan' =>
          rw [hLeft, hRight, Option.bind_some, Option.bind_some] at hDigest
          rw [Option.map_some, Option.map_some, Option.some.injEq]
          split at hDigest <;> split at hDigest
          · exact Option.some.inj hDigest
          · cases hDigest
          · cases hDigest
          · rename_i hZero hZero'
            rw [not_not.mp hZero, not_not.mp hZero']

/-- Equal last digests of two chains that the store or the record can reach mean equal
requests and equal chains, and equal digests of two drafts mean equal drafts of records
with the same plan digest, state and events. -/
theorem history_committed :
    (∀ requestId otherId chain other last last', ReachableChain requestId chain →
      ReachableChain otherId other →
      Set.InjOn sha256 (chainPreimages requestId chain ∪ chainPreimages otherId other) →
      chain.getLast? = some last → other.getLast? = some last' →
      last.eventDigest = last'.eventDigest → requestId = otherId ∧ chain = other) ∧
    ∀ record other : LifecycleRecord, record.Reachable → other.Reachable →
      Set.InjOn sha256 (recordPreimages record ∪ recordPreimages other) →
      ∀ draft ∈ record.receipt, ∀ draft' ∈ other.receipt,
        draft.receiptDigest = draft'.receiptDigest →
        draft = draft' ∧
          (record.receiptId = other.receiptId ∧ record.requestId = other.requestId ∧
            record.requestDigest = other.requestDigest ∧
            record.plan.map FrozenPlan.planDigest =
              other.plan.map FrozenPlan.planDigest ∧
            record.state = other.state ∧ record.events = other.events) := by
  refine ⟨?_, ?_⟩
  · intro requestId otherId chain other last last' hChain hOther hInjective hLast hLast'
      hDigest
    exact chain_of_last hChain.linked hOther.linked hInjective hLast hLast' hDigest
  · intro record other hRecord hOther hInjective draft hDraft draft' hDraft' hSame
    have hCoherent := hRecord.coherent
    have hCoherent' := hOther.coherent
    have hCarries := hCoherent.representation.draft draft hDraft
    have hCarries' := hCoherent'.representation.draft draft' hDraft'
    have hHash : draft.receiptDigest = sha256 (draftPreimage draft) := hCarries.digest
    have hHash' : draft'.receiptDigest = sha256 (draftPreimage draft') :=
      hCarries'.digest
    have hPreimages : draftPreimage draft = draftPreimage draft' := by
      apply hInjective (Or.inl (Or.inr ⟨draft, hDraft, rfl⟩))
        (Or.inr (Or.inr ⟨draft', hDraft', rfl⟩))
      rw [← hHash, ← hHash', hSame]
    obtain ⟨hReceiptId, hRequestId, hRequestDigest, hPlan, hState, hFinal⟩ :=
      draftPreimage_injective hPreimages
    have hPlanDigest : record.receiptPlanDigest = other.receiptPlanDigest := by
      apply receiptPlanDigest_eq_of_getD
      rw [← hCarries.planDigest, ← hCarries'.planDigest]
      exact hPlan
    obtain ⟨last, hLast, hLastDigest⟩ := hCarries.finalEvent
    obtain ⟨last', hLast', hLastDigest'⟩ := hCarries'.finalEvent
    -- The final digests are equal, so the chains are.
    have hChains : record.requestId = other.requestId ∧ record.events = other.events := by
      refine chain_of_last hCoherent.linked hCoherent'.linked
        (hInjective.mono (Set.union_subset_union Set.subset_union_left
          Set.subset_union_left)) hLast hLast' ?_
      rw [← hLastDigest, ← hLastDigest', hFinal]
    have hDraftPlan : draft.planDigest = draft'.planDigest := by
      rw [hCarries.planDigest, hCarries'.planDigest, hPlanDigest]
    refine ⟨?_, ?_, hChains.1, ?_, ?_, ?_, hChains.2⟩
    · obtain ⟨receiptId, requestId, requestDigest, planDigest, state, final, digest⟩ :=
        draft
      obtain ⟨receiptId', requestId', requestDigest', planDigest', state', final',
        digest'⟩ := draft'
      rw [ReceiptDraft.mk.injEq]
      exact ⟨hReceiptId, hRequestId, hRequestDigest, hDraftPlan, hState, hFinal, hSame⟩
    · rw [← hCarries.receiptId, ← hCarries'.receiptId, hReceiptId]
    · rw [← hCarries.requestDigest, ← hCarries'.requestDigest, hRequestDigest]
    · exact planDigest_eq_of_coherent hCoherent hCoherent' hChains.2 hPlanDigest
    · rw [← hCarries.terminalState, ← hCarries'.terminalState, hState]

end Histories

theorem isPublicId_sampleReceiptId : isPublicId "AQEBAQEBAQEBAQEBAQEBAQ" = true := by
  decide +kernel

/-- The sample request as a record. -/
def sampleRecord [Cryptography] (actions : List Action) : LifecycleRecord :=
  run LifecycleRecord.step
    (LifecycleRecord.new sampleRequest.requestId
      ⟨"AQEBAQEBAQEBAQEBAQEBAQ", isPublicId_sampleReceiptId⟩ sampleRequest.packageName
      (ByteArr.fill 32 1) 0 1000) actions

theorem sampleRecord_reachable [Cryptography] (actions : List Action) :
    (sampleRecord actions).Reachable :=
  ⟨_, _, _, _, _, _, actions, rfl⟩

/-- The list of what was hashed for a record. -/
def hashedBytes (record : LifecycleRecord) : List Bytes :=
  record.events.map (eventPreimage record.requestId) ++
    record.receipt.toList.map draftPreimage

theorem recordPreimages_subset (record : LifecycleRecord) :
    recordPreimages record ⊆ {bytes | bytes ∈ hashedBytes record} := by
  intro bytes hBytes
  rcases hBytes with ⟨event, hEvent, rfl⟩ | ⟨draft, hDraft, rfl⟩
  · exact List.mem_append_left _ (List.mem_map_of_mem hEvent)
  · exact List.mem_append_right _ (List.mem_map_of_mem (Option.mem_toList.mpr hDraft))

/-- Hashing does not collide on a list when it does not on any two of its members. -/
theorem injOn_of_list [Cryptography] {preimages : Set Bytes} {list : List Bytes}
    (hListed : preimages ⊆ {bytes | bytes ∈ list})
    (h : ∀ first ∈ list, ∀ second ∈ list, sha256 first = sha256 second →
      first = second) : Set.InjOn sha256 preimages :=
  fun _ hFirst _ hSecond hSame => h _ (hListed hFirst) _ (hListed hSecond) hSame

/-- The record of the sample request and the store begin its chain alike, and two
records that the planner found invalid for different reasons have the same draft. -/
theorem history_committed_sample :
    let _ : Cryptography := keyedHashCryptography
    events sampleRequest.requestId (run BrokerStore.step BrokerStore.empty
        [.submit sampleRequest allowAll]).database.toTables =
        .ok (sampleRecord []).events ∧
      (sampleRecord [.applyPlan (.invalid 1)]).receipt =
        (sampleRecord [.applyPlan (.invalid 2)]).receipt := by
  intro _
  have hCommitted := history_committed
  constructor
  · have hChain : (events sampleRequest.requestId (run BrokerStore.step
        BrokerStore.empty [.submit sampleRequest allowAll]).database.toTables).map
          (fun chain => (chain.map (eventPreimage sampleRequest.requestId),
            chain.getLast?.map LifecycleEvent.eventDigest)) =
        .ok ((sampleRecord []).events.map (eventPreimage sampleRequest.requestId),
          (sampleRecord []).events.getLast?.map LifecycleEvent.eventDigest) := by
      decide +kernel
    obtain ⟨chain, hEvents, hPair⟩ := map_eq_ok_iff.mp hChain
    obtain ⟨hPreimages, hDigests⟩ := Prod.mk.inj hPair
    obtain ⟨last', hLast'⟩ : ∃ last, (sampleRecord []).events.getLast? = some last :=
      ⟨_, rfl⟩
    rw [hLast'] at hDigests
    obtain ⟨last, hLast, hDigest⟩ := Option.map_eq_some_iff.mp hDigests
    have hInjective : Set.InjOn sha256 (chainPreimages sampleRequest.requestId chain ∪
        chainPreimages sampleRequest.requestId (sampleRecord []).events) := by
      have hListed : chainPreimages sampleRequest.requestId chain ∪
          chainPreimages sampleRequest.requestId (sampleRecord []).events ⊆
            {bytes | bytes ∈ (sampleRecord []).events.map
              (eventPreimage sampleRequest.requestId)} := by
        intro bytes hBytes
        rcases hBytes with ⟨event, hEvent, rfl⟩ | ⟨event, hEvent, rfl⟩
        · show _ ∈ _
          rw [← hPreimages]
          exact List.mem_map_of_mem hEvent
        · exact List.mem_map_of_mem hEvent
      exact injOn_of_list hListed (by decide +kernel)
    have hSame := (hCommitted.1 sampleRequest.requestId sampleRequest.requestId chain
      (sampleRecord []).events last last' (.stored _ _ chain hEvents)
      (.recorded _ (sampleRecord_reachable [])) hInjective hLast hLast' hDigest).2
    rw [hEvents, hSame]
  · have hAlike : hashedBytes (sampleRecord [.applyPlan (.invalid 1)]) =
          hashedBytes (sampleRecord [.applyPlan (.invalid 2)]) ∧
        (sampleRecord [.applyPlan (.invalid 1)]).receipt.map
            ReceiptDraft.receiptDigest =
          (sampleRecord [.applyPlan (.invalid 2)]).receipt.map
            ReceiptDraft.receiptDigest := by
      decide +kernel
    obtain ⟨hHashed, hDigests⟩ := hAlike
    obtain ⟨draft', hDraft'⟩ : ∃ draft,
        (sampleRecord [.applyPlan (.invalid 2)]).receipt = some draft := ⟨_, rfl⟩
    rw [hDraft'] at hDigests
    obtain ⟨draft, hDraft, hDigest⟩ := Option.map_eq_some_iff.mp hDigests
    have hListed : recordPreimages (sampleRecord [.applyPlan (.invalid 1)]) ∪
        recordPreimages (sampleRecord [.applyPlan (.invalid 2)]) ⊆
          {bytes | bytes ∈ hashedBytes (sampleRecord [.applyPlan (.invalid 2)])} := by
      refine Set.union_subset ?_ (recordPreimages_subset _)
      exact hHashed ▸ recordPreimages_subset _
    have hSame := (hCommitted.2 _ _ (sampleRecord_reachable [.applyPlan (.invalid 1)])
      (sampleRecord_reachable [.applyPlan (.invalid 2)])
      (injOn_of_list hListed (by decide +kernel)) draft hDraft draft' hDraft'
      hDigest).1
    rw [hDraft, hDraft', hSame]

end Broker
end RootPermit
