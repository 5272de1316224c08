import RootPermit.Broker.Soundness

/-!
# Work across a reboot

A new boot expires the work that has not started: its monotonic deadline does not
survive the reboot.  The store tells the work of earlier boots by an epoch in the
row of each request.  No operation ever writes that column, so it holds zero in
every row (`EpochsZero`).  A boot of epoch zero after another one therefore finds
no work and leaves all of it open (`work_survives_epoch_zero`); every other boot
expires all of it (`reboot_expires_work`).
-/

namespace RootPermit
namespace Broker

open Foundation Protocol

/-- The states of a request before its execution. -/
def UNSTARTED : List RequestState :=
  [.planning, .pending, .approved]

/-- The requests that have not started. -/
def Tables.unstarted (tables : Tables) : List RequestRow :=
  tables.requests.filter fun row => decide (row.state ∈ UNSTARTED)

/-- What a boot of a new epoch has to do: it expires the work that has not started,
each request with one event and one receipt, and leaves all other requests alone. -/
structure ExpiresWork (bootEpoch : UInt64) (count : Nat) (before after : Tables) :
    Prop where
  noneLeft : after.unstarted = []
  count : count = before.unstarted.length
  requestIds : after.requestIds = before.requestIds
  expired : ∀ requestId row, before.request? requestId = some row →
    row.state ∈ UNSTARTED →
    ∃ new event made, after.request? requestId = some new ∧ new.state = .expired ∧
      (event.state = .expired ∧ event.reason = .expired) ∧
      after.eventsOf requestId =
        before.eventsOf requestId ++ [LifecycleEvent.toRow requestId event] ∧
      before.receiptsOf requestId = [] ∧ after.receiptsOf requestId = [made] ∧
      made.terminalState = RequestState.expired.asDb
  epoch : after.brokerMetadata.bootEpoch.toInt = bootEpoch.toNat
  others : ∀ requestId row, before.request? requestId = some row →
    row.state ∉ UNSTARTED → after.dossier requestId = before.dossier requestId

/-! ### The epoch of every row -/

/-- Every request carries the default epoch. -/
def EpochsZero (tables : Tables) : Prop :=
  ∀ requestId row, tables.request? requestId = some row → row.bootEpoch = 0

section Epochs

variable [Cryptography]

theorem EpochsZero.step (store : BrokerStore) (call : Call)
    (h : EpochsZero store.database.toTables) :
    EpochsZero (store.step call).database.toTables := by
  intro requestId row hRow
  rcases store.step_cases call with hSame | hDone
  · rw [hSame] at hRow
    exact h requestId row hRow
  cases Call.effect hDone requestId with
  | kept hKept _ =>
      exact h requestId row ((congrArg Dossier.row hKept).symm.trans hRow)
  | created request policy generation _ _ _ hCreated =>
      have hNew : row = newRequest _ request generation :=
        Option.some.inj (hRow.symm.trans (congrArg Dossier.row hCreated))
      rw [hNew]
      rfl
  | moved old new reason hMoved _ =>
      have hNew : row = new := Option.some.inj (hRow.symm.trans hMoved.rowAfter)
      rw [hNew, hMoved.submission.bootEpoch]
      exact h requestId old hMoved.rowBefore

theorem EpochsZero.of_run (calls : List Call) :
    EpochsZero (run BrokerStore.step BrokerStore.empty calls).database.toTables := by
  have hStart : EpochsZero BrokerStore.empty.database.toTables := by
    intro requestId row hRow
    cases hRow
  exact run_invariant
    (I := fun store : BrokerStore => EpochsZero store.database.toTables) hStart
    EpochsZero.step calls

/-- A boot of another epoch than zero finds all work; a boot of epoch zero none. -/
theorem workToExpire_eq {database : Database}
    (hSound : SoundDatabase database.toTables)
    (hZero : EpochsZero database.toTables) (epoch : Int64) :
    workToExpire epoch database.toTables =
      if epoch = 0 then []
      else database.unstarted.map RequestRow.requestId := by
  have hRow : ∀ row ∈ database.requests, row.bootEpoch = 0 := by
    intro row hMem
    obtain ⟨requestId, -, hLookup⟩ := hSound.exists_publicId hMem
    exact hZero requestId row hLookup
  unfold workToExpire Tables.unstarted
  by_cases hEpoch : epoch = 0
  · rw [if_pos hEpoch, List.map_eq_nil_iff, List.filter_eq_nil_iff]
    intro row hMem
    simp [hRow row hMem, hEpoch]
  · rw [if_neg hEpoch]
    congr 1
    apply List.filter_congr
    intro row hMem
    have hOther : row.bootEpoch ≠ epoch := by
      rw [hRow row hMem]
      exact fun hSame => hEpoch hSame.symm
    simp [hOther, UNSTARTED]

end Epochs

/-! ### What a boot expires -/

/-- The requests that have not started are those with such a row. -/
theorem mem_unstarted_iff {database : Database} {requestId : PublicId}
    {row : RequestRow} (hRow : database.request? requestId = some row) :
    requestId.asStr ∈ database.unstarted.map RequestRow.requestId ↔
      row.state ∈ UNSTARTED := by
  constructor
  · intro hMem
    obtain ⟨found, hFound, hId⟩ := List.mem_map.mp hMem
    obtain ⟨hStored, hState⟩ := List.mem_filter.mp hFound
    have hLookup : database.request? requestId = some found :=
      (Table.lookup_eq_some_iff database.constraints.requestKey).mpr ⟨hStored, hId⟩
    rw [hRow, Option.some.injEq] at hLookup
    rw [hLookup]
    exact of_decide_eq_true hState
  · intro hState
    refine List.mem_map.mpr ⟨row, ?_, Table.column_of_lookup hRow⟩
    exact List.mem_filter.mpr ⟨Table.mem_of_lookup hRow, decide_eq_true hState⟩

section Boot

variable [Cryptography] {before after : Database} {bootEpoch : UInt64}
  {signer : BrokerSigningKey} {nowUtc : Int64} {entropy : Nat → Entropy}
  {count : Nat}

/-- When a boot finds all work, it expires all of it. -/
theorem expiresWork_of_all (hSound : SoundDatabase after.toTables)
    (h : startBoot bootEpoch signer nowUtc entropy before = .ok (count, after))
    (hNew : before.brokerMetadata.bootEpoch.toInt ≠ bootEpoch.toNat)
    (hAll : ∀ epoch : Int64, epoch.toInt = bootEpoch.toNat →
      workToExpire epoch before.toTables =
        before.unstarted.map RequestRow.requestId) :
    ExpiresWork bootEpoch count before.toTables after.toTables := by
  obtain ⟨epoch, hEpoch, ⟨hSame, -, -⟩ | ⟨-, hCount, -, hMetadata, hIds, hEach⟩⟩ :=
    startBoot_eq_ok h
  · exact absurd (by rw [hSame, hEpoch]) hNew
  have hWork := hAll epoch hEpoch
  rw [hWork] at hCount hEach
  have hOthers : ∀ requestId row, before.request? requestId = some row →
      row.state ∉ UNSTARTED → after.dossier requestId = before.dossier requestId :=
    fun requestId row hRow hState =>
      (hEach requestId).1 fun hMem => hState ((mem_unstarted_iff hRow).mp hMem)
  have hExpired : ∀ requestId row, before.request? requestId = some row →
      row.state ∈ UNSTARTED → ∃ old new, new.state = .expired ∧
        Moved before.brokerIdentity requestId .expired old new
          (before.dossier requestId) (after.dossier requestId) :=
    fun requestId row hRow hState =>
      (hEach requestId).2 ((mem_unstarted_iff hRow).mpr hState)
  refine ⟨?_, by rw [hCount, List.length_map], hIds, ?_, by rw [hMetadata, hEpoch],
    hOthers⟩
  · apply List.filter_eq_nil_iff.mpr
    intro row hRow hState
    have hUnstarted : row.state ∈ UNSTARTED := of_decide_eq_true hState
    obtain ⟨requestId, hId, hLookup⟩ := hSound.exists_publicId hRow
    -- A boot adds no request, so this one was there before.
    have hStored : row.requestId ∈ before.requestIds :=
      hIds ▸ List.mem_map_of_mem hRow
    obtain ⟨old, hOld, hOldId⟩ := List.mem_map.mp hStored
    have hBefore : before.request? requestId = some old :=
      (Table.lookup_eq_some_iff before.constraints.requestKey).mpr
        ⟨hOld, hOldId.trans hId.symm⟩
    by_cases hWas : old.state ∈ UNSTARTED
    · obtain ⟨_, new, hNewState, hMoved⟩ := hExpired requestId old hBefore hWas
      have hRowNew : row = new :=
        Option.some.inj (hLookup.symm.trans hMoved.rowAfter)
      rw [hRowNew, hNewState] at hUnstarted
      exact absurd hUnstarted (by decide)
    · have hKept := congrArg Dossier.row (hOthers requestId old hBefore hWas)
      have hSame : row = old :=
        Option.some.inj (hLookup.symm.trans (hKept.trans hBefore))
      rw [hSame] at hUnstarted
      exact hWas hUnstarted
  · intro requestId row hRow hState
    obtain ⟨old, new, hNewState, hMoved⟩ := hExpired requestId row hRow hState
    obtain ⟨event, hNext, hEvents⟩ := hMoved.event
    obtain ⟨made, hMade, hNone, hReceipts, -, -⟩ :=
      hMoved.closes (by rw [hNewState]; rfl)
    obtain ⟨_, _, _, _, _, -, -, hReceiptRow⟩ := hMade
    refine ⟨new, event, made, hMoved.rowAfter, hNewState,
      ⟨hNext.state.trans hNewState, hNext.reason⟩, hEvents, hNone, hReceipts, ?_⟩
    rw [hReceiptRow.terminalState, hNewState]

/-- A boot of the stored epoch changes nothing. -/
theorem startBoot_same
    (hSame : before.brokerMetadata.bootEpoch.toInt = bootEpoch.toNat) :
    startBoot bootEpoch signer nowUtc entropy before = .ok (0, before) := by
  have hEpoch : toI64? bootEpoch.toNat = some before.brokerMetadata.bootEpoch :=
    toI64?_eq_some_iff.mpr hSame
  have hCheck : attempt (orFault .numericOutOfRange (toI64? bootEpoch.toNat)) before =
      .ok (before.brokerMetadata.bootEpoch, before) := by
    rw [attempt_eq_ok_iff, orFault_eq_ok_iff]
    exact ⟨hEpoch, rfl⟩
  rw [startBoot, run_bind_eq_ok_iff]
  refine ⟨_, _, hCheck, ?_⟩
  rw [run_bind_eq_ok_iff]
  refine ⟨before.brokerMetadata.bootEpoch, before, rfl, ?_⟩
  rw [if_pos rfl, run_pure_eq_ok_iff]
  exact ⟨rfl, rfl⟩

/-- A boot that finds no work leaves every request as it was. -/
theorem startBoot_of_none
    (h : startBoot bootEpoch signer nowUtc entropy before = .ok (count, after))
    (hNone : ∀ epoch : Int64, epoch.toInt = bootEpoch.toNat →
      workToExpire epoch before.toTables = []) (requestId : PublicId) :
    after.dossier requestId = before.dossier requestId := by
  obtain ⟨epoch, hEpoch, ⟨-, -, rfl⟩ | ⟨-, -, -, -, -, hEach⟩⟩ := startBoot_eq_ok h
  · rfl
  · apply (hEach requestId).1
    rw [hNone epoch hEpoch]
    exact List.not_mem_nil

end Boot

/-! ### Every boot -/

/-- In every reachable store, a boot of the stored epoch changes nothing, and a
successful boot of another epoch does what it has to exactly when its epoch is not
zero or there is no work. -/
theorem reboot_expires_work [Cryptography] (calls : List Call) (bootEpoch : UInt64)
    (signer : BrokerSigningKey) (nowUtc : Int64) (entropy : Nat → Entropy) :
    let before := (run BrokerStore.step BrokerStore.empty calls).database
    (before.brokerMetadata.bootEpoch.toInt = bootEpoch.toNat →
      startBoot bootEpoch signer nowUtc entropy before = .ok (0, before)) ∧
    (before.brokerMetadata.bootEpoch.toInt ≠ bootEpoch.toNat →
      ∀ count after,
        startBoot bootEpoch signer nowUtc entropy before = .ok (count, after) →
        (ExpiresWork bootEpoch count before.toTables after.toTables ↔
          bootEpoch ≠ 0 ∨ before.unstarted = [])) := by
  intro before
  have hSound : SoundDatabase before.toTables := BrokerStore.sound_of_run calls
  have hZero : EpochsZero before.toTables := EpochsZero.of_run calls
  refine ⟨startBoot_same, ?_⟩
  intro hNew count after hBoot
  have hCall : (Call.startBoot bootEpoch signer nowUtc entropy).transaction
      (ByteArr.fill 16 0) (Snapshots.at before.toTables) before =
        .ok (ByteArr.fill 16 0, after) := by
    rw [Call.transaction, run_bind_eq_ok_iff]
    exact ⟨count, after, hBoot, rfl⟩
  constructor
  · intro hExpires
    by_contra hUncovered
    obtain ⟨hEpochZero, hWork⟩ := not_or.mp hUncovered
    rw [not_not] at hEpochZero
    -- Some request that has not started is still there after the boot.
    obtain ⟨row, hRow⟩ := List.exists_mem_of_ne_nil _ hWork
    obtain ⟨hStored, hState⟩ := List.mem_filter.mp hRow
    obtain ⟨requestId, -, hLookup⟩ := hSound.exists_publicId hStored
    -- Every request was created in epoch zero, so this boot finds no work.
    have hKept : after.dossier requestId = before.dossier requestId := by
      apply startBoot_of_none hBoot
      intro epoch hEpoch
      rw [hEpochZero] at hEpoch
      rw [workToExpire_eq hSound hZero, if_pos (Int64.toInt_inj.mp hEpoch)]
    have hAfter : after.request? requestId = some row :=
      (congrArg Dossier.row hKept).trans hLookup
    have hLeft : row ∈ after.unstarted :=
      List.mem_filter.mpr ⟨Table.mem_of_lookup hAfter, hState⟩
    rw [hExpires.noneLeft] at hLeft
    cases hLeft
  · intro hCovered
    apply expiresWork_of_all (hSound.transaction hCall) hBoot hNew
    intro epoch hEpoch
    rw [workToExpire_eq hSound hZero]
    by_cases hEpochZero : epoch = 0
    -- Work of epoch zero is what a boot of epoch zero skips.
    · have hBootZero : bootEpoch = 0 := by
        rw [hEpochZero] at hEpoch
        exact UInt64.toNat_inj.mp (Int.ofNat_inj.mp hEpoch.symm)
      rcases hCovered with hOther | hNone
      · exact absurd hBootZero hOther
      · rw [if_pos hEpochZero, hNone, List.map_nil]
    · rw [if_neg hEpochZero]

/-- The sample request was submitted before the first boot. -/
def submittedRun : List Call :=
  [.initializeIdentity sampleSigner (some (ByteArr.fill 16 9)),
    .submit sampleRequest allowAll]

/-- The database after a run of the sample. -/
def sampleDatabase (calls : List Call) : Database :=
  (run (@BrokerStore.step keyedHashCryptography) BrokerStore.empty calls).database

def sampleBoot (bootEpoch : UInt64) (calls : List Call) :
    Except BrokerError (Nat × Database) :=
  @startBoot keyedHashCryptography bootEpoch sampleSigner 5
    (fun _ => some (ByteArr.fill 16 3)) (sampleDatabase calls)

/-- Boot seven expires the sample request. -/
theorem reboot_expires_work_sample :
    ∃ after, sampleBoot 7 submittedRun = .ok (1, after) ∧
      ExpiresWork 7 1 (sampleDatabase submittedRun).toTables after.toTables := by
  have hNew : (sampleDatabase submittedRun).brokerMetadata.bootEpoch.toInt ≠
      (7 : UInt64).toNat := by
    decide +kernel
  have hCount : (sampleBoot 7 submittedRun).map Prod.fst = .ok 1 := by
    decide +kernel
  obtain ⟨⟨count, after⟩, hBoot, rfl⟩ := map_eq_ok_iff.mp hCount
  have hWork := @reboot_expires_work keyedHashCryptography submittedRun 7
    sampleSigner 5 fun _ => some (ByteArr.fill 16 3)
  exact ⟨after, hBoot, (hWork.2 hNew 1 after hBoot).mpr (Or.inl (by decide))⟩

/-- The sample request was submitted after boot seven. -/
def submittedAfterBootRun : List Call :=
  [.initializeIdentity sampleSigner (some (ByteArr.fill 16 9)),
    .startBoot 7 sampleSigner 5 (fun _ => some (ByteArr.fill 16 3)),
    .submit sampleRequest allowAll]

/-- Boot zero succeeds and leaves the sample request in planning. -/
theorem work_survives_epoch_zero :
    (sampleDatabase submittedAfterBootRun).brokerMetadata.bootEpoch.toInt ≠
      (0 : UInt64).toNat ∧
    ∃ count after, sampleBoot 0 submittedAfterBootRun = .ok (count, after) ∧
      ¬ ExpiresWork 0 count (sampleDatabase submittedAfterBootRun).toTables
        after.toTables := by
  refine ⟨by decide +kernel, ?_⟩
  have hLeft : (sampleBoot 0 submittedAfterBootRun).map
      (fun result => result.2.toTables.unstarted.length) = .ok 1 := by
    decide +kernel
  obtain ⟨⟨count, after⟩, hBoot, hLength⟩ := map_eq_ok_iff.mp hLeft
  refine ⟨count, after, hBoot, ?_⟩
  intro hExpires
  rw [hExpires.noneLeft] at hLength
  cases hLength

end Broker
end RootPermit
