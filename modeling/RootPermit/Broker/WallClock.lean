import RootPermit.Broker.Acceptance
import RootPermit.Broker.Progress
import RootPermit.Broker.PublicIds
import RootPermit.Broker.Reboot

/-!
# The wall clock and the end of a request

Monotonic time alone is to decide when a request expires.  The receipt that closes a
request, however, is validated like every other message, and a receipt that was
completed before its request was created is rejected.  The two times are readings of
the wall clock, the second inside the transaction that closes the request, so a clock
that has gone back keeps the request open (`terminal_outcomes_iff`).

* `transitionTerminal_succeeds_iff` — one request is closed;
* `expireAll_succeeds_iff` — the requests of another boot are closed in turn;
* `startBoot_succeeds_iff` — a new boot;
* `applyWebauthnSubmission_expires_iff` — a submission after the deadline.
-/

namespace RootPermit
namespace Broker

open Foundation Protocol

theorem succeeds_bind_iff {α β : Type} {first : Tx α} {rest : α → Tx β}
    {before : Database} :
    Succeeds (first >>= rest) before ↔
      ∃ value between, first before = .ok (value, between) ∧
        Succeeds (rest value) between := by
  constructor
  · intro h
    obtain ⟨result, after, hDone⟩ := h
    obtain ⟨value, between, hFirst, hRest⟩ := run_bind_eq_ok_iff.mp hDone
    exact ⟨value, between, hFirst, result, after, hRest⟩
  · intro h
    obtain ⟨value, between, hFirst, result, after, hRest⟩ := h
    exact ⟨result, after, run_bind_eq_ok_iff.mpr ⟨value, between, hFirst, hRest⟩⟩

/-- The operating system has different random bytes for each of `count` receipts, and
no receipt has one of their ids. -/
def FreshReceiptIds (entropy : Nat → Entropy) (count : Nat)
    (receipts : List ReceiptRow) : Prop :=
  (∀ index < count, FreshReceiptId (entropy index) receipts) ∧
    ∀ first second, first < second → second < count → entropy first ≠ entropy second

section Closing

variable [Cryptography] {requestId : PublicId} {row : RequestRow}
  {signer : BrokerSigningKey} {nowUtc : Int64} {before after : Database}

/-- The id of a receipt spells the random bytes. -/
theorem createReceipt_receiptId {state : RequestState} {evidence : List CborValue}
    {bytes : ByteArr 16} {result : Bytes}
    (h : createReceipt requestId state signer nowUtc evidence (some bytes) before =
      .ok (result, after)) :
    ∃ made : ReceiptRow, after.receipts = before.receipts ++ [made] ∧
      made.receiptId = Base64Url.encodeText bytes.val := by
  simp only [createReceipt, run_bind_eq_ok_iff, query_eq_ok_iff, execute_eq_ok_iff,
    attempt_eq_ok_iff, setReceiptBytes_eq_ok_iff, run_pure_eq_ok_iff,
    Except.ok.injEq] at h
  obtain ⟨receiptId, _, ⟨hRandom, rfl⟩, row, _, ⟨-, rfl⟩, _, _, ⟨-, rfl⟩, _, _,
    ⟨-, rfl⟩, _, _, ⟨-, rfl⟩, cose, _, ⟨-, rfl⟩, _, between, hInsert, _, _, ⟨-, rfl⟩, _,
    _, ⟨-, hAfter⟩, -, rfl⟩ := h
  obtain ⟨found, hFound, hText, -⟩ := PublicId.random_eq_ok bytes
  rw [hRandom, Except.ok.injEq] at hFound
  let made : ReceiptRow :=
    { receiptId := receiptId.asStr
      requestId := requestId.asStr
      requesterUid := row.requesterUid
      terminalState := state.asDb
      coseBytes := cose
      createdUtc := row.createdUtc
      completedUtc := nowUtc }
  refine ⟨made, ?_, (congrArg PublicId.asStr hFound).trans hText⟩
  rw [hAfter]
  show between.receipts = _
  rw [hInsert]

/-- The other requests after one was closed, and the ids that are left. -/
theorem closing_others {expected : Option RequestState} {next : RequestState}
    {reason : TransitionReason} {entropy : Nat → Entropy} {count : Nat}
    {between : Database} {done : Unit} {cose : Bytes}
    (hRow : before.request? requestId = some row)
    (hAppend : appendTransition requestId expected next reason before =
      .ok (done, between))
    (hReceipt : createReceipt requestId next signer nowUtc [] (entropy 0) between =
      .ok (cose, after))
    (hFresh : FreshReceiptIds entropy (count + 1) before.receipts) :
    (∀ other, other ≠ requestId → after.dossier other = before.dossier other) ∧
      FreshReceiptIds (fun index => entropy (index + 1)) count after.receipts := by
  obtain ⟨hBetween, -, hReceipts, hOthers⟩ := appendTransition_dossier hRow hAppend
  constructor
  · intro other hOther
    obtain ⟨found, made, hFound, -, hMade, -, -, hAfter⟩ := createReceipt_eq_ok hReceipt
    rw [hAfter, Tables.dossier_close hMade.requestId hFound, if_neg hOther]
    exact hOthers other hOther
  · obtain ⟨bytes, hBytes, -⟩ := hFresh.1 0 (Nat.zero_lt_succ count)
    rw [hBytes] at hReceipt
    obtain ⟨made, hAfter, hText⟩ := createReceipt_receiptId hReceipt
    refine ⟨?_, fun first second hLess hCount =>
      hFresh.2 (first + 1) (second + 1) (Nat.succ_lt_succ hLess)
        (Nat.succ_lt_succ hCount)⟩
    intro index hIndex
    obtain ⟨other, hOther, hUnused⟩ := hFresh.1 (index + 1) (Nat.succ_lt_succ hIndex)
    refine ⟨other, hOther, ?_⟩
    rw [hAfter, hReceipts]
    refine List.forall_mem_append.mpr ⟨hUnused, List.forall_mem_singleton.mpr ?_⟩
    -- The receipt just made has the id of other bytes.
    intro hSame
    have hValues : bytes.val = other.val :=
      Base64Url.encodeText_injective (hText.symm.trans hSame)
    apply hFresh.2 0 (index + 1) (Nat.zero_lt_succ index) (Nat.succ_lt_succ hIndex)
    rw [hBytes, hOther, Subtype.ext hValues]

/-- An open request is closed by a permitted transition exactly when the clock has not
gone back behind its creation time. -/
theorem transitionTerminal_succeeds_iff {next : RequestState} {entropy : Entropy}
    {pinned : IdentityRow} (hIdentity : before.brokerIdentity = some pinned)
    (hNames : pinned.Names signer)
    (h : OpenRequest requestId row (before.dossier requestId))
    (hTerminal : next.isTerminal = true) (hEdge : row.state.permits next = true)
    (hId : requestId.IsRandom) (hFresh : FreshReceiptId entropy before.receipts) :
    Succeeds (transitionTerminal requestId row.state next signer nowUtc entropy)
      before ↔ row.createdUtc ≤ nowUtc := by
  have hClosing : (∃ between, appendTransition requestId (some row.state) next
        (transitionReason next) before = .ok ((), between) ∧
      Succeeds (createReceipt requestId next signer nowUtc [] entropy) between) ↔
      row.createdUtc ≤ nowUtc := closing_succeeds_iff h (by simp) hId.bytes hFresh
  have hAllowed : ¬ (next.isTerminal = false ∨ row.state.permits next = false) := by
    rw [hTerminal, hEdge]
    decide
  simp only [transitionTerminal, transitionTerminalWithEvidence, succeeds_bind_iff,
    attempt_eq_ok_iff, rejectIf_eq_ok_iff, ensureIdentity_eq_ok_iff]
  rw [← hClosing]
  constructor
  · intro hDone
    obtain ⟨_, _, ⟨-, rfl⟩, _, _, ⟨-, rfl⟩, _, between, hAppend, hReceipt⟩ := hDone
    exact ⟨between, hAppend, hReceipt⟩
  · intro hDone
    obtain ⟨between, hAppend, hReceipt⟩ := hDone
    exact ⟨(), before, ⟨hAllowed, rfl⟩, (), before, ⟨⟨pinned, hIdentity, hNames⟩, rfl⟩,
      (), between, hAppend, hReceipt⟩

/-! ### A new boot -/

/-- Open requests are expired in turn exactly when none was created after the clock
of the boot. -/
theorem expireAll_succeeds_iff {requestIds : List String} {entropy : Nat → Entropy}
    (hDistinct : requestIds.Nodup)
    (hOpen : ∀ text ∈ requestIds, ∃ requestId row, PublicId.asStr requestId = text ∧
      requestId.IsRandom ∧ OpenRequest requestId row (before.dossier requestId))
    (hFresh : FreshReceiptIds entropy requestIds.length before.receipts) :
    Succeeds (expireAll signer nowUtc requestIds entropy) before ↔
      ∀ requestId row, PublicId.asStr requestId ∈ requestIds →
        before.request? requestId = some row → row.createdUtc ≤ nowUtc := by
  induction requestIds generalizing before entropy with
  | nil =>
      refine ⟨fun _ _ _ hMem => absurd hMem List.not_mem_nil, fun _ => ?_⟩
      exact ⟨0, before, rfl⟩
  | cons text rest ih =>
      obtain ⟨hFirst, hRest⟩ := List.nodup_cons.mp hDistinct
      obtain ⟨requestId, row, rfl, hId, hRequest⟩ := hOpen text List.mem_cons_self
      have hClosing : (∃ between, appendTransition requestId none .expired .expired
            before = .ok ((), between) ∧
          Succeeds (createReceipt requestId .expired signer nowUtc [] (entropy 0))
            between) ↔ row.createdUtc ≤ nowUtc :=
        closing_succeeds_iff hRequest (by simp) hId.bytes
          (hFresh.1 0 (Nat.zero_lt_succ _))
      have hNamed : ∀ other : PublicId, other.asStr ∈ rest → other ≠ requestId := by
        intro other hMem hSame
        exact hFirst (hSame ▸ hMem)
      -- Closing this request leaves the others as they are.
      have hStep : ∀ {between after : Database} {cose : Bytes},
          appendTransition requestId none .expired .expired before =
            .ok ((), between) →
          createReceipt requestId .expired signer nowUtc [] (entropy 0) between =
            .ok (cose, after) →
          (Succeeds (expireAll signer nowUtc rest fun index => entropy (index + 1))
            after ↔ ∀ other row, PublicId.asStr other ∈ rest →
              before.request? other = some row → row.createdUtc ≤ nowUtc) := by
        intro between after cose hAppend hReceipt
        obtain ⟨hOthers, hLeft⟩ :=
          closing_others hRequest.found hAppend hReceipt hFresh
        have hSame : ∀ other : PublicId, other.asStr ∈ rest →
            after.dossier other = before.dossier other := fun other hMem =>
          hOthers other (hNamed other hMem)
        have hOpenRest : ∀ text ∈ rest, ∃ requestId row,
            PublicId.asStr requestId = text ∧ requestId.IsRandom ∧
              OpenRequest requestId row (after.dossier requestId) := by
          intro text hMem
          obtain ⟨other, found, rfl, hOtherId, hOther⟩ :=
            hOpen text (List.mem_cons_of_mem _ hMem)
          exact ⟨other, found, rfl, hOtherId, (hSame other hMem).symm ▸ hOther⟩
        rw [ih hRest hOpenRest hLeft]
        refine forall_congr' fun other => forall_congr' fun found =>
          forall_congr' fun hMem => ?_
        rw [show after.request? other = before.request? other from
          congrArg Dossier.row (hSame other hMem)]
      simp only [expireAll, succeeds_bind_iff, attempt_eq_ok_iff, mapError_eq_ok_iff,
        PublicId.parse_eq_ok_iff]
      constructor
      · intro hDone
        obtain ⟨found, _, ⟨hFound, rfl⟩, _, between, hAppend, cose, after, hReceipt,
          count, last, hMore, -⟩ := hDone
        rw [PublicId.ext_iff'.mpr hFound] at hAppend hReceipt
        have hClock := hClosing.mp ⟨between, hAppend, cose, after, hReceipt⟩
        have hClocks := (hStep hAppend hReceipt).mp ⟨count, last, hMore⟩
        intro other found hMem hOther
        rcases List.mem_cons.mp hMem with hText | hMem
        · rw [PublicId.ext_iff'.mpr hText] at hOther
          have hSame : row = found :=
            Option.some.inj (hRequest.found.symm.trans hOther)
          exact hSame ▸ hClock
        · exact hClocks other found hMem hOther
      · intro hClocks
        obtain ⟨between, hAppend, cose, after, hReceipt⟩ := hClosing.mpr
          (hClocks requestId row List.mem_cons_self hRequest.found)
        obtain ⟨count, last, hMore⟩ := (hStep hAppend hReceipt).mpr
          fun other found hMem => hClocks other found (List.mem_cons_of_mem _ hMem)
        exact ⟨requestId, before, ⟨rfl, rfl⟩, (), between, hAppend, cose, after,
          hReceipt, count, last, hMore, count + 1, last, rfl⟩

/-- A new boot succeeds exactly when the database can store its epoch and none of the
requests it expires was created after its clock. -/
theorem startBoot_succeeds_iff {bootEpoch : UInt64} {entropy : Nat → Entropy}
    {requestIds : List String} {pinned : IdentityRow}
    (hIdentity : before.brokerIdentity = some pinned)
    (hNames : pinned.Names signer)
    (hNew : before.brokerMetadata.bootEpoch.toInt ≠ bootEpoch.toNat)
    (hWork : ∀ epoch : Int64, epoch.toInt = bootEpoch.toNat →
      workToExpire epoch before.toTables = requestIds)
    (hOpen : ∀ text ∈ requestIds, ∃ requestId row, PublicId.asStr requestId = text ∧
      requestId.IsRandom ∧ OpenRequest requestId row (before.dossier requestId))
    (hFresh : FreshReceiptIds entropy requestIds.length before.receipts) :
    Succeeds (startBoot bootEpoch signer nowUtc entropy) before ↔
      bootEpoch.toNat < 2 ^ 63 ∧
        ∀ requestId row, PublicId.asStr requestId ∈ requestIds →
          before.request? requestId = some row → row.createdUtc ≤ nowUtc := by
  -- The work of the epoch is known as soon as the epoch can be stored.
  have hDistinct : ∀ epoch : Int64, epoch.toInt = bootEpoch.toNat →
      requestIds.Nodup := by
    intro epoch hEpoch
    rw [← hWork epoch hEpoch]
    exact (List.filter_sublist.map _).nodup before.constraints.requestKey
  have hOther : ∀ epoch : Int64, epoch.toInt = bootEpoch.toNat →
      before.brokerMetadata.bootEpoch ≠ epoch := by
    intro epoch hEpoch hSame
    rw [hSame] at hNew
    exact hNew hEpoch
  simp only [startBoot, succeeds_bind_iff, attempt_eq_ok_iff, query_eq_ok_iff,
    orFault_eq_ok_iff, toI64?_eq_some_iff, Except.ok.injEq]
  constructor
  · intro hDone
    obtain ⟨epoch, _, ⟨hEpoch, rfl⟩, _, _, ⟨rfl, rfl⟩, hDone⟩ := hDone
    rw [if_neg (hOther epoch hEpoch)] at hDone
    simp only [succeeds_bind_iff, ensureIdentity_eq_ok_iff, query_eq_ok_iff,
      Except.ok.injEq] at hDone
    obtain ⟨_, _, ⟨-, rfl⟩, _, _, ⟨rfl, rfl⟩, changed, between, hExpired, -⟩ := hDone
    rw [hWork epoch hEpoch] at hExpired
    have hSmall := epoch.toInt_lt
    refine ⟨by omega, (expireAll_succeeds_iff (hDistinct epoch hEpoch) hOpen hFresh).mp
      ⟨changed, between, hExpired⟩⟩
  · intro h
    obtain ⟨hSmall, hClocks⟩ := h
    obtain ⟨epoch, hStored⟩ : ∃ epoch, toI64? bootEpoch.toNat = some epoch :=
      exists_toI64? (by omega) (by omega)
    have hEpoch : epoch.toInt = bootEpoch.toNat := toI64?_eq_some_iff.mp hStored
    obtain ⟨changed, between, hExpired⟩ :=
      (expireAll_succeeds_iff (hDistinct epoch hEpoch) hOpen hFresh).mpr hClocks
    refine ⟨epoch, before, ⟨hEpoch, rfl⟩, _, before, ⟨rfl, rfl⟩, ?_⟩
    rw [if_neg (hOther epoch hEpoch)]
    have hNatural : 0 ≤ epoch := by
      rw [Int64.le_iff_toInt_le, hEpoch]
      exact Int.natCast_nonneg _
    obtain ⟨after, hAfter, -⟩ : ∃ after, execute (fun tables =>
        { tables with brokerMetadata :=
            { tables.brokerMetadata with bootEpoch := epoch } }) between =
          .ok ((), after) ∧ _ :=
      execute_ok { between.constraints with
        metadataChecks := ⟨hNatural, between.constraints.metadataChecks.2⟩ }
    rw [← hWork epoch hEpoch] at hExpired
    simp only [succeeds_bind_iff, ensureIdentity_eq_ok_iff, query_eq_ok_iff,
      Except.ok.injEq]
    exact ⟨(), before, ⟨⟨pinned, hIdentity, hNames⟩, rfl⟩, _, before, ⟨rfl, rfl⟩,
      changed, between, hExpired, (), after, hAfter, changed, after, rfl⟩

/-! ### A submission after the deadline -/

/-- A submission after the deadline expires its request exactly when the clock has not
gone back behind the creation time of the request. -/
theorem applyWebauthnSubmission_expires_iff {attempt : DecisionAttempt}
    {deviceIdBytes : ByteArr 16} {snapshots : Snapshots} {context : ApprovalContext}
    {entropy : Entropy} {pinned : IdentityRow}
    (hIdentity : before.brokerIdentity = some pinned)
    (hNames : pinned.Names signer)
    (h : OpenRequest attempt.requestId row (before.dossier attempt.requestId))
    (hPending : row.state = .pending)
    (hContext : attempt.context deviceIdBytes snapshots.request snapshots.identity =
      .ok context)
    (hDeadline : deadlineElapsed attempt.requestId attempt.nowMonoNs
      snapshots.deadline = .ok true)
    (hId : attempt.requestId.IsRandom)
    (hFresh : FreshReceiptId entropy before.receipts) :
    (∃ receipt after, applyWebauthnSubmission deviceIdBytes snapshots attempt signer
      entropy before =
        .ok ({ state := .expired, receiptCose := some receipt }, after)) ↔
      row.createdUtc ≤ attempt.nowUtc := by
  have hExpired : attempt.isExpired context snapshots.deadline = .ok true := by
    unfold DecisionAttempt.isExpired
    rw [hDeadline, ite_self]
  have hRead : attempt.read deviceIdBytes snapshots = .ok (.close .expired) :=
    DecisionAttempt.read_eq_ok_iff.mpr (.expired context hContext hExpired)
  have hTerminal : Succeeds (transitionTerminal attempt.requestId .pending .expired
      signer attempt.nowUtc entropy) before ↔ row.createdUtc ≤ attempt.nowUtc := by
    rw [← hPending]
    refine transitionTerminal_succeeds_iff hIdentity hNames h rfl ?_ hId hFresh
    rw [hPending]
    rfl
  rw [← hTerminal]
  constructor
  · intro hDone
    obtain ⟨receipt, after, hDone⟩ := hDone
    simp only [applyWebauthnSubmission, run_bind_eq_ok_iff, attempt_eq_ok_iff,
      hRead, Except.ok.injEq] at hDone
    obtain ⟨_, _, ⟨rfl, rfl⟩, hDone⟩ := hDone
    simp only [run_bind_eq_ok_iff] at hDone
    obtain ⟨cose, between, hClosed, -⟩ := hDone
    exact ⟨cose, between, hClosed⟩
  · intro hDone
    obtain ⟨cose, after, hClosed⟩ := hDone
    refine ⟨cose, after, ?_⟩
    simp only [applyWebauthnSubmission, run_bind_eq_ok_iff, attempt_eq_ok_iff]
    refine ⟨.close .expired, before, ⟨hRead, rfl⟩, ?_⟩
    rw [run_bind_eq_ok_iff]
    exact ⟨cose, after, hClosed, rfl⟩

end Closing

/-! ### Reachable stores -/

/-- Requests that have not started can be closed. -/
theorem openRequest_of_unstarted [Cryptography] (calls : List Call) {row : RequestRow}
    {requestId : PublicId} (hId : requestId.asStr = row.requestId)
    (hRow : row ∈ (run BrokerStore.step BrokerStore.empty calls).database.unstarted) :
    OpenRequest requestId row
      ((run BrokerStore.step BrokerStore.empty calls).database.dossier requestId) := by
  obtain ⟨hStored, hState⟩ := List.mem_filter.mp hRow
  have hUnstarted : row.state ∈ UNSTARTED := of_decide_eq_true hState
  have hOpen : row.state.isTerminal = false := by
    simp only [UNSTARTED, List.mem_cons, List.not_mem_nil, or_false] at hUnstarted
    rcases hUnstarted with hState | hState | hState <;>
      rw [hState] <;> rfl
  refine OpenRequest.of_run calls ?_ hOpen
  exact (Table.lookup_eq_some_iff (Database.constraints _).requestKey).mpr
    ⟨hStored, hId.symm⟩

/-- The id of the request came from `PublicId::random`. -/
def RequestRow.HasRandomId (row : RequestRow) : Prop :=
  ∃ requestId : PublicId, requestId.asStr = row.requestId ∧ requestId.IsRandom

/-- The request can be closed by a boot: its id stands for bytes, and it was not created
after this reading of the clock. -/
def RequestRow.Expirable (nowUtc : Int64) (row : RequestRow) : Prop :=
  row.HasRandomId ∧ row.createdUtc ≤ nowUtc

/-- An epoch is stored as zero only when it is zero. -/
theorem epoch_ne_zero {bootEpoch : UInt64} {epoch : Int64}
    (hEpoch : epoch.toInt = bootEpoch.toNat) (hNonzero : bootEpoch ≠ 0) : epoch ≠ 0 := by
  rintro rfl
  exact hNonzero (UInt64.toNat_inj.mp (Int.ofNat_inj.mp hEpoch.symm))

/-- A boot that has to expire a request whose id stands for no bytes fails. -/
theorem not_succeeds_of_not_random [Cryptography] {signer : BrokerSigningKey}
    {nowUtc : Int64} {bootEpoch : UInt64} {entropy : Nat → Entropy} {database : Database}
    (hSound : SoundDatabase database.toTables) (hZero : EpochsZero database.toTables)
    (hNew : database.brokerMetadata.bootEpoch.toInt ≠ bootEpoch.toNat)
    (hEpochZero : bootEpoch ≠ 0) {row : RequestRow} (hMem : row ∈ database.unstarted)
    (hId : ¬ row.HasRandomId) :
    ¬ Succeeds (startBoot bootEpoch signer nowUtc entropy) database := by
  rintro ⟨changed, after, hBoot⟩
  obtain ⟨epoch, hEpoch, -⟩ := startBoot_eq_ok hBoot
  obtain ⟨requestId, hText, -⟩ := hSound.exists_publicId (List.mem_filter.mp hMem).1
  have hBytes : requestId.bytes? = none := by
    by_contra hSome
    exact hId ⟨requestId, hText, PublicId.isRandom_iff.mpr hSome⟩
  have hCurrent : database.brokerMetadata.bootEpoch ≠ epoch := by
    rintro hSame
    exact hNew (hSame ▸ hEpoch)
  refine startBoot_ne_ok hBytes hEpoch hCurrent ?_ hBoot
  rw [workToExpire_eq hSound hZero, if_neg (epoch_ne_zero hEpoch hEpochZero), hText]
  exact List.mem_map_of_mem hMem

/-- A boot of another epoch than zero has all requests to expire that have not started.
Where their ids stand for bytes, only the clock can be in the way. -/
theorem startBoot_of_random [Cryptography] (calls : List Call) {signer : BrokerSigningKey}
    {pinned : IdentityRow} {nowUtc : Int64} {bootEpoch : UInt64}
    {entropy : Nat → Entropy} {database : Database}
    (hRun : database = (run BrokerStore.step BrokerStore.empty calls).database)
    (hIdentity : database.brokerIdentity = some pinned)
    (hNames : pinned.Names signer)
    (hNew : database.brokerMetadata.bootEpoch.toInt ≠ bootEpoch.toNat)
    (hEpochZero : bootEpoch ≠ 0) (hIds : ∀ row ∈ database.unstarted, row.HasRandomId)
    (hFresh : FreshReceiptIds entropy database.unstarted.length database.receipts) :
    Succeeds (startBoot bootEpoch signer nowUtc entropy) database ↔
      bootEpoch.toNat < 2 ^ 63 ∧ ∀ row ∈ database.unstarted, row.Expirable nowUtc := by
  have hSound : SoundDatabase database.toTables := hRun ▸ BrokerStore.sound_of_run calls
  have hZero : EpochsZero database.toTables := hRun ▸ EpochsZero.of_run calls
  have hWork : ∀ epoch : Int64, epoch.toInt = bootEpoch.toNat →
      workToExpire epoch database.toTables =
        database.unstarted.map RequestRow.requestId := by
    intro epoch hEpoch
    rw [workToExpire_eq hSound hZero, if_neg (epoch_ne_zero hEpoch hEpochZero)]
  have hOpen : ∀ text ∈ database.unstarted.map RequestRow.requestId,
      ∃ requestId row, PublicId.asStr requestId = text ∧ requestId.IsRandom ∧
        OpenRequest requestId row (database.dossier requestId) := by
    intro text hText
    obtain ⟨row, hMem, rfl⟩ := List.mem_map.mp hText
    obtain ⟨requestId, hId, hRandom⟩ := hIds row hMem
    rw [hRun] at hMem ⊢
    exact ⟨requestId, row, hId, hRandom, openRequest_of_unstarted calls hId hMem⟩
  rw [startBoot_succeeds_iff hIdentity hNames hNew hWork hOpen (by rwa [List.length_map])]
  refine and_congr_right fun _ => ⟨?_, ?_⟩
  · intro h row hMem
    obtain ⟨requestId, hId, hRow⟩ := hSound.exists_publicId (List.mem_filter.mp hMem).1
    exact ⟨hIds row hMem, h requestId row (hId ▸ List.mem_map_of_mem hMem) hRow⟩
  · intro h requestId row hMem hRow
    have hState := (mem_unstarted_iff hRow).mp hMem
    exact (h row (List.mem_filter.mpr
      ⟨Table.mem_of_lookup hRow, decide_eq_true hState⟩)).2

/-- A boot has to expire all requests that have not started; one of epoch zero has none
to expire. -/
theorem startBoot_of_run [Cryptography] (calls : List Call) {signer : BrokerSigningKey}
    {pinned : IdentityRow} {nowUtc : Int64} {bootEpoch : UInt64}
    {entropy : Nat → Entropy} {database : Database}
    (hRun : database = (run BrokerStore.step BrokerStore.empty calls).database)
    (hIdentity : database.brokerIdentity = some pinned)
    (hNames : pinned.Names signer)
    (hNew : database.brokerMetadata.bootEpoch.toInt ≠ bootEpoch.toNat)
    (hFresh : FreshReceiptIds entropy database.unstarted.length database.receipts) :
    Succeeds (startBoot bootEpoch signer nowUtc entropy) database ↔
      bootEpoch.toNat < 2 ^ 63 ∧
        (bootEpoch = 0 ∨ ∀ row ∈ database.unstarted, row.Expirable nowUtc) := by
  have hSound : SoundDatabase database.toTables := hRun ▸ BrokerStore.sound_of_run calls
  have hZero : EpochsZero database.toTables := hRun ▸ EpochsZero.of_run calls
  by_cases hEpochZero : bootEpoch = 0
  -- Epoch zero is the one that every open request carries, so nothing expires.
  · have hWork : ∀ epoch : Int64, epoch.toInt = bootEpoch.toNat →
        workToExpire epoch database.toTables = [] := by
      intro epoch hEpoch
      rw [hEpochZero] at hEpoch
      rw [workToExpire_eq hSound hZero, if_pos (Int64.toInt_inj.mp hEpoch)]
    rw [startBoot_succeeds_iff hIdentity hNames hNew hWork
      (fun _ hText => absurd hText List.not_mem_nil)
      ⟨fun _ hIndex => absurd hIndex (Nat.not_lt_zero _),
        fun _ _ _ hIndex => absurd hIndex (Nat.not_lt_zero _)⟩]
    simp [hEpochZero]
  rw [or_iff_right hEpochZero]
  by_cases hIds : ∀ row ∈ database.unstarted, row.HasRandomId
  · exact startBoot_of_random calls hRun hIdentity hNames hNew hEpochZero hIds hFresh
  · obtain ⟨row, hMem, hId⟩ : ∃ row ∈ database.unstarted, ¬ row.HasRandomId := by
      simpa only [not_forall, exists_prop] using hIds
    exact iff_of_false
      (not_succeeds_of_not_random hSound hZero hNew hEpochZero hMem hId)
      fun hAll => hId (hAll.2 row hMem).1

/-- In every reachable store and for every reading of the wall clock, a request ends
as asked exactly when it was not created after that reading.  A new boot has to
expire all requests that have not started, whose ids must stand for bytes; one of epoch
zero finds none of them. -/
theorem terminal_outcomes_iff [Cryptography] (calls : List Call)
    (signer : BrokerSigningKey) (pinned : IdentityRow) (nowUtc : Int64)
    (hIdentity : (run BrokerStore.step BrokerStore.empty
      calls).database.brokerIdentity = some pinned)
    (hNames : pinned.Names signer) :
    let store := run BrokerStore.step BrokerStore.empty calls
    (∀ requestId row next entropy, PublicId.IsRandom requestId →
      store.database.request? requestId = some row →
      RequestState.isTerminal next = true → row.state.permits next = true →
      FreshReceiptId entropy store.database.receipts →
      (Succeeds (transitionTerminal requestId row.state next signer nowUtc entropy)
        store.database ↔ row.createdUtc ≤ nowUtc)) ∧
    (∀ bootEpoch entropy,
      store.database.brokerMetadata.bootEpoch.toInt ≠ UInt64.toNat bootEpoch →
      FreshReceiptIds entropy store.database.unstarted.length
        store.database.receipts →
      (Succeeds (startBoot bootEpoch signer nowUtc entropy) store.database ↔
        bootEpoch.toNat < 2 ^ 63 ∧
          (bootEpoch = 0 ∨ ∀ row ∈ store.database.unstarted,
            row.Expirable nowUtc))) ∧
    ∀ attempt row context entropy, PublicId.IsRandom attempt.requestId →
      attempt.nowUtc = nowUtc →
      store.database.request? attempt.requestId = some row →
      attempt.context store.deviceIdBytes store.database.toTables
        store.database.toTables = .ok context →
      deadlineElapsed attempt.requestId attempt.nowMonoNs store.database.toTables =
        .ok true →
      FreshReceiptId entropy store.database.receipts →
      ((∃ receipt after, applyWebauthnSubmission store.deviceIdBytes
          (Snapshots.at store.database.toTables) attempt signer entropy
          store.database =
            .ok ({ state := .expired, receiptCose := some receipt }, after)) ↔
        row.createdUtc ≤ nowUtc) := by
  intro store
  refine ⟨?_, ?_, ?_⟩
  · intro requestId row next entropy hId hRow hTerminal hEdge hFresh
    have hOpen : row.state.isTerminal = false := by
      by_contra hClosed
      rw [Bool.not_eq_false] at hClosed
      rw [RequestState.not_permits_of_isTerminal hClosed] at hEdge
      cases hEdge
    exact transitionTerminal_succeeds_iff hIdentity hNames
      (OpenRequest.of_run calls hRow hOpen) hTerminal hEdge hId hFresh
  · intro bootEpoch entropy hNew hFresh
    exact startBoot_of_run calls rfl hIdentity hNames hNew hFresh
  · intro attempt row context entropy hId hClock hRow hContext hDeadline hFresh
    obtain ⟨hFound, -⟩ := DecisionAttempt.context_eq_ok_iff.mp hContext
    obtain ⟨-, seen, hSeen, hPending, -⟩ := approvalContext_row hFound
    rw [hRow, Option.some.injEq] at hSeen
    subst hSeen
    have hOpen : row.state.isTerminal = false := by
      rw [hPending]
      rfl
    rw [← hClock]
    exact applyWebauthnSubmission_expires_iff hIdentity hNames
      (OpenRequest.of_run calls hRow hOpen) hPending hContext hDeadline hId hFresh

/-- The sample submission after the deadline of its request. -/
def lateAttempt [Cryptography] (nowUtc : Int64) : DecisionAttempt :=
  { sampleAttempt with nowMonoNs := 1000, nowUtc }

/-- At the time of its creation the sample request can be cancelled, expired by a
boot and expired by a submission. -/
theorem terminal_outcomes_sample :
    let _ : Cryptography := keyedHashCryptography
    Succeeds (transitionTerminal sampleRequest.requestId .pending .cancelled
      sampleSigner 10 (some (ByteArr.fill 16 3))) sampleStore.database ∧
    Succeeds (startBoot 7 sampleSigner 10 fun _ => some (ByteArr.fill 16 3))
      sampleStore.database ∧
    ∃ receipt after, applyWebauthnSubmission sampleStore.deviceIdBytes
      (Snapshots.at sampleStore.database.toTables) (lateAttempt 10) sampleSigner
      (some (ByteArr.fill 16 3)) sampleStore.database =
        .ok ({ state := .expired, receiptCose := some receipt }, after) := by
  intro _
  have hColumns : sampleStore.database.brokerIdentity.map
        (fun pinned => decide (pinned.Names sampleSigner)) = some true ∧
      (sampleStore.database.request? sampleRequest.requestId).map
        (fun row => (row.state, row.createdUtc)) = some (.pending, 10) ∧
      sampleStore.database.unstarted.map
        (fun row => (row.requestId, row.createdUtc)) =
          [(sampleRequest.requestId.asStr, 10)] ∧
      sampleStore.database.receipts = [] ∧
      sampleStore.database.brokerMetadata.bootEpoch.toInt ≠ (7 : UInt64).toNat ∧
      deadlineElapsed sampleRequest.requestId 1000 sampleStore.database.toTables =
        .ok true ∧
      ((lateAttempt 10).context sampleStore.deviceIdBytes
        sampleStore.database.toTables sampleStore.database.toTables).map
          (fun _ => ()) = .ok () := by
    decide +kernel
  obtain ⟨hIdentity, hFound, hUnstarted, hReceipts, hNew, hDeadline, hContext⟩ :=
    hColumns
  obtain ⟨pinned, hPinned, hNames⟩ := Option.map_eq_some_iff.mp hIdentity
  obtain ⟨row, hRow, hPair⟩ := Option.map_eq_some_iff.mp hFound
  obtain ⟨hPending, hCreated⟩ := Prod.mk.inj hPair
  obtain ⟨context, hContext, -⟩ := map_eq_ok_iff.mp hContext
  have hId : sampleRequest.requestId.IsRandom :=
    ⟨ByteArr.fill 16 0, by decide +kernel⟩
  have hLength : sampleStore.database.unstarted.length = 1 := by
    rw [← List.length_map, hUnstarted]
    rfl
  have hWork : ∀ row ∈ sampleStore.database.unstarted,
      row.requestId = sampleRequest.requestId.asStr ∧ row.createdUtc = 10 := by
    intro row hMem
    have hPair := List.mem_map_of_mem (f := fun row : RequestRow =>
      (row.requestId, row.createdUtc)) hMem
    rw [hUnstarted, List.mem_singleton, Prod.mk.injEq] at hPair
    exact hPair
  have hFresh : FreshReceiptId (some (ByteArr.fill 16 3))
      sampleStore.database.receipts := by
    rw [hReceipts]
    exact ⟨ByteArr.fill 16 3, rfl, by simp⟩
  have hOutcomes := terminal_outcomes_iff approvedRun.dropLast sampleSigner pinned 10
  have hStore : run BrokerStore.step BrokerStore.empty approvedRun.dropLast =
      sampleStore := rfl
  rw [hStore] at hOutcomes
  generalize sampleStore = store at *
  obtain ⟨hTerminal, hBoot, hApply⟩ := hOutcomes hPinned (of_decide_eq_true hNames)
  have hReached : row.createdUtc ≤ 10 := by
    rw [hCreated]
    exact Int64.le_refl 10
  refine ⟨?_, ?_, ?_⟩
  · have hEdge : row.state.permits .cancelled = true := by
      rw [hPending]
      rfl
    have hIff := hTerminal sampleRequest.requestId row .cancelled _ hId hRow rfl hEdge
      hFresh
    rw [hPending] at hIff
    exact hIff.mpr hReached
  · refine (hBoot 7 (fun _ => some (ByteArr.fill 16 3)) hNew
      ⟨fun _ _ => hFresh, ?_⟩).mpr ⟨by decide, Or.inr ?_⟩
    · intro first second hLess hSecond
      have hOne : second < 1 := hLength ▸ hSecond
      omega
    · intro row hMem
      refine ⟨⟨sampleRequest.requestId, (hWork row hMem).1.symm, hId⟩, ?_⟩
      rw [(hWork row hMem).2]
      exact Int64.le_refl 10
  · exact (hApply (lateAttempt 10) row context _ hId rfl hRow hContext
      hDeadline hFresh).mpr hReached

/-- A moment before its creation the sample request can not be cancelled, and neither
a boot nor a submission after its monotonic deadline expires it. -/
theorem clock_step_blocks_outcomes :
    let _ : Cryptography := keyedHashCryptography
    sampleRequest.requestId.IsRandom ∧
      requestState sampleRequest.requestId sampleStore.database.toTables =
        some .pending ∧
      RequestState.pending.permits .cancelled = true ∧
      (sampleStore.database.brokerIdentity.map fun pinned =>
        decide (pinned.Names sampleSigner)) = some true ∧
      (transitionTerminal sampleRequest.requestId .pending .cancelled sampleSigner 9
        (some (ByteArr.fill 16 3)) sampleStore.database).map (fun _ => ()) =
          .error .receipt ∧
      (startBoot 7 sampleSigner 9 (fun _ => some (ByteArr.fill 16 3))
        sampleStore.database).map (fun _ => ()) = .error .receipt ∧
      deadlineElapsed sampleRequest.requestId 1000 sampleStore.database.toTables =
        .ok true ∧
      (applyWebauthnSubmission sampleStore.deviceIdBytes
        (Snapshots.at sampleStore.database.toTables) (lateAttempt 9) sampleSigner
        (some (ByteArr.fill 16 3)) sampleStore.database).map (fun _ => ()) =
          .error .receipt := by
  intro _
  exact ⟨⟨ByteArr.fill 16 0, by decide +kernel⟩, by decide +kernel⟩

end Broker
end RootPermit
