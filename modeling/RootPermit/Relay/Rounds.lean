import RootPermit.Foundation.Rounds
import RootPermit.Relay.FileSpool

/-!
# Delivery rounds and retry times of the file spool

A relay claims an envelope that is ready, tries to deliver it, and then either
acknowledges it or schedules a retry.  `next_delivery` always claims the ready envelope
with the least identifier, and a claim does not change when the envelope is ready, so
the order of the deliveries rests on what is done between two claims.

* `toNat_retryAt`, `retryAt_le_iff` — a retry is due later, unless the clock has reached
  its end;
* `round_delivers` — with one outcome for each claim, a round of claims at one reading
  of the clock delivers what was ready, each envelope once and in the order of the
  identifiers;
* `retry_kept` — an envelope that was scheduled is not claimed before its time, across
  crashes and reopenings.
-/

namespace RootPermit
namespace Relay

open Foundation

/-! ### The time of a retry -/

namespace Machine

theorem toNat_saturated (value : Nat) :
    (saturated value).toNat = min value (2 ^ 64 - 1) := by
  unfold saturated
  by_cases hFits : value < 2 ^ 64
  · obtain ⟨found, hFound⟩ := exists_toU64? (n := value) (by omega) (by omega)
    rw [hFound, Option.getD_some]
    rw [toU64?_eq_some_iff] at hFound
    omega
  · have hNone : toU64? value = none := by
      rw [Option.eq_none_iff_forall_ne_some]
      intro found hFound
      rw [toU64?_eq_some_iff] at hFound
      have hBound := found.toNat_lt
      omega
    rw [hNone, Option.getD_none]
    have hMax : (0xffffffffffffffff : UInt64).toNat = 2 ^ 64 - 1 := rfl
    omega

theorem saturated_mono {first second : Nat} (h : first ≤ second) :
    saturated first ≤ saturated second := by
  rw [UInt64.le_iff_toNat_le, toNat_saturated, toNat_saturated]
  omega

/-- The delay in nanoseconds: `2 ^ attempts` seconds, and five minutes at most. -/
theorem toNat_backoffNs (attempts : UInt32) :
    (backoffNs attempts).toNat =
      min (1000000000 * 2 ^ min attempts.toNat 16) 300000000000 := by
  have hPower : 2 ^ min attempts.toNat 16 ≤ 2 ^ 16 :=
    Nat.pow_le_pow_right (by omega) (by omega)
  have hCap : (300000000000 : UInt64).toNat = 300000000000 := rfl
  have hDelay := toNat_saturated (1000000000 * 2 ^ min attempts.toNat 16)
  unfold backoffNs
  rw [UInt64.min_def]
  split
  · rename_i hLe
    rw [UInt64.le_iff_toNat_le] at hLe
    omega
  · rename_i hLt
    rw [UInt64.le_iff_toNat_le] at hLt
    omega

theorem backoffNs_bounds (attempts : UInt32) :
    1000000000 ≤ (backoffNs attempts).toNat ∧
      (backoffNs attempts).toNat ≤ 300000000000 := by
  have hPower : 1 ≤ 2 ^ min attempts.toNat 16 := Nat.one_le_two_pow
  have hDelay := toNat_backoffNs attempts
  omega

theorem backoffNs_mono {first second : UInt32} (h : first ≤ second) :
    (backoffNs first).toNat ≤ (backoffNs second).toNat := by
  rw [UInt32.le_iff_toNat_le] at h
  have hPower : 2 ^ min first.toNat 16 ≤ 2 ^ min second.toNat 16 :=
    Nat.pow_le_pow_right (by omega) (by omega)
  have hFirst := toNat_backoffNs first
  have hSecond := toNat_backoffNs second
  omega

/-- When the retry that `retry_with_backoff` schedules is due. -/
def retryAt (attempts : UInt32) (nowMonoNs : UInt64) : UInt64 :=
  saturated (nowMonoNs.toNat + (backoffNs attempts).toNat)

theorem toNat_retryAt (attempts : UInt32) (nowMonoNs : UInt64) :
    (retryAt attempts nowMonoNs).toNat =
      min (nowMonoNs.toNat + (backoffNs attempts).toNat) (2 ^ 64 - 1) :=
  toNat_saturated _

/-- Only the last reading of the clock is not before the retry. -/
theorem retryAt_le_iff (attempts : UInt32) (nowMonoNs : UInt64) :
    retryAt attempts nowMonoNs ≤ nowMonoNs ↔ nowMonoNs.toNat = 2 ^ 64 - 1 := by
  have hDelay := (backoffNs_bounds attempts).1
  have hBound := nowMonoNs.toNat_lt
  rw [UInt64.le_iff_toNat_le, toNat_retryAt]
  omega

/-- With more attempts, or at a later reading of the clock, the retry is not due
earlier. -/
theorem retryAt_mono {first second : UInt32} {earlier later : UInt64}
    (hAttempts : first ≤ second) (hClock : earlier ≤ later) :
    retryAt first earlier ≤ retryAt second later := by
  rw [UInt64.le_iff_toNat_le] at hClock
  have hDelay := backoffNs_mono hAttempts
  exact saturated_mono (by omega)

end Machine

/-! ### Claims -/

namespace RelaySpool

theorem le_nextAttempts (attempts : UInt32) : attempts ≤ nextAttempts attempts := by
  unfold nextAttempts
  rw [UInt32.le_iff_toNat_le]
  cases hNext : toU32? (attempts.toNat + 1) with
  | none =>
      have hBound := attempts.toNat_lt
      have hMax : (0xffffffff : UInt32).toNat = 2 ^ 32 - 1 := rfl
      rw [Option.getD_none]
      omega
  | some next =>
      rw [toU32?_eq_some_iff] at hNext
      rw [Option.getD_some]
      omega

/-- The entry may be claimed at this reading of the clock. -/
def isReady (nowMonoNs : UInt64) (entry : SpoolEntry) : Bool :=
  decide (entry.nextAttemptMonoNs ≤ nowMonoNs)

/-- The entries that may be claimed, in the order of their identifiers. -/
def ready (spool : RelaySpool) (nowMonoNs : UInt64) : List (EnvelopeId × SpoolEntry) :=
  due (isReady nowMonoNs) spool.entries

/-- The entry after it was claimed. -/
def claimed (entry : SpoolEntry) : SpoolEntry :=
  { entry with attempts := nextAttempts entry.attempts }

@[simp] theorem claimed_envelope (entry : SpoolEntry) :
    (claimed entry).envelope = entry.envelope := by
  rw [claimed]

/-- What a claim of the entry returns. -/
def attemptOf (entry : SpoolEntry) : DeliveryAttempt where
  envelope := entry.envelope
  attempts := nextAttempts entry.attempts

@[simp] theorem attemptOf_envelope (entry : SpoolEntry) :
    (attemptOf entry).envelope = entry.envelope := by
  rw [attemptOf]

variable {spool : RelaySpool} {nowMonoNs : UInt64}

theorem nextDelivery_of_ready_nil (h : spool.ready nowMonoNs = []) :
    spool.nextDelivery nowMonoNs = (none, spool) := by
  have hFound : (spool.entries.toList.find? fun entry => isReady nowMonoNs entry.2) =
      none := by
    rw [find?_toList_eq_head?_due]
    exact congrArg List.head? h
  unfold nextDelivery
  unfold isReady at hFound
  rw [hFound]

/-- The first ready entry is claimed. -/
theorem nextDelivery_of_ready_cons {envelopeId : EnvelopeId} {entry : SpoolEntry}
    {rest : List (EnvelopeId × SpoolEntry)}
    (h : spool.ready nowMonoNs = (envelopeId, entry) :: rest) :
    spool.nextDelivery nowMonoNs =
      (some (attemptOf entry), ⟨spool.entries.insert envelopeId (claimed entry)⟩) := by
  have hFound : (spool.entries.toList.find? fun entry => isReady nowMonoNs entry.2) =
      some (envelopeId, entry) := by
    rw [find?_toList_eq_head?_due]
    exact congrArg List.head? h
  unfold nextDelivery
  unfold isReady at hFound
  rw [hFound]
  simp only [attemptOf, claimed]

theorem mem_ready_iff {entry : EnvelopeId × SpoolEntry} :
    entry ∈ spool.ready nowMonoNs ↔
      spool.entries[entry.1]? = some entry.2 ∧
        entry.2.nextAttemptMonoNs ≤ nowMonoNs := by
  rw [ready, mem_due_iff, isReady, decide_eq_true_iff]

end RelaySpool

/-! ### Rounds -/

namespace Machine

/-- How the delivery of a claimed envelope ends. -/
inductive Outcome where
  | acknowledged
  | failed
  deriving DecidableEq, Repr

/-- A claim and what follows it: the acknowledgement of the envelope, or its retry. -/
def deliver (nowMonoNs : UInt64) (outcome : Outcome) (machine : Machine) :
    Option DeliveryAttempt × Machine :=
  match machine.nextDelivery nowMonoNs with
  | (machine, none) => (none, machine)
  | (machine, some attempt) =>
      match outcome with
      | .acknowledged =>
          (some attempt, (machine.acknowledge attempt.envelope.envelopeId
            attempt.envelope.idempotencyKey .replaced).1)
      | .failed =>
          (some attempt, (machine.retryWithBackoff attempt.envelope.envelopeId nowMonoNs
            .replaced).1)

/-- The entry with the time of its retry. -/
def rescheduled (nowMonoNs : UInt64) (entry : SpoolEntry) : SpoolEntry :=
  { entry with nextAttemptMonoNs := retryAt entry.attempts nowMonoNs }

@[simp] theorem rescheduled_envelope (nowMonoNs : UInt64) (entry : SpoolEntry) :
    (rescheduled nowMonoNs entry).envelope = entry.envelope := by
  rw [rescheduled]

@[simp] theorem rescheduled_attempts (nowMonoNs : UInt64) (entry : SpoolEntry) :
    (rescheduled nowMonoNs entry).attempts = entry.attempts := by
  rw [rescheduled]

@[simp] theorem rescheduled_nextAttemptMonoNs (nowMonoNs : UInt64) (entry : SpoolEntry) :
    (rescheduled nowMonoNs entry).nextAttemptMonoNs =
      retryAt entry.attempts nowMonoNs := by
  rw [rescheduled]

/-- What becomes of an entry that was claimed. -/
def settle (nowMonoNs : UInt64) (outcome : Outcome) (entry : SpoolEntry) :
    Option SpoolEntry :=
  match outcome with
  | .acknowledged => none
  | .failed => some (rescheduled nowMonoNs (RelaySpool.claimed entry))

/-- A settled entry is gone, or it has to wait. -/
theorem isReady_of_settled {nowMonoNs : UInt64} {outcome : Outcome}
    {entry later : SpoolEntry} (hClock : nowMonoNs.toNat ≠ 2 ^ 64 - 1)
    (h : settle nowMonoNs outcome entry = some later) :
    RelaySpool.isReady nowMonoNs later = false := by
  cases outcome with
  | acknowledged => cases h
  | failed =>
      rw [settle, Option.some.injEq] at h
      rw [← h, RelaySpool.isReady, decide_eq_false_iff_not,
        rescheduled_nextAttemptMonoNs, retryAt_le_iff]
      exact hClock

/-- The process runs and its spool is sound. -/
def Running (machine : Machine) : Prop :=
  ∃ spool, machine.spool = some spool ∧ spool.Sound

/-- The entries of the running process that may be claimed. -/
def readyEntries (nowMonoNs : UInt64) (machine : Machine) :
    List (EnvelopeId × SpoolEntry) :=
  machine.spool.elim [] fun spool => spool.ready nowMonoNs

def spooled? (machine : Machine) (envelopeId : EnvelopeId) : Option SpoolEntry :=
  machine.spool.bind fun spool => spool.entries[envelopeId]?

/-- An acknowledgement with the key of the retained envelope, when it is stored. -/
theorem acknowledge_of_retained (machine : Machine) {spool : RelaySpool}
    {envelopeId : EnvelopeId} {entry : SpoolEntry}
    (hSpool : machine.spool = some spool)
    (hEntry : spool.entries[envelopeId]? = some entry) :
    (machine.acknowledge envelopeId entry.envelope.idempotencyKey .replaced).1.spool =
      some ⟨spool.entries.erase envelopeId⟩ := by
  have hAcknowledge : spool.acknowledge envelopeId entry.envelope.idempotencyKey =
      .ok ⟨spool.entries.erase envelopeId⟩ :=
    RelaySpool.acknowledge_eq_ok_iff.mpr ⟨entry, hEntry, rfl, rfl⟩
  simp only [Machine.acknowledge, Machine.change, hSpool, hAcknowledge, ok_bind,
    pure_eq_ok, Machine.persist]

/-- A retry of a retained envelope, when it is stored, answers with its time. -/
theorem retryWithBackoff_of_retained (machine : Machine) {spool : RelaySpool}
    {envelopeId : EnvelopeId} {entry : SpoolEntry} (nowMonoNs : UInt64)
    (hSpool : machine.spool = some spool)
    (hEntry : spool.entries[envelopeId]? = some entry) :
    (machine.retryWithBackoff envelopeId nowMonoNs .replaced).1.spool =
        some ⟨spool.entries.insert envelopeId (rescheduled nowMonoNs entry)⟩ ∧
      (machine.retryWithBackoff envelopeId nowMonoNs .replaced).2 =
        some (.ok (retryAt entry.attempts nowMonoNs)) := by
  have hRetry : spool.retryLater envelopeId (retryAt entry.attempts nowMonoNs) =
      .ok ⟨spool.entries.insert envelopeId (rescheduled nowMonoNs entry)⟩ :=
    RelaySpool.retryLater_eq_ok_iff.mpr ⟨entry, hEntry, by rw [rescheduled]⟩
  rw [retryAt] at hRetry ⊢
  constructor <;>
    simp only [Machine.retryWithBackoff, Machine.change, hSpool, hEntry, orFault, ok_bind,
      hRetry, pure_eq_ok, Machine.persist]

variable {machine : Machine} {nowMonoNs : UInt64}

theorem deliver_of_ready_nil (outcome : Outcome) (hRunning : machine.Running)
    (h : machine.readyEntries nowMonoNs = []) :
    deliver nowMonoNs outcome machine = (none, machine) := by
  obtain ⟨spool, hSpool, -⟩ := hRunning
  rw [readyEntries, hSpool] at h
  obtain ⟨disk, running⟩ := machine
  cases hSpool
  simp only [deliver, nextDelivery, RelaySpool.nextDelivery_of_ready_nil h]

/-- What a claim of the first ready entry and the change after it leave behind. -/
theorem settles_of_change {outcome : Outcome} {spool final : RelaySpool}
    {next : Machine} {envelopeId : EnvelopeId} {entry : SpoolEntry}
    {rest : List (EnvelopeId × SpoolEntry)}
    (hClock : nowMonoNs.toNat ≠ 2 ^ 64 - 1) (hSpool : machine.spool = some spool)
    (hReady : spool.ready nowMonoNs = (envelopeId, entry) :: rest)
    (hNext : next.spool = some final) (hFinal : final.Sound)
    (hSettled : final.entries[envelopeId]? = settle nowMonoNs outcome entry)
    (hOthers : ∀ other, other ≠ envelopeId →
      final.entries[other]? = spool.entries[other]?) :
    next.Running ∧ next.readyEntries nowMonoNs = rest ∧
      next.spooled? envelopeId = settle nowMonoNs outcome entry ∧
      ∀ other, other ≠ envelopeId → next.spooled? other = machine.spooled? other := by
  refine ⟨⟨final, hNext, hFinal⟩, ?_, ?_, ?_⟩
  · rw [readyEntries, hNext]
    refine due_of_served hReady ?_ hOthers
    intro later hLater
    rw [hSettled] at hLater
    exact isReady_of_settled hClock hLater
  · rw [spooled?, hNext]
    exact hSettled
  · intro other hOther
    rw [spooled?, spooled?, hNext, hSpool]
    exact hOthers other hOther

/-- A claim and what follows it settle the first ready entry, and leave the others. -/
theorem deliver_of_ready_cons (outcome : Outcome) (hRunning : machine.Running)
    (hClock : nowMonoNs.toNat ≠ 2 ^ 64 - 1) {envelopeId : EnvelopeId}
    {entry : SpoolEntry} {rest : List (EnvelopeId × SpoolEntry)}
    (h : machine.readyEntries nowMonoNs = (envelopeId, entry) :: rest) :
    ∃ next, deliver nowMonoNs outcome machine =
        (some (RelaySpool.attemptOf entry), next) ∧ next.Running ∧
      next.readyEntries nowMonoNs = rest ∧
      next.spooled? envelopeId = settle nowMonoNs outcome entry ∧
      ∀ other, other ≠ envelopeId → next.spooled? other = machine.spooled? other := by
  obtain ⟨spool, hSpool, hSound⟩ := hRunning
  rw [readyEntries, hSpool, Option.elim_some] at h
  have hEntry : spool.entries[envelopeId]? = some entry := by
    have hMem : (envelopeId, entry) ∈ spool.ready nowMonoNs := by
      rw [h]
      exact List.mem_cons_self
    exact (RelaySpool.mem_ready_iff.mp hMem).1
  have hKey : entry.envelope.envelopeId = envelopeId := hSound.keyed hEntry
  -- The spool between the claim and what follows it.
  obtain ⟨between, hClaimed⟩ : ∃ between : RelaySpool,
      between = ⟨spool.entries.insert envelopeId (RelaySpool.claimed entry)⟩ := ⟨_, rfl⟩
  have hBetween : between.entries[envelopeId]? = some (RelaySpool.claimed entry) := by
    rw [hClaimed, SpoolMap.getElem?_insert, if_pos rfl]
  have hOthers : ∀ other, other ≠ envelopeId →
      between.entries[other]? = spool.entries[other]? := by
    intro other hOther
    rw [hClaimed, SpoolMap.getElem?_insert, if_neg (Ne.symm hOther)]
  have hBetweenSound : between.Sound := by
    rw [hClaimed]
    exact hSound.replace hEntry (RelaySpool.claimed_envelope entry)
  have hClaim : machine.nextDelivery nowMonoNs =
      (⟨machine.disk, some between⟩, some (RelaySpool.attemptOf entry)) := by
    simp only [nextDelivery, hSpool, RelaySpool.nextDelivery_of_ready_cons h, hClaimed]
  cases outcome with
  | acknowledged =>
      have hNext := acknowledge_of_retained ⟨machine.disk, some between⟩ rfl hBetween
      rw [RelaySpool.claimed_envelope] at hNext
      refine ⟨_, ?_, settles_of_change hClock hSpool h hNext
        (hBetweenSound.acknowledge
          (RelaySpool.acknowledge_eq_ok_iff.mpr ⟨_, hBetween, rfl, rfl⟩)) ?_ ?_⟩
      · simp only [deliver, hClaim, RelaySpool.attemptOf_envelope, hKey]
      · rw [SpoolMap.getElem?_erase, if_pos rfl, settle]
      · intro other hOther
        rw [SpoolMap.getElem?_erase, if_neg (Ne.symm hOther), hOthers other hOther]
  | failed =>
      have hNext := (retryWithBackoff_of_retained ⟨machine.disk, some between⟩ nowMonoNs
        rfl hBetween).1
      refine ⟨_, ?_, settles_of_change hClock hSpool h hNext
        (hBetweenSound.replace hBetween (rescheduled_envelope nowMonoNs _)) ?_ ?_⟩
      · simp only [deliver, hClaim, RelaySpool.attemptOf_envelope, hKey]
      · rw [SpoolMap.getElem?_insert, if_pos rfl, settle]
      · intro other hOther
        rw [SpoolMap.getElem?_insert, if_neg (Ne.symm hOther), hOthers other hOther]

theorem serves (hClock : nowMonoNs.toNat ≠ 2 ^ 64 - 1) :
    Serves (deliver nowMonoNs) Running (readyEntries nowMonoNs) spooled?
      RelaySpool.attemptOf (settle nowMonoNs) where
  nodup := by
    rintro machine ⟨spool, hSpool, -⟩
    rw [readyEntries, hSpool]
    exact nodup_keys_due
  idle := fun outcome hRunning hReady => deliver_of_ready_nil outcome hRunning hReady
  serve := fun outcome hRunning hReady =>
    deliver_of_ready_cons outcome hRunning hClock hReady

end Machine

/-- In every run: take any number of turns at one reading of the clock, each a claim
that is answered with the acknowledgement or with a retry, as its outcome says.  They
deliver the envelopes that were ready, from the least identifier on, each of them once,
and what they do not reach stays ready.  Every delivered envelope is settled by the
outcome of its turn, and every other entry is as before. -/
theorem round_delivers (calls : List Machine.Call) (spool : RelaySpool)
    (hSpool : (run Machine.step .fresh calls).spool = some spool) (nowMonoNs : UInt64)
    (hClock : nowMonoNs.toNat ≠ 2 ^ 64 - 1) (outcomes : List Machine.Outcome) :
    let delivered := round (Machine.deliver nowMonoNs) outcomes
      (run Machine.step .fresh calls)
    let served := (spool.ready nowMonoNs).take outcomes.length
    delivered.1 = served.map (fun entry => RelaySpool.attemptOf entry.2) ∧
    delivered.2.readyEntries nowMonoNs =
      (spool.ready nowMonoNs).drop outcomes.length ∧
    (served.map Prod.fst).Pairwise (fun first second => first.compare second = .lt) ∧
    (∀ (index : Nat) (outcome : Machine.Outcome) (envelopeId : EnvelopeId)
      (entry : SpoolEntry), outcomes[index]? = some outcome →
      (spool.ready nowMonoNs)[index]? = some (envelopeId, entry) →
      delivered.2.spooled? envelopeId = Machine.settle nowMonoNs outcome entry) ∧
    ∀ envelopeId, envelopeId ∉ served.map Prod.fst →
      delivered.2.spooled? envelopeId = spool.entries[envelopeId]? := by
  intro delivered served
  have hRunning : (run Machine.step .fresh calls).Running :=
    ⟨spool, hSpool, (Machine.everywhere_sound calls).memory spool hSpool⟩
  have hServes := Machine.serves hClock
  have hReady : (run Machine.step .fresh calls).readyEntries nowMonoNs =
      spool.ready nowMonoNs := by
    rw [Machine.readyEntries, hSpool, Option.elim_some]
  have hRead : ∀ envelopeId, (run Machine.step .fresh calls).spooled? envelopeId =
      spool.entries[envelopeId]? := by
    intro envelopeId
    rw [Machine.spooled?, hSpool, Option.bind_some]
  obtain ⟨hReports, hLeft, -⟩ := hServes.round_reports outcomes hRunning
  rw [hReady] at hReports hLeft
  refine ⟨hReports, hLeft, ?_, ?_, ?_⟩
  · have hOrder : ((spool.ready nowMonoNs).map Prod.fst).Pairwise
        fun first second => first.compare second = .lt :=
      List.pairwise_map.mpr pairwise_due
    show (((spool.ready nowMonoNs).take outcomes.length).map Prod.fst).Pairwise _
    rw [List.map_take]
    exact hOrder.take
  · intro index outcome envelopeId entry hOutcome hEntry
    rw [← hReady] at hEntry
    exact hServes.round_settles hRunning hOutcome hEntry
  · intro envelopeId hKey
    rw [← hRead envelopeId]
    apply hServes.round_frame outcomes hRunning
    rw [hReady]
    exact hKey

/-- A small envelope; its identifier repeats the byte. -/
def sampleEnvelope (byte : UInt8) : BuiltEnvelope :=
  ⟨{ envelopeId := ⟨.fill 16 byte⟩, direction := .brokerToService, kind := .request,
     idempotencyKey := .fill 32 9, payload := [1, 2] }, rfl, Nat.le_of_ble_eq_true rfl⟩

def sampleCalls : List Machine.Call :=
  [.reopen, .enqueue (sampleEnvelope 2) 5 .replaced,
    .enqueue (sampleEnvelope 1) 6 .replaced]

/-- The spool of the two envelopes. -/
def sampleSpool : RelaySpool :=
  ⟨((∅ : SpoolMap).insert ⟨.fill 16 2⟩ ⟨(sampleEnvelope 2).val, 0, 5⟩).insert
    ⟨.fill 16 1⟩ ⟨(sampleEnvelope 1).val, 0, 6⟩⟩

theorem round_delivers_sample :
    (run Machine.step .fresh sampleCalls).spool = some sampleSpool ∧
      ∀ outcomes, (round (Machine.deliver 7) outcomes
          (run Machine.step .fresh sampleCalls)).1 =
        ((sampleSpool.ready 7).take outcomes.length).map
          fun entry => RelaySpool.attemptOf entry.2 :=
  ⟨rfl, fun outcomes =>
    (round_delivers sampleCalls sampleSpool rfl 7 (by decide) outcomes).1⟩

/-! ### Retries that are kept -/

namespace RelaySpool

/-- The envelope is retained with this key, was claimed this often, and has to wait this
long. -/
def Waits (envelopeId : EnvelopeId) (idempotencyKey : ByteArr 32) (attempts : UInt32)
    (nextAttemptMonoNs : UInt64) (spool : RelaySpool) : Prop :=
  ∃ entry, spool.entries[envelopeId]? = some entry ∧
    entry.envelope.idempotencyKey = idempotencyKey ∧ attempts ≤ entry.attempts ∧
    nextAttemptMonoNs ≤ entry.nextAttemptMonoNs

variable {envelopeId : EnvelopeId} {idempotencyKey : ByteArr 32} {attempts : UInt32}
  {nextAttemptMonoNs : UInt64} {spool : RelaySpool}

/-- A change of another entry does not matter. -/
theorem Waits.of_other {changed : RelaySpool}
    (h : spool.Waits envelopeId idempotencyKey attempts nextAttemptMonoNs)
    (hOther : changed.entries[envelopeId]? = spool.entries[envelopeId]?) :
    changed.Waits envelopeId idempotencyKey attempts nextAttemptMonoNs := by
  obtain ⟨entry, hEntry, hBounds⟩ := h
  exact ⟨entry, hOther.trans hEntry, hBounds⟩

/-- An entry is written over by one that was claimed more often and waits longer. -/
theorem Waits.insert {other : EnvelopeId} {old new : SpoolEntry}
    (h : spool.Waits envelopeId idempotencyKey attempts nextAttemptMonoNs)
    (hOld : spool.entries[other]? = some old) (hEnvelope : new.envelope = old.envelope)
    (hAttempts : old.attempts ≤ new.attempts)
    (hTime : other = envelopeId → nextAttemptMonoNs ≤ old.nextAttemptMonoNs →
      attempts ≤ old.attempts → nextAttemptMonoNs ≤ new.nextAttemptMonoNs) :
    Waits envelopeId idempotencyKey attempts nextAttemptMonoNs
      ⟨spool.entries.insert other new⟩ := by
  by_cases hSame : other = envelopeId
  · obtain ⟨entry, hEntry, hKey, hClaims, hWait⟩ := h
    rw [← hSame, hOld, Option.some.injEq] at hEntry
    subst hEntry
    refine ⟨new, by rw [SpoolMap.getElem?_insert, if_pos hSame], hEnvelope ▸ hKey,
      UInt32.le_trans hClaims hAttempts, hTime hSame hWait hClaims⟩
  · exact h.of_other (by rw [SpoolMap.getElem?_insert, if_neg hSame])

theorem Waits.enqueue {envelope : OpaqueEnvelope} {nowMonoNs : UInt64}
    {changed : RelaySpool}
    (h : spool.Waits envelopeId idempotencyKey attempts nextAttemptMonoNs)
    (hChanged : spool.enqueue envelope nowMonoNs = .ok changed) :
    changed.Waits envelopeId idempotencyKey attempts nextAttemptMonoNs := by
  obtain ⟨hNew, -, rfl⟩ := enqueue_eq_ok_iff.mp hChanged
  refine h.of_other ?_
  obtain ⟨entry, hEntry, -⟩ := h
  rw [SpoolMap.getElem?_insert, if_neg]
  rintro rfl
  rw [Std.ExtTreeMap.mem_iff_isSome_getElem?, hEntry] at hNew
  exact hNew rfl

theorem Waits.nextDelivery
    (h : spool.Waits envelopeId idempotencyKey attempts nextAttemptMonoNs)
    (nowMonoNs : UInt64) :
    (spool.nextDelivery nowMonoNs).2.Waits envelopeId idempotencyKey attempts
      nextAttemptMonoNs := by
  rcases spool.nextDelivery_cases nowMonoNs with hSame | ⟨other, entry, hEntry, hNext⟩
  · rw [hSame]
    exact h
  · rw [hNext]
    exact h.insert hEntry rfl (le_nextAttempts entry.attempts) fun _ hWait _ => hWait

/-- An acknowledgement of the envelope with another key is refused. -/
theorem Waits.acknowledge {other : EnvelopeId} {key : ByteArr 32} {changed : RelaySpool}
    (h : spool.Waits envelopeId idempotencyKey attempts nextAttemptMonoNs)
    (hOther : other = envelopeId → key ≠ idempotencyKey)
    (hChanged : spool.acknowledge other key = .ok changed) :
    changed.Waits envelopeId idempotencyKey attempts nextAttemptMonoNs := by
  obtain ⟨found, hFound, hFoundKey, rfl⟩ := acknowledge_eq_ok_iff.mp hChanged
  have hNamed : other ≠ envelopeId := by
    rintro rfl
    obtain ⟨entry, hEntry, hKey, -⟩ := h
    rw [hFound, Option.some.injEq] at hEntry
    exact hOther rfl (hFoundKey.symm.trans (hEntry ▸ hKey))
  exact h.of_other (by rw [SpoolMap.getElem?_erase, if_neg hNamed])

/-- What a claim returns was ready. -/
theorem ready_of_nextDelivery {nowMonoNs : UInt64} {attempt : DeliveryAttempt}
    (hSound : spool.Sound) (h : (spool.nextDelivery nowMonoNs).1 = some attempt) :
    ∃ entry, spool.entries[attempt.envelope.envelopeId]? = some entry ∧
      entry.nextAttemptMonoNs ≤ nowMonoNs := by
  cases hReady : spool.ready nowMonoNs with
  | nil =>
      rw [nextDelivery_of_ready_nil hReady] at h
      cases h
  | cons first rest =>
      obtain ⟨other, entry⟩ := first
      rw [nextDelivery_of_ready_cons hReady, Option.some.injEq] at h
      obtain ⟨hEntry, hDue⟩ := mem_ready_iff.mp (by
        rw [hReady]
        exact List.mem_cons_self : (other, entry) ∈ spool.ready nowMonoNs)
      refine ⟨entry, ?_, hDue⟩
      rw [← h, attemptOf_envelope, hSound.keyed hEntry]
      exact hEntry

end RelaySpool

namespace Machine

/-- The call does not acknowledge the envelope with its key, and does not schedule it by an
earlier reading of the clock. -/
def Call.Spares (envelopeId : EnvelopeId) (idempotencyKey : ByteArr 32)
    (nowMonoNs : UInt64) : Call → Prop
  | .acknowledge other key _ => other = envelopeId → key ≠ idempotencyKey
  | .retryWithBackoff other clock _ => other = envelopeId → nowMonoNs ≤ clock
  | .enqueue _ _ _ | .nextDelivery _ | .crash | .reopen => True

variable {machine : Machine} {envelopeId : EnvelopeId} {idempotencyKey : ByteArr 32}
  {attempts : UInt32} {nowMonoNs : UInt64}

/-- A sound spool in which the envelope waits as long as after this retry. -/
def Keeps (envelopeId : EnvelopeId) (idempotencyKey : ByteArr 32) (attempts : UInt32)
    (nowMonoNs : UInt64) (spool : RelaySpool) : Prop :=
  spool.Sound ∧ spool.Waits envelopeId idempotencyKey attempts (retryAt attempts nowMonoNs)

/-- A retry by a later reading of the clock is due later. -/
theorem everywhere_keeps_retry {other : EnvelopeId} {clock : UInt64}
    {ending : PersistEnd} (hClock : other = envelopeId → nowMonoNs ≤ clock)
    (h : machine.Everywhere (Keeps envelopeId idempotencyKey attempts nowMonoNs)) :
    (machine.retryWithBackoff other clock ending).1.Everywhere
      (Keeps envelopeId idempotencyKey attempts nowMonoNs) := by
  unfold retryWithBackoff
  refine h.change (fun _ hSpool => hSpool.1) ?_
  rintro spool value candidate ⟨hSound, hWaits⟩ hChange
  simp only [bind_eq_ok_iff, orFault_eq_ok_iff, pure_eq_ok, Except.ok.injEq,
    Prod.mk.injEq, RelaySpool.retryLater_eq_ok_iff] at hChange
  obtain ⟨entry, hEntry, _, ⟨found, hFound, rfl⟩, -, rfl⟩ := hChange
  have hSame : found = entry := by
    rw [hEntry, Option.some.injEq] at hFound
    exact hFound.symm
  subst hSame
  refine ⟨hSound.replace hEntry rfl, hWaits.insert hEntry rfl (UInt32.le_refl _) ?_⟩
  intro hOther _ hAttempts
  exact retryAt_mono hAttempts (hClock hOther)

theorem everywhere_keeps_step {call : Call}
    (hCall : call.Spares envelopeId idempotencyKey nowMonoNs)
    (h : machine.Everywhere (Keeps envelopeId idempotencyKey attempts nowMonoNs)) :
    (machine.step call).Everywhere (Keeps envelopeId idempotencyKey attempts nowMonoNs) := by
  have hOther : ∀ effect : RelaySpool.Call,
      (∀ spool : RelaySpool, spool.Waits envelopeId idempotencyKey attempts
          (retryAt attempts nowMonoNs) →
        (spool.step effect).Waits envelopeId idempotencyKey attempts
          (retryAt attempts nowMonoNs)) →
      ∀ spool, Keeps envelopeId idempotencyKey attempts nowMonoNs spool →
        Keeps envelopeId idempotencyKey attempts nowMonoNs (spool.step effect) :=
    fun effect hStep spool hSpool => ⟨hSpool.1.step effect, hStep spool hSpool.2⟩
  have hSound : ∀ spool, Keeps envelopeId idempotencyKey attempts nowMonoNs spool → spool.Sound :=
    fun _ hSpool => hSpool.1
  cases call with
  | retryWithBackoff other clock ending => exact everywhere_keeps_retry hCall h
  | enqueue envelope clock ending =>
      refine h.step hSound ?_
      rintro spool _ ⟨⟩
      refine hOther _ (fun before hWaits => ?_) spool
      exact RelaySpool.settle_property hWaits fun _ hChanged => hWaits.enqueue hChanged
  | nextDelivery clock =>
      refine h.step hSound ?_
      rintro spool _ ⟨⟩
      exact hOther (.nextDelivery clock) (fun _ hWaits => hWaits.nextDelivery clock) spool
  | acknowledge other key ending =>
      refine h.step hSound ?_
      rintro spool _ ⟨⟩
      refine hOther _ (fun before hWaits => ?_) spool
      exact RelaySpool.settle_property hWaits fun _ hChanged =>
        hWaits.acknowledge hCall hChanged
  | crash => exact h.step hSound (by rintro spool _ ⟨⟩)
  | reopen => exact h.step hSound (by rintro spool _ ⟨⟩)

/-- What a retry that answered has stored. -/
theorem everywhere_of_retry {ending : PersistEnd} {nextAttemptMonoNs : UInt64}
    (hSound : machine.Everywhere RelaySpool.Sound)
    (h : (machine.retryWithBackoff envelopeId nowMonoNs ending).2 =
      some (.ok nextAttemptMonoNs)) :
    ∃ spool entry, machine.spool = some spool ∧
      spool.entries[envelopeId]? = some entry ∧
      nextAttemptMonoNs = retryAt entry.attempts nowMonoNs ∧
      (machine.retryWithBackoff envelopeId nowMonoNs ending).1.Everywhere
        (Keeps envelopeId entry.envelope.idempotencyKey entry.attempts nowMonoNs) := by
  unfold retryWithBackoff change at h ⊢
  cases hSpool : machine.spool with
  | none =>
      rw [hSpool] at h
      cases h
  | some spool =>
      rw [hSpool] at h
      cases hEntry : spool.entries[envelopeId]? with
      | none =>
          simp only [hEntry, orFault, error_bind, Option.some.injEq] at h
          cases h
      | some entry =>
          have hRetry : spool.retryLater envelopeId (retryAt entry.attempts nowMonoNs) =
              .ok ⟨spool.entries.insert envelopeId (rescheduled nowMonoNs entry)⟩ :=
            RelaySpool.retryLater_eq_ok_iff.mpr ⟨entry, hEntry, by rw [rescheduled]⟩
          rw [retryAt] at hRetry
          simp only [hEntry, orFault, ok_bind, hRetry, pure_eq_ok] at h ⊢
          have hNew : Keeps envelopeId entry.envelope.idempotencyKey entry.attempts
              nowMonoNs
              ⟨spool.entries.insert envelopeId (rescheduled nowMonoNs entry)⟩ := by
            refine ⟨(hSound.memory spool hSpool).replace hEntry
              (rescheduled_envelope nowMonoNs entry), rescheduled nowMonoNs entry,
              by rw [SpoolMap.getElem?_insert, if_pos rfl],
              by rw [rescheduled_envelope], ?_, ?_⟩
            · rw [rescheduled_attempts]
              exact UInt32.le_refl _
            · rw [rescheduled_nextAttemptMonoNs]
              exact UInt64.le_refl _
          -- Only a stored retry answers with its time.
          cases ending with
          | replaced =>
              rw [persist, Option.some.injEq, Except.ok.injEq] at h
              refine ⟨spool, entry, rfl, hEntry, h.symm, ?_⟩
              refine Everywhere.stored hNew.1 hNew ?_
              intro memory hMemory
              rw [Option.some.injEq] at hMemory
              rw [← hMemory]
              exact hNew
          | _ => cases h

end Machine

/-- In every run of calls, crashes and reopenings: a retry that was answered is due
`2 ^ attempts` seconds after the reading of the clock, five minutes at most.  Until the
envelope is acknowledged with its key, or scheduled by an earlier reading of the clock, no
claim returns it before that time, also when the process that scheduled it is gone. -/
theorem retry_kept (earlier later : List Machine.Call) (envelopeId : EnvelopeId)
    (nowMonoNs nextAttemptMonoNs : UInt64) (ending : PersistEnd)
    (hAnswer : ((run Machine.step .fresh earlier).retryWithBackoff envelopeId nowMonoNs
      ending).2 = some (.ok nextAttemptMonoNs)) :
    ∃ spool entry, (run Machine.step .fresh earlier).spool = some spool ∧
      spool.entries[envelopeId]? = some entry ∧
      nextAttemptMonoNs.toNat =
        min (nowMonoNs.toNat +
          min (1000000000 * 2 ^ min entry.attempts.toNat 16) 300000000000)
          (2 ^ 64 - 1) ∧
      ((∀ call ∈ later,
          call.Spares envelopeId entry.envelope.idempotencyKey nowMonoNs) →
        ∀ (clock : UInt64) (attempt : DeliveryAttempt),
          ((run Machine.step .fresh (earlier ++
            .retryWithBackoff envelopeId nowMonoNs ending :: later)).nextDelivery
              clock).2 = some attempt →
          attempt.envelope.envelopeId = envelopeId → nextAttemptMonoNs ≤ clock) := by
  obtain ⟨spool, entry, hSpool, hEntry, hTime, hStored⟩ :=
    Machine.everywhere_of_retry (Machine.everywhere_sound earlier) hAnswer
  refine ⟨spool, entry, hSpool, hEntry, ?_, ?_⟩
  · rw [hTime, Machine.toNat_retryAt, Machine.toNat_backoffNs]
  · intro hLater clock attempt hClaim hId
    have hKept : (run Machine.step .fresh (earlier ++
        .retryWithBackoff envelopeId nowMonoNs ending :: later)).Everywhere
          (Machine.Keeps envelopeId entry.envelope.idempotencyKey entry.attempts
            nowMonoNs) := by
      rw [run_append, run_cons]
      refine run_invariant_of_throughout hStored ?_
        (Throughout.of_mem fun call hCall _ => hLater call hCall)
      intro state call hState hSpares
      exact Machine.everywhere_keeps_step hSpares hState
    unfold Machine.nextDelivery at hClaim
    split at hClaim
    · cases hClaim
    · rename_i last hLast
      obtain ⟨hSound, found, hFound, -, -, hWait⟩ := hKept.memory last hLast
      obtain ⟨due, hDue, hReady⟩ := RelaySpool.ready_of_nextDelivery hSound hClaim
      rw [hId, hFound, Option.some.injEq] at hDue
      subst hDue
      rw [hTime]
      exact UInt64.le_trans hWait hReady

/-- A retry of the sample is kept across a refused acknowledgement and a crash. -/
theorem retry_kept_sample :
    ((run Machine.step .fresh sampleCalls).retryWithBackoff ⟨.fill 16 1⟩ 7
        .replaced).2 = some (.ok (Machine.retryAt 0 7)) ∧
      ∀ (clock : UInt64) (attempt : DeliveryAttempt),
        ((run Machine.step .fresh (sampleCalls ++ .retryWithBackoff ⟨.fill 16 1⟩ 7
          .replaced :: [.acknowledge ⟨.fill 16 1⟩ (.fill 32 8) .replaced, .crash,
            .reopen])).nextDelivery clock).2 = some attempt →
        attempt.envelope.envelopeId = ⟨.fill 16 1⟩ → Machine.retryAt 0 7 ≤ clock := by
  have hSpool : (run Machine.step .fresh sampleCalls).spool = some sampleSpool := rfl
  have hEntry : sampleSpool.entries[(⟨.fill 16 1⟩ : EnvelopeId)]? =
      some ⟨(sampleEnvelope 1).val, 0, 6⟩ := by
    rw [sampleSpool, SpoolMap.getElem?_insert, if_pos rfl]
  have hAnswer : ((run Machine.step .fresh sampleCalls).retryWithBackoff ⟨.fill 16 1⟩ 7
      .replaced).2 = some (.ok (Machine.retryAt 0 7)) :=
    (Machine.retryWithBackoff_of_retained _ 7 hSpool hEntry).2
  obtain ⟨spool, entry, hFound, hRetained, -, hKept⟩ := retry_kept sampleCalls
    [.acknowledge ⟨.fill 16 1⟩ (.fill 32 8) .replaced, .crash, .reopen] _ 7 _ .replaced
    hAnswer
  rw [hSpool, Option.some.injEq] at hFound
  rw [← hFound, hEntry, Option.some.injEq] at hRetained
  refine ⟨hAnswer, hKept ?_⟩
  intro call hCall
  rw [List.mem_cons, List.mem_cons, List.mem_singleton] at hCall
  rcases hCall with rfl | rfl | rfl
  · intro _
    rw [← hRetained]
    decide
  · trivial
  · trivial

end Relay
end RootPermit
