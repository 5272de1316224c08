import RootPermit.Relay.Snapshot

/-!
# The file spool across crashes

This module embeds `FileRelaySpool` of `rp-relay/src/lib.rs`: a spool in memory and its
snapshot in a file.  Every change is made to a copy of the spool, stored as a whole, and
taken over only after it was stored.  The storing of a snapshot may fail or be cut off
by a crash, each time before or after the new snapshot has replaced the old one.

* `Machine.Everywhere.change` — what a change preserves holds in memory and in the file,
  however the storing ends;
* `Machine.Everywhere.step` — the same of every call, over its effect on spools;
* `no_envelope_lost` — for all runs of calls, crashes and reopenings.
-/

namespace RootPermit
namespace Relay

open Foundation

/-! ### The file and the process -/

/-- The outcome of `fs::read`. -/
inductive FileContent where
  | bytes (content : Bytes)
  | notFound
  | failed (message : String)

/-- `FileRelaySpool::open`; the path is fixed. -/
def openSpool : FileContent → Except RelayError RelaySpool
  | .bytes content => decodeSpool content
  | .notFound => .ok .empty
  | .failed message => .error (.storage message)

/-- How the storing of a snapshot ends. -/
inductive PersistEnd where
  | failedBefore (message : String)
  | failedAfter (message : String)
  | replaced
  | crashedBefore
  | crashedAfter

/-- The snapshot file, and the spool of the process that has it open. -/
structure Machine where
  disk : Option Bytes
  spool : Option RelaySpool

/-- The answer to a call, unless the process did not live to give it. -/
abbrev Answer (α : Type) := Option (Except RelayError α)

namespace Machine

/-- No file yet, and nothing running. -/
def fresh : Machine :=
  ⟨none, none⟩

def content (machine : Machine) : FileContent :=
  match machine.disk with
  | some bytes => .bytes bytes
  | none => .notFound

/-- `persist`, and after its success the take-over of the stored candidate. -/
def persist {α : Type} (machine : Machine) (ending : PersistEnd) (value : α)
    (candidate : RelaySpool) : Machine × Answer α :=
  match ending with
  | .failedBefore message => (machine, some (.error (.storage message)))
  | .failedAfter message =>
      ({ machine with disk := some (encodeSpool candidate) },
        some (.error (.storage message)))
  | .replaced => (⟨some (encodeSpool candidate), some candidate⟩, some (.ok value))
  | .crashedBefore => ({ machine with spool := none }, none)
  | .crashedAfter => (⟨some (encodeSpool candidate), none⟩, none)

/-- A change is made to a clone of the spool, which is then stored. -/
def change {α : Type} (machine : Machine) (ending : PersistEnd)
    (change : RelaySpool → Except RelayError (α × RelaySpool)) : Machine × Answer α :=
  match machine.spool with
  | none => (machine, none)
  | some spool =>
      match change spool with
      | .error fault => (machine, some (.error fault))
      | .ok (value, candidate) => machine.persist ending value candidate

def enqueue (machine : Machine) (envelope : OpaqueEnvelope) (nowMonoNs : UInt64)
    (ending : PersistEnd) : Machine × Answer Unit :=
  machine.change ending fun spool => do
    let candidate ← spool.enqueue envelope nowMonoNs
    return ((), candidate)

/-- Deliveries are counted in memory only. -/
def nextDelivery (machine : Machine) (nowMonoNs : UInt64) :
    Machine × Option DeliveryAttempt :=
  match machine.spool with
  | none => (machine, none)
  | some spool =>
      let (attempt, spool) := spool.nextDelivery nowMonoNs
      ({ machine with spool := some spool }, attempt)

def acknowledge (machine : Machine) (envelopeId : EnvelopeId)
    (idempotencyKey : ByteArr 32) (ending : PersistEnd) : Machine × Answer Unit :=
  machine.change ending fun spool => do
    let candidate ← spool.acknowledge envelopeId idempotencyKey
    return ((), candidate)

/-- A `u64` result of saturating arithmetic. -/
def saturated (value : Nat) : UInt64 :=
  (toU64? value).getD 0xffffffffffffffff

/-- The delay doubles with every attempt, up to five minutes. -/
def backoffNs (attempts : UInt32) : UInt64 :=
  min (saturated (1000000000 * 2 ^ min attempts.toNat 16)) 300000000000

def retryWithBackoff (machine : Machine) (envelopeId : EnvelopeId)
    (nowMonoNs : UInt64) (ending : PersistEnd) : Machine × Answer UInt64 :=
  machine.change ending fun spool => do
    let entry ← orFault .unknownEnvelope spool.entries[envelopeId]?
    let nextAttemptMonoNs :=
      saturated (nowMonoNs.toNat + (backoffNs entry.attempts).toNat)
    let candidate ← spool.retryLater envelopeId nextAttemptMonoNs
    return (nextAttemptMonoNs, candidate)

/-- What happens to a machine.  A reopening ends the process that is running. -/
inductive Call where
  | enqueue (envelope : BuiltEnvelope) (nowMonoNs : UInt64) (ending : PersistEnd)
  | nextDelivery (nowMonoNs : UInt64)
  | acknowledge (envelopeId : EnvelopeId) (idempotencyKey : ByteArr 32)
      (ending : PersistEnd)
  | retryWithBackoff (envelopeId : EnvelopeId) (nowMonoNs : UInt64)
      (ending : PersistEnd)
  | crash
  | reopen

def step (machine : Machine) : Call → Machine
  | .enqueue envelope nowMonoNs ending =>
      (machine.enqueue envelope nowMonoNs ending).1
  | .nextDelivery nowMonoNs => (machine.nextDelivery nowMonoNs).1
  | .acknowledge envelopeId idempotencyKey ending =>
      (machine.acknowledge envelopeId idempotencyKey ending).1
  | .retryWithBackoff envelopeId nowMonoNs ending =>
      (machine.retryWithBackoff envelopeId nowMonoNs ending).1
  | .crash => { machine with spool := none }
  | .reopen => { machine with spool := (openSpool machine.content).toOption }

/-! ### Properties of the spool in memory and in the file -/

/-- The spool in memory, if there is one, and the spool in the file have a property. -/
structure Everywhere (P : RelaySpool → Prop) (machine : Machine) : Prop where
  memory : ∀ spool, machine.spool = some spool → P spool
  file : ∃ spool, openSpool machine.content = .ok spool ∧ P spool

namespace Everywhere

variable {P : RelaySpool → Prop} {machine : Machine}

/-- A sound spool that was stored is the one that is opened. -/
theorem stored {spool : RelaySpool} (hSound : spool.Sound) (hSpool : P spool)
    {running : Option RelaySpool}
    (hRunning : ∀ memory, running = some memory → P memory) :
    Everywhere P ⟨some (encodeSpool spool), running⟩ :=
  ⟨hRunning, spool, hSound.decodeSpool_encodeSpool, hSpool⟩

theorem change (hSound : ∀ spool, P spool → spool.Sound) (h : machine.Everywhere P)
    {α : Type} {ending : PersistEnd}
    {change : RelaySpool → Except RelayError (α × RelaySpool)}
    (hChange : ∀ spool value candidate, P spool →
      change spool = .ok (value, candidate) → P candidate) :
    (machine.change ending change).1.Everywhere P := by
  unfold Machine.change
  split
  · exact h
  · rename_i spool hSpool
    split
    · exact h
    · rename_i value candidate hCandidate
      have hNew : P candidate :=
        hChange spool value candidate (h.memory spool hSpool) hCandidate
      have hNewSound := hSound candidate hNew
      cases ending with
      | failedBefore message => exact h
      | failedAfter message => exact stored hNewSound hNew h.memory
      | replaced =>
          refine stored hNewSound hNew ?_
          rintro _ ⟨⟩
          exact hNew
      | crashedBefore => exact ⟨fun _ hNone => (by cases hNone), h.file⟩
      | crashedAfter => exact stored hNewSound hNew fun _ hNone => (by cases hNone)

end Everywhere

/-! ### Calls and their effects on a spool -/

/-- What a call does to the spool that it works on. -/
inductive Call.Effect : Call → RelaySpool.Call → Prop where
  | enqueue (envelope : BuiltEnvelope) (nowMonoNs : UInt64) (ending : PersistEnd) :
      Effect (.enqueue envelope nowMonoNs ending) (.enqueue envelope nowMonoNs)
  | nextDelivery (nowMonoNs : UInt64) :
      Effect (.nextDelivery nowMonoNs) (.nextDelivery nowMonoNs)
  | acknowledge (envelopeId : EnvelopeId) (idempotencyKey : ByteArr 32)
      (ending : PersistEnd) :
      Effect (.acknowledge envelopeId idempotencyKey ending)
        (.acknowledge envelopeId idempotencyKey)
  | retryWithBackoff (envelopeId : EnvelopeId) (nowMonoNs : UInt64)
      (ending : PersistEnd) (nextAttemptMonoNs : UInt64) :
      Effect (.retryWithBackoff envelopeId nowMonoNs ending)
        (.retryLater envelopeId nextAttemptMonoNs)

/-- A property that the effects of a call preserve is preserved by the call, in memory
and in the file. -/
theorem Everywhere.step {P : RelaySpool → Prop} {machine : Machine} {call : Call}
    (hSound : ∀ spool, P spool → spool.Sound)
    (hEffect : ∀ spool effect, call.Effect effect → P spool → P (spool.step effect))
    (h : machine.Everywhere P) : (machine.step call).Everywhere P := by
  have hSettle : ∀ {spool changed : RelaySpool} {outcome},
      outcome = .ok changed → P (spool.settle outcome) → P changed := by
    rintro spool changed _ rfl hChanged
    exact hChanged
  cases call with
  | enqueue envelope nowMonoNs ending =>
      refine h.change hSound fun spool value candidate hSpool hChange => ?_
      simp only [bind_eq_ok_iff, pure_eq_ok, Except.ok.injEq, Prod.mk.injEq] at hChange
      obtain ⟨_, hEnqueue, -, rfl⟩ := hChange
      exact hSettle hEnqueue
        (hEffect spool _ (.enqueue envelope nowMonoNs ending) hSpool)
  | nextDelivery nowMonoNs =>
      show (machine.nextDelivery nowMonoNs).1.Everywhere P
      unfold Machine.nextDelivery
      split
      · exact h
      · rename_i spool hSpool
        refine ⟨?_, h.file⟩
        rintro _ ⟨⟩
        exact hEffect spool _ (.nextDelivery nowMonoNs) (h.memory spool hSpool)
  | acknowledge envelopeId idempotencyKey ending =>
      refine h.change hSound fun spool value candidate hSpool hChange => ?_
      simp only [bind_eq_ok_iff, pure_eq_ok, Except.ok.injEq, Prod.mk.injEq] at hChange
      obtain ⟨_, hAcknowledge, -, rfl⟩ := hChange
      exact hSettle hAcknowledge
        (hEffect spool _ (.acknowledge envelopeId idempotencyKey ending) hSpool)
  | retryWithBackoff envelopeId nowMonoNs ending =>
      refine h.change hSound fun spool value candidate hSpool hChange => ?_
      simp only [bind_eq_ok_iff, pure_eq_ok, Except.ok.injEq, Prod.mk.injEq] at hChange
      obtain ⟨_, -, _, hRetry, -, rfl⟩ := hChange
      exact hSettle hRetry
        (hEffect spool _ (.retryWithBackoff envelopeId nowMonoNs ending _) hSpool)
  | crash => exact ⟨fun _ hNone => (by cases hNone), h.file⟩
  | reopen =>
      obtain ⟨opened, hOpened, hFile⟩ := h.file
      refine ⟨?_, opened, hOpened, hFile⟩
      intro spool hSpool
      have hSame : (openSpool machine.content).toOption = some spool := hSpool
      rw [hOpened] at hSame
      cases hSame
      exact hFile

/-- In every run the spools in memory and in the file are sound. -/
theorem everywhere_sound (calls : List Call) :
    (run step fresh calls).Everywhere RelaySpool.Sound := by
  apply run_invariant
  · exact ⟨fun _ hNone => (by cases hNone), .empty, rfl, RelaySpool.Sound.empty⟩
  · intro machine call h
    exact h.step (fun _ hSound => hSound) fun _ effect _ hSound => hSound.step effect

end Machine

/-! ### Retained envelopes -/

/-- The spool has this very envelope. -/
def RelaySpool.Retains (envelope : OpaqueEnvelope) (spool : RelaySpool) : Prop :=
  ∃ entry, spool.entries[envelope.envelopeId]? = some entry ∧ entry.envelope = envelope

/-- Only the acknowledgement with its identifier and key ends the retention of an
envelope. -/
theorem RelaySpool.Retains.step {envelope : OpaqueEnvelope} {spool : RelaySpool}
    (h : spool.Retains envelope) {effect : RelaySpool.Call}
    (hOther : effect ≠ .acknowledge envelope.envelopeId envelope.idempotencyKey) :
    (spool.step effect).Retains envelope := by
  obtain ⟨entry, hFound, hEnvelope⟩ := h
  -- An entry that is written over keeps its envelope.
  have hReplace : ∀ {envelopeId : EnvelopeId} {old new : SpoolEntry},
      spool.entries[envelopeId]? = some old → new.envelope = old.envelope →
        RelaySpool.Retains envelope ⟨spool.entries.insert envelopeId new⟩ := by
    intro envelopeId old new hOld hNew
    unfold RelaySpool.Retains
    by_cases hSame : envelopeId = envelope.envelopeId
    · subst hSame
      rw [hFound, Option.some.injEq] at hOld
      subst hOld
      exact ⟨new, by rw [SpoolMap.getElem?_insert, if_pos rfl], hNew.trans hEnvelope⟩
    · exact ⟨entry, by rw [SpoolMap.getElem?_insert, if_neg hSame, hFound], hEnvelope⟩
  have hUnchanged : spool.Retains envelope := ⟨entry, hFound, hEnvelope⟩
  cases effect with
  | enqueue other nowMonoNs =>
      refine RelaySpool.settle_property hUnchanged fun changed hChanged => ?_
      obtain ⟨hNew, -, rfl⟩ := RelaySpool.enqueue_eq_ok_iff.mp hChanged
      have hDistinct : other.val.envelopeId ≠ envelope.envelopeId := by
        intro hSame
        rw [hSame, Std.ExtTreeMap.mem_iff_isSome_getElem?, hFound] at hNew
        exact hNew rfl
      exact ⟨entry, by rw [SpoolMap.getElem?_insert, if_neg hDistinct, hFound],
        hEnvelope⟩
  | nextDelivery nowMonoNs =>
      show RelaySpool.Retains envelope (spool.nextDelivery nowMonoNs).2
      rcases spool.nextDelivery_cases nowMonoNs with hSame | hClaimed
      · rw [hSame]
        exact hUnchanged
      · obtain ⟨envelopeId, claimed, hOld, hNext⟩ := hClaimed
        rw [hNext]
        exact hReplace hOld rfl
  | acknowledge envelopeId idempotencyKey =>
      refine RelaySpool.settle_property hUnchanged fun changed hChanged => ?_
      obtain ⟨acknowledged, hOld, hKey, rfl⟩ :=
        RelaySpool.acknowledge_eq_ok_iff.mp hChanged
      have hDistinct : envelopeId ≠ envelope.envelopeId := by
        rintro rfl
        rw [hFound, Option.some.injEq] at hOld
        subst hOld
        exact hOther (by rw [← hEnvelope, ← hKey])
      exact ⟨entry, by rw [SpoolMap.getElem?_erase, if_neg hDistinct, hFound],
        hEnvelope⟩
  | retryLater envelopeId nextAttemptMonoNs =>
      refine RelaySpool.settle_property hUnchanged fun changed hChanged => ?_
      obtain ⟨old, hOld, rfl⟩ := RelaySpool.retryLater_eq_ok_iff.mp hChanged
      exact hReplace hOld rfl

namespace Machine

/-- An enqueueing that answers `Ok` has put the envelope into memory and file. -/
theorem everywhere_enqueue {machine : Machine}
    (hSound : machine.Everywhere RelaySpool.Sound) {envelope : BuiltEnvelope}
    {nowMonoNs : UInt64} {ending : PersistEnd}
    (hAnswer : (machine.enqueue envelope nowMonoNs ending).2 = some (.ok ())) :
    (machine.enqueue envelope nowMonoNs ending).1.Everywhere fun spool =>
      spool.Sound ∧ spool.Retains envelope := by
  unfold Machine.enqueue Machine.change at hAnswer ⊢
  cases hSpool : machine.spool with
  | none => simp [hSpool] at hAnswer
  | some spool =>
      cases hEnqueue : spool.enqueue envelope nowMonoNs with
      | error fault => simp [hSpool, hEnqueue] at hAnswer
      | ok candidate =>
          have hNew : candidate.Sound ∧ candidate.Retains envelope := by
            refine ⟨(hSound.memory spool hSpool).enqueue hEnqueue, ?_⟩
            obtain ⟨-, -, rfl⟩ := RelaySpool.enqueue_eq_ok_iff.mp hEnqueue
            exact ⟨_, by rw [SpoolMap.getElem?_insert, if_pos rfl], rfl⟩
          simp only [hSpool, hEnqueue, ok_bind, pure_eq_ok] at hAnswer ⊢
          -- Only a stored candidate is answered with `Ok`.
          cases ending with
          | replaced =>
              refine Everywhere.stored hNew.1 hNew ?_
              rintro _ ⟨⟩
              exact hNew
          | _ => cases hAnswer

/-- An acknowledgement changes nothing unless its key is the one of the envelope that is
retained in memory. -/
theorem acknowledge_of_other_key {machine : Machine} {envelopeId : EnvelopeId}
    {idempotencyKey : ByteArr 32}
    (h : ∀ spool entry, machine.spool = some spool →
      spool.entries[envelopeId]? = some entry →
      entry.envelope.idempotencyKey ≠ idempotencyKey) (ending : PersistEnd) :
    (machine.acknowledge envelopeId idempotencyKey ending).1 = machine := by
  unfold Machine.acknowledge Machine.change
  split
  · rfl
  · rename_i spool hSpool
    split
    · rfl
    · rename_i value candidate hCandidate
      simp only [bind_eq_ok_iff, pure_eq_ok, Except.ok.injEq,
        RelaySpool.acknowledge_eq_ok_iff] at hCandidate
      obtain ⟨_, ⟨entry, hFound, hKey, -⟩, -⟩ := hCandidate
      exact absurd hKey (h spool entry hSpool hFound)

end Machine

/-- In every run of calls, crashes and reopenings, however the storing of each snapshot
ends: the file can be opened; an envelope whose enqueueing was answered with `Ok`, and
that was not acknowledged with its identifier and key since, is in memory and in what is
opened; an acknowledgement with another key removes nothing. -/
theorem no_envelope_lost (calls : List Machine.Call) :
    let machine := run Machine.step .fresh calls
    (∃ spool, openSpool machine.content = .ok spool) ∧
    (∀ (earlier later : List Machine.Call) (envelope : BuiltEnvelope)
      (nowMonoNs : UInt64) (ending : PersistEnd),
      calls = earlier ++ .enqueue envelope nowMonoNs ending :: later →
      ((run Machine.step .fresh earlier).enqueue envelope nowMonoNs ending).2 =
        some (.ok ()) →
      (∀ other, .acknowledge envelope.val.envelopeId envelope.val.idempotencyKey other ∉
        later) →
      (∀ spool, machine.spool = some spool → spool.Retains envelope) ∧
      ∀ spool, openSpool machine.content = .ok spool → spool.Retains envelope) ∧
    ∀ (envelopeId : EnvelopeId) (idempotencyKey : ByteArr 32) (ending : PersistEnd),
      (∀ spool entry, machine.spool = some spool →
        spool.entries[envelopeId]? = some entry →
        entry.envelope.idempotencyKey ≠ idempotencyKey) →
      (machine.acknowledge envelopeId idempotencyKey ending).1 = machine := by
  intro machine
  refine ⟨?_, ?_, fun _ _ ending h => Machine.acknowledge_of_other_key h ending⟩
  · obtain ⟨spool, hOpened, -⟩ := (Machine.everywhere_sound calls).file
    exact ⟨spool, hOpened⟩
  · intro earlier later envelope nowMonoNs ending hCalls hAnswer hKept
    have hMachine : machine = run Machine.step
        ((run Machine.step .fresh earlier).enqueue envelope nowMonoNs ending).1
        later := by
      show run Machine.step .fresh calls = _
      rw [hCalls, run_append, run_cons]
      rfl
    have hRetained : machine.Everywhere fun spool =>
        spool.Sound ∧ spool.Retains envelope := by
      rw [hMachine]
      refine run_invariant_of_throughout
        (Machine.everywhere_enqueue (Machine.everywhere_sound earlier) hAnswer) ?_
        (Throughout.of_mem fun call hCall _ => hCall)
      intro state call hState hMem
      refine hState.step (fun _ hSpool => hSpool.1) ?_
      intro spool effect hEffect hSpool
      refine ⟨hSpool.1.step effect, hSpool.2.step ?_⟩
      rintro rfl
      cases hEffect with
      | acknowledge _ _ other => exact hKept other hMem
    refine ⟨fun spool hSpool => (hRetained.memory spool hSpool).2, ?_⟩
    intro spool hSpool
    obtain ⟨opened, hOpened, hFile⟩ := hRetained.file
    rw [hOpened] at hSpool
    cases hSpool
    exact hFile.2

end Relay
end RootPermit
