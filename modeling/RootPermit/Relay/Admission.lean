import RootPermit.Relay.FileSpool

/-!
# What the file spool admits

The fields of an envelope are public, so a caller can enqueue an envelope that its
constructor would have refused.  The spool does not look at it again; the reader of
the snapshot does, and refuses the whole file for it.

* `enqueue_answers_ok_iff` — when an enqueueing is answered with `Ok`;
* `readable_iff` — the stored file can be opened again, with every retained envelope,
  exactly when all of them pass the constructor's checks;
* `sound_memory` — the envelopes of the running process do, as long as those that were
  admitted did;
* `enqueued_readable_iff` — for whole runs, over any envelopes.
-/

namespace RootPermit
namespace Relay

open Foundation

namespace Machine

/-- What happens to a machine when its callers may enqueue any envelope. -/
inductive PublicCall where
  | enqueue (envelope : OpaqueEnvelope) (nowMonoNs : UInt64) (ending : PersistEnd)
  | nextDelivery (nowMonoNs : UInt64)
  | acknowledge (envelopeId : EnvelopeId) (idempotencyKey : ByteArr 32)
      (ending : PersistEnd)
  | retryWithBackoff (envelopeId : EnvelopeId) (nowMonoNs : UInt64)
      (ending : PersistEnd)
  | crash
  | reopen

def publicStep (machine : Machine) : PublicCall → Machine
  | .enqueue envelope nowMonoNs ending =>
      (machine.enqueue envelope nowMonoNs ending).1
  | .nextDelivery nowMonoNs => machine.step (.nextDelivery nowMonoNs)
  | .acknowledge envelopeId idempotencyKey ending =>
      machine.step (.acknowledge envelopeId idempotencyKey ending)
  | .retryWithBackoff envelopeId nowMonoNs ending =>
      machine.step (.retryWithBackoff envelopeId nowMonoNs ending)
  | .crash => machine.step .crash
  | .reopen => machine.step .reopen

/-- A process is running, it has room for the envelope and not yet its identifier, and
the snapshot is stored. -/
def Admits (machine : Machine) (envelope : OpaqueEnvelope) (ending : PersistEnd) :
    Prop :=
  ending = .replaced ∧ ∃ spool, machine.spool = some spool ∧
    envelope.envelopeId ∉ spool.entries ∧ spool.entries.size < MAX_RETAINED_ENVELOPES

/-- The file of the machine afterwards is opened as a spool that has the envelope and
all envelopes that were retained before. -/
def Readable (before after : Machine) (envelope : OpaqueEnvelope) : Prop :=
  ∃ opened, openSpool after.content = .ok opened ∧ opened.Retains envelope ∧
    ∀ spool, before.spool = some spool →
      ∀ other, spool.Retains other → opened.Retains other

section Enqueue

variable {machine : Machine} {envelope : OpaqueEnvelope} {nowMonoNs : UInt64}
  {ending : PersistEnd}

/-- The candidate of an enqueueing that is not refused. -/
theorem enqueue_of_admits {spool : RelaySpool} (hSpool : machine.spool = some spool)
    (hNew : envelope.envelopeId ∉ spool.entries)
    (hRoom : spool.entries.size < MAX_RETAINED_ENVELOPES) :
    machine.enqueue envelope nowMonoNs .replaced =
      (⟨some (encodeSpool ⟨spool.entries.insert envelope.envelopeId
          ⟨envelope, 0, nowMonoNs⟩⟩),
        some ⟨spool.entries.insert envelope.envelopeId ⟨envelope, 0, nowMonoNs⟩⟩⟩,
        some (.ok ())) := by
  have hEnqueue : spool.enqueue envelope nowMonoNs = .ok
      ⟨spool.entries.insert envelope.envelopeId ⟨envelope, 0, nowMonoNs⟩⟩ :=
    RelaySpool.enqueue_eq_ok_iff.mpr ⟨hNew, hRoom, rfl⟩
  simp only [Machine.enqueue, Machine.change, hSpool, hEnqueue, ok_bind, pure_eq_ok,
    Machine.persist]

/-- An enqueueing is answered with `Ok` exactly when it is admitted. -/
theorem enqueue_answers_ok_iff :
    (machine.enqueue envelope nowMonoNs ending).2 = some (.ok ()) ↔
      machine.Admits envelope ending := by
  constructor
  · intro hAnswer
    unfold Machine.enqueue Machine.change at hAnswer
    cases hSpool : machine.spool with
    | none => simp [hSpool] at hAnswer
    | some spool =>
        cases hEnqueue : spool.enqueue envelope nowMonoNs with
        | error fault => simp [hSpool, hEnqueue] at hAnswer
        | ok candidate =>
            simp only [hSpool, hEnqueue, ok_bind, pure_eq_ok] at hAnswer
            obtain ⟨hNew, hRoom, -⟩ := RelaySpool.enqueue_eq_ok_iff.mp hEnqueue
            cases ending with
            | replaced => exact ⟨rfl, spool, hSpool, hNew, hRoom⟩
            | _ => cases hAnswer
  · intro hAdmits
    obtain ⟨rfl, spool, hSpool, hNew, hRoom⟩ := hAdmits
    rw [enqueue_of_admits hSpool hNew hRoom]

/-- The memory of a running process is sound: it can be stored and read back. -/
def SoundMemory (machine : Machine) : Prop :=
  ∀ spool, machine.spool = some spool → spool.Sound

/-- After an admitted enqueueing the file is readable exactly when the envelope passes
the checks of its constructor. -/
theorem readable_iff (hMemory : machine.SoundMemory)
    (hAdmits : machine.Admits envelope ending) :
    Readable machine (machine.enqueue envelope nowMonoNs ending).1 envelope ↔
      envelope.Sound := by
  obtain ⟨rfl, spool, hSpool, hNew, hRoom⟩ := hAdmits
  rw [enqueue_of_admits hSpool hNew hRoom]
  constructor
  · -- What is opened is sound, and the envelope is part of it.
    intro hReadable
    obtain ⟨opened, hOpened, ⟨entry, hFound, hEnvelope⟩, -⟩ := hReadable
    have hSound := (sound_of_decodeSpool hOpened).1.sound hFound
    rw [hEnvelope] at hSound
    exact hSound
  · intro hSound
    have hEnqueue : spool.enqueue envelope nowMonoNs = .ok
        ⟨spool.entries.insert envelope.envelopeId ⟨envelope, 0, nowMonoNs⟩⟩ :=
      RelaySpool.enqueue_eq_ok_iff.mpr ⟨hNew, hRoom, rfl⟩
    let built : BuiltEnvelope := ⟨envelope, hSound⟩
    have hBuilt : spool.enqueue built.val nowMonoNs = .ok
        ⟨spool.entries.insert envelope.envelopeId ⟨envelope, 0, nowMonoNs⟩⟩ := hEnqueue
    have hCandidate := (hMemory spool hSpool).enqueue hBuilt
    refine ⟨_, hCandidate.decodeSpool_encodeSpool, ?_, ?_⟩
    · exact ⟨_, by rw [SpoolMap.getElem?_insert, if_pos rfl], rfl⟩
    · intro found hFound other hOther
      rw [hSpool, Option.some.injEq] at hFound
      subst hFound
      have hStep : (spool.step (.enqueue built nowMonoNs)).Retains other :=
        hOther.step nofun
      simp only [RelaySpool.step, hBuilt, RelaySpool.settle] at hStep
      exact hStep

end Enqueue

/-! ### The memory of a run -/

section Memory

variable {machine : Machine}

/-- What `enqueue` promises at one call: an answer `Ok` means that the file can be
opened again. -/
def KeepsReadable (machine : Machine) : PublicCall → Prop
  | .enqueue envelope nowMonoNs ending =>
      (machine.enqueue envelope nowMonoNs ending).2 = some (.ok ()) →
        Readable machine (machine.enqueue envelope nowMonoNs ending).1 envelope
  | _ => True

/-- An enqueueing that is admitted is of an envelope that its constructor would have
built. -/
def AdmitsSound (machine : Machine) : PublicCall → Prop
  | .enqueue envelope _ ending => machine.Admits envelope ending → envelope.Sound
  | _ => True

theorem keepsReadable_iff (hMemory : machine.SoundMemory) (call : PublicCall) :
    machine.KeepsReadable call ↔ machine.AdmitsSound call := by
  cases call with
  | enqueue envelope nowMonoNs ending =>
      simp only [KeepsReadable, AdmitsSound, enqueue_answers_ok_iff]
      exact forall_congr' fun hAdmits => readable_iff hMemory hAdmits
  | _ => exact Iff.rfl

/-- A change that keeps spools sound keeps the memory sound. -/
theorem SoundMemory.change (hMemory : machine.SoundMemory) {α : Type}
    {ending : PersistEnd} {change : RelaySpool → Except RelayError (α × RelaySpool)}
    (hChange : ∀ spool value candidate, machine.spool = some spool → spool.Sound →
      change spool = .ok (value, candidate) → ending = .replaced → candidate.Sound) :
    (machine.change ending change).1.SoundMemory := by
  unfold Machine.change
  split
  · exact hMemory
  · rename_i spool hSpool
    split
    · exact hMemory
    · rename_i value candidate hCandidate
      cases ending with
      | failedBefore message => exact hMemory
      | failedAfter message => exact hMemory
      | replaced =>
          rintro _ ⟨⟩
          exact hChange spool value candidate hSpool (hMemory spool hSpool) hCandidate rfl
      | crashedBefore => exact fun _ hNone => by cases hNone
      | crashedAfter => exact fun _ hNone => by cases hNone

/-- The memory stays sound as long as what is admitted is sound. -/
theorem SoundMemory.publicStep (machine : Machine) (call : PublicCall)
    (hMemory : machine.SoundMemory) (hCall : machine.AdmitsSound call) :
    (machine.publicStep call).SoundMemory := by
  cases call with
  | enqueue envelope nowMonoNs ending =>
      refine hMemory.change fun spool value candidate hSpool hSound hChange hEnd => ?_
      simp only [bind_eq_ok_iff, pure_eq_ok, Except.ok.injEq, Prod.mk.injEq] at hChange
      obtain ⟨_, hEnqueue, -, rfl⟩ := hChange
      obtain ⟨hNew, hRoom, -⟩ := RelaySpool.enqueue_eq_ok_iff.mp hEnqueue
      have hEnvelope : envelope.Sound := hCall ⟨hEnd, spool, hSpool, hNew, hRoom⟩
      let built : BuiltEnvelope := ⟨envelope, hEnvelope⟩
      exact hSound.enqueue (show spool.enqueue built.val nowMonoNs = _ from hEnqueue)
  | nextDelivery nowMonoNs =>
      show (machine.nextDelivery nowMonoNs).1.SoundMemory
      unfold Machine.nextDelivery
      split
      · exact hMemory
      · rename_i spool hSpool
        rintro _ ⟨⟩
        exact (hMemory spool hSpool).nextDelivery nowMonoNs
  | acknowledge envelopeId idempotencyKey ending =>
      refine hMemory.change fun spool value candidate _ hSound hChange _ => ?_
      simp only [bind_eq_ok_iff, pure_eq_ok, Except.ok.injEq, Prod.mk.injEq] at hChange
      obtain ⟨_, hAcknowledge, -, rfl⟩ := hChange
      exact hSound.acknowledge hAcknowledge
  | retryWithBackoff envelopeId nowMonoNs ending =>
      refine hMemory.change fun spool value candidate _ hSound hChange _ => ?_
      simp only [bind_eq_ok_iff, pure_eq_ok, Except.ok.injEq, Prod.mk.injEq] at hChange
      obtain ⟨_, -, _, hRetry, -, rfl⟩ := hChange
      exact hSound.retryLater hRetry
  | crash => exact fun _ hNone => by cases hNone
  | reopen =>
      intro spool hSpool
      have hOpened : (openSpool machine.content).toOption = some spool := hSpool
      cases hContent : machine.content with
      | bytes content =>
          rw [hContent, openSpool] at hOpened
          cases hDecoded : decodeSpool content with
          | error fault => rw [hDecoded] at hOpened; cases hOpened
          | ok found =>
              rw [hDecoded] at hOpened
              cases hOpened
              exact (sound_of_decodeSpool hDecoded).1
      | notFound =>
          rw [hContent] at hOpened
          cases hOpened
          exact RelaySpool.Sound.empty
      | failed message =>
          rw [hContent] at hOpened
          cases hOpened

end Memory

/-- A run that admits only sound envelopes has a sound memory. -/
theorem soundMemory_of_run {calls : List PublicCall}
    (h : Throughout publicStep fresh calls AdmitsSound) :
    (run publicStep fresh calls).SoundMemory :=
  run_invariant_of_throughout (fun _ hNone => by cases hNone) SoundMemory.publicStep h

end Machine

/-- In every run of calls with any envelopes, crashes and reopenings: whenever an
enqueueing answers `Ok`, the file can be opened again with that envelope and all
envelopes retained before, if and only if every envelope that the run admits passes the
checks of `OpaqueEnvelope::new`. -/
theorem enqueued_readable_iff (calls : List Machine.PublicCall) :
    Throughout Machine.publicStep .fresh calls Machine.KeepsReadable ↔
      Throughout Machine.publicStep .fresh calls Machine.AdmitsSound := by
  constructor
  · intro hKeeps
    have hMemory : ∀ earlier, earlier <+: calls →
        (run Machine.publicStep .fresh earlier).SoundMemory := by
      intro earlier hPrefix
      refine run_invariant_of_throughout (fun _ hNone => by cases hNone) ?_
        (hKeeps.of_prefix hPrefix)
      intro machine call hMemory hCall
      exact hMemory.publicStep machine call ((Machine.keepsReadable_iff hMemory call).mp
        hCall)
    intro earlier call later hCalls
    have hPrefix : earlier <+: calls := ⟨call :: later, hCalls.symm⟩
    exact (Machine.keepsReadable_iff (hMemory earlier hPrefix) call).mp
      (hKeeps earlier call later hCalls)
  · intro hAdmits earlier call later hCalls
    have hPrefix : earlier <+: calls := ⟨call :: later, hCalls.symm⟩
    have hMemory := Machine.soundMemory_of_run (hAdmits.of_prefix hPrefix)
    exact (Machine.keepsReadable_iff hMemory call).mpr
      (hAdmits earlier call later hCalls)

/-- A request in the direction of the broker, where requests are not permitted. -/
def misdirectedEnvelope : OpaqueEnvelope where
  envelopeId := ⟨ByteArr.fill 16 1⟩
  direction := .serviceToBroker
  kind := .request
  idempotencyKey := ByteArr.fill 32 2
  payload := []

/-- The new spool accepts the misdirected envelope, and its file can not be opened
again. -/
theorem misdirected_envelope_unreadable :
    let machine := run Machine.publicStep .fresh [.reopen]
    let accepted := machine.enqueue misdirectedEnvelope 0 .replaced
    accepted.2 = some (.ok ()) ∧
      (openSpool accepted.1.content).map (fun _ => ()) = .error .corruptSpool ∧
      ¬ Machine.Readable machine accepted.1 misdirectedEnvelope := by
  intro machine accepted
  have hMemory : machine.SoundMemory := by
    rintro _ ⟨⟩
    exact RelaySpool.Sound.empty
  have hAdmits : machine.Admits misdirectedEnvelope .replaced :=
    ⟨rfl, .empty, rfl, Std.ExtTreeMap.not_mem_empty, by decide +kernel⟩
  refine ⟨Machine.enqueue_answers_ok_iff.mpr hAdmits, by decide +kernel, ?_⟩
  intro hReadable
  have hSound := (Machine.readable_iff hMemory hAdmits).mp hReadable
  cases hSound.permitted

end Relay
end RootPermit
