import RootPermit.Broker.CallEffects
import RootPermit.Foundation.LinkedLog

/-!
# The event chain of a request

The events of a request are stored as rows of texts, integers and blobs.  A stored
log is a linked log of lifecycle events together with the rows that spell it.

* `StoredLog.append` — a transition extends a stored log by one event, because the
  latest row by sequence is the last one;
* `StoredLog.events_eq` — reading the rows back gives the log.
-/

namespace RootPermit
namespace Broker

open Foundation Protocol

/-- Where a lifecycle event keeps its position, its link and its digest. -/
def lifecycleLog [Cryptography] (requestId : PublicId) :
    LogFormat LifecycleEvent Digest where
  position event := event.sequence.toNat
  previous := LifecycleEvent.previousEventDigest
  digest := LifecycleEvent.eventDigest
  recompute event := lifecycleEventDigest requestId event.sequence
    event.previousEventDigest event.state event.reason

/-- The rows spell a linked log that starts with the creation of the request and
ends in its state. -/
structure StoredLog [Cryptography] (requestId : PublicId) (state : RequestState)
    (rows : List EventRow) (log : List LifecycleEvent) : Prop where
  rows : rows = log.map (LifecycleEvent.toRow requestId)
  linked : (lifecycleLog requestId).Linked log
  fits : ∀ event ∈ log, event.sequence.toNat < 2 ^ 63
  first : ∃ event, log.head? = some event ∧ event.state = .planning ∧
    event.reason = .created
  last : ∃ event, log.getLast? = some event ∧ event.state = state

section Rows

variable {requestId : PublicId} {event : LifecycleEvent} {log : List LifecycleEvent}

theorem toInt_sequence_toRow (hFits : event.sequence.toNat < 2 ^ 63) :
    (event.toRow requestId).sequence.toInt = event.sequence.toNat :=
  Int64.toInt_ofNat_of_lt hFits

/-- A row that was written for an event is read back as that event. -/
theorem eventOfRow_toRow (hFits : event.sequence.toNat < 2 ^ 63) :
    eventOfRow (event.toRow requestId) = .ok event := by
  have hSequence : toU64? (event.toRow requestId).sequence.toInt =
      some event.sequence := by
    rw [toU64?_eq_some_iff, toInt_sequence_toRow hFits]
  have hState : RequestState.fromDb? (event.toRow requestId).state =
      some event.state := RequestState.fromDb?_asDb event.state
  have hReason : TransitionReason.fromCode? (event.toRow requestId).reason =
      some event.reason := TransitionReason.fromCode?_asDb event.reason
  have hDigest : ByteArr.ofBytes? 32 (event.toRow requestId).eventDigest =
      some event.eventDigest := ByteArr.ofBytes?_val event.eventDigest
  unfold eventOfRow
  rw [hSequence, hState, hReason, hDigest]
  cases hPrevious : event.previousEventDigest with
  | none =>
      have hColumn : (event.toRow requestId).previousEventDigest = none := by
        simp [LifecycleEvent.toRow, hPrevious]
      rw [hColumn]
      cases event
      cases hPrevious
      rfl
  | some previous =>
      have hColumn : (event.toRow requestId).previousEventDigest =
          some previous.val := by
        simp [LifecycleEvent.toRow, hPrevious]
      rw [hColumn]
      cases event
      cases hPrevious
      simp [orFault, Except.map]

theorem mapM_eventOfRow (hFits : ∀ event ∈ log, event.sequence.toNat < 2 ^ 63) :
    (log.map (LifecycleEvent.toRow requestId)).mapM eventOfRow = .ok log := by
  induction log with
  | nil => rfl
  | cons event log ih =>
      have hEvent : eventOfRow (event.toRow requestId) = .ok event :=
        eventOfRow_toRow (hFits event List.mem_cons_self)
      have hLog := ih fun later hLater => hFits later (List.mem_cons_of_mem _ hLater)
      rw [List.map_cons, List.mapM_cons, hEvent, ok_bind, hLog]
      rfl

end Rows

namespace StoredLog

variable [Cryptography] {requestId : PublicId} {state : RequestState}
  {rows : List EventRow} {log : List LifecycleEvent}

/-- The rows stand in the order of their sequences. -/
theorem pairwise_sequence (h : StoredLog requestId state rows log) :
    rows.Pairwise fun first second => first.sequence < second.sequence := by
  rw [h.rows, List.pairwise_map]
  apply h.linked.pairwise.imp_of_mem
  intro first second hFirst hSecond hOrder
  rw [Int64.lt_iff_toInt_lt, toInt_sequence_toRow (h.fits first hFirst),
    toInt_sequence_toRow (h.fits second hSecond)]
  change first.sequence.toNat < second.sequence.toNat at hOrder
  omega

/-- The latest row by sequence is the last one. -/
theorem latestRow_eq (h : StoredLog requestId state rows log) :
    latestRow rows = log.getLast?.map (LifecycleEvent.toRow requestId) := by
  have hOpposite : rows.Pairwise fun first second =>
      ¬ second.sequence ≤ first.sequence :=
    h.pairwise_sequence.imp fun hOrder => Int64.not_le.mpr hOrder
  unfold latestRow
  rw [Table.insertionSort_of_opposite hOpposite, List.head?_reverse, h.rows,
    List.getLast?_map]

/-- The rows are read back as the log, in its order. -/
theorem events_eq {tables : Tables}
    (h : StoredLog requestId state (tables.eventsOf requestId) log) :
    events requestId tables = .ok log := by
  have hSorted : (tables.eventsOf requestId).Pairwise fun first second =>
      first.sequence ≤ second.sequence :=
    h.pairwise_sequence.imp fun hOrder => Int64.le_of_lt hOrder
  unfold events
  rw [hSorted.insertionSort_eq, h.rows]
  exact mapM_eventOfRow h.fits

/-- The log of a new request. -/
theorem created (requestId : PublicId) :
    ∃ log, StoredLog requestId .planning [createdEvent requestId] log := by
  let event : LifecycleEvent :=
    { sequence := 1
      previousEventDigest := none
      state := .planning
      reason := .created
      eventDigest := lifecycleEventDigest requestId 1 none .planning .created }
  have hLinked : (lifecycleLog requestId).Linked ([] ++ [event]) :=
    LogFormat.linked_concat_iff.mpr ⟨LogFormat.linked_nil, ⟨rfl, rfl, rfl⟩⟩
  refine ⟨[event], rfl, hLinked, ?_, ⟨event, rfl, rfl, rfl⟩, ⟨event, rfl, rfl⟩⟩
  intro found hFound
  rw [List.mem_singleton.mp hFound]
  show (1 : UInt64).toNat < 2 ^ 63
  decide

/-- A transition extends the log by one event. -/
theorem append {next : RequestState} {reason : TransitionReason}
    {event : LifecycleEvent} (h : StoredLog requestId state rows log)
    (hNext : NextEvent requestId next reason rows event) :
    StoredLog requestId next (rows ++ [event.toRow requestId]) (log ++ [event]) := by
  obtain ⟨latest, hLatest, hSequence, hPrevious⟩ := hNext.latest
  obtain ⟨last, hLast, -⟩ := h.last
  rw [h.latestRow_eq, hLast, Option.map_some, Option.some.injEq] at hLatest
  subst hLatest
  have hMem : last ∈ log := List.mem_of_getLast? hLast
  rw [toInt_sequence_toRow (h.fits last hMem)] at hSequence
  -- The event names the digest of the last one, which its row spells.
  have hLink : event.previousEventDigest = some last.eventDigest := by
    cases hDigest : event.previousEventDigest with
    | none =>
        rw [hDigest] at hPrevious
        cases hPrevious
    | some previous =>
        rw [hDigest, Option.map_some, Option.some.injEq] at hPrevious
        rw [Subtype.ext hPrevious]
  refine ⟨?_, LogFormat.linked_concat_iff.mpr ⟨h.linked, ?_⟩, ?_, ?_, ?_⟩
  · rw [h.rows, List.map_append, List.map_singleton]
  · rw [hLast]
    refine ⟨?_, hLink, hNext.digest⟩
    show event.sequence.toNat = last.sequence.toNat + 1
    omega
  · intro found hFound
    rcases List.mem_append.mp hFound with hOld | hNew
    · exact h.fits found hOld
    · rw [List.mem_singleton.mp hNew]
      exact hNext.fits
  · obtain ⟨first, hFirst, hState⟩ := h.first
    refine ⟨first, ?_, hState⟩
    rw [List.head?_append, hFirst, Option.some_or]
  · exact ⟨event, List.getLast?_concat, hNext.state⟩

end StoredLog

end Broker
end RootPermit
