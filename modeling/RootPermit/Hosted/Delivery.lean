import RootPermit.Hosted.FrozenProjection

/-!
# Hostile delivery to the guard of the relay

The relay delivers at least once, in any order, and may drop.  This module embeds
`mutate_delivery` of `rp-testkit/src/lib.rs`, which describes such deliveries, and
proves what a fresh guard makes of them: at every moment it holds a beginning of the
stream, whatever was delivered (`delivery_safe`).
-/

namespace RootPermit
namespace Hosted
namespace Relay

open Foundation

/-! ### Deliveries -/

inductive DeliveryMutation where
  | deliver (index : Nat)
  | duplicate (index : Nat)
  | drop (index : Nat)
  deriving DecidableEq, Repr

/-- Applies a script to a stream; an index outside the stream is ignored. -/
def mutateDelivery {α : Type} (input : List α) : List DeliveryMutation → List α
  | [] => []
  | .deliver index :: script => input[index]?.toList ++ mutateDelivery input script
  | .duplicate index :: script =>
      input[index]?.toList ++ input[index]?.toList ++ mutateDelivery input script
  | .drop _ :: script => mutateDelivery input script

/-- A script delivers nothing but events of the stream. -/
theorem mem_of_mem_mutateDelivery {α : Type} {input : List α}
    {script : List DeliveryMutation} {value : α}
    (h : value ∈ mutateDelivery input script) : value ∈ input := by
  have hIndexed : ∀ index : Nat, value ∈ input[index]?.toList → value ∈ input := by
    intro index hValue
    exact List.mem_of_getElem? (Option.mem_toList.mp hValue)
  induction script with
  | nil => cases h
  | cons mutation script ih =>
      cases mutation with
      | deliver index =>
          rcases List.mem_append.mp h with hHere | hLater
          · exact hIndexed index hHere
          · exact ih hLater
      | duplicate index =>
          rcases List.mem_append.mp h with hHere | hLater
          · rcases List.mem_append.mp hHere with hFirst | hSecond
            · exact hIndexed index hFirst
            · exact hIndexed index hSecond
          · exact ih hLater
      | drop => exact ih h

/-! ### What the guard answers -/

namespace ProjectionChain

/-- The chain after an event. -/
def receive (chain : ProjectionChain) (event : VerifiedLifecycleEvent) :
    ProjectionChain :=
  (chain.ingest event).2

/-- The chain with one more event. -/
def extended (chain : ProjectionChain) (event : VerifiedLifecycleEvent) :
    ProjectionChain :=
  { chain with
    applied := fun sequence =>
      if sequence = event.sequence then some event.eventDigest
      else chain.applied sequence
    nextSequence := saturatingSucc chain.expected }

/-- The four ways in which a chain answers an event. -/
inductive Answers (chain : ProjectionChain) (event : VerifiedLifecycleEvent) :
    ProjectionResult × ProjectionChain → Prop
  | frozen (hFrozen : chain.frozenGap = true) :
      Answers chain event (.frozenGap, chain)
  | applied (hOpen : chain.frozenGap = false)
      (hNext : event.sequence = chain.expected) :
      Answers chain event (.applied, chain.extended event)
  | duplicate (hOpen : chain.frozenGap = false)
      (hPast : event.sequence < chain.expected)
      (hKnown : chain.applied event.sequence = some event.eventDigest) :
      Answers chain event (.duplicate, chain)
  | freezes (hOpen : chain.frozenGap = false)
      (hOther : event.sequence ≠ chain.expected)
      (hUnknown : event.sequence < chain.expected →
        chain.applied event.sequence ≠ some event.eventDigest) :
      Answers chain event (.frozenGap, { chain with frozenGap := true })

variable {chain : ProjectionChain} {event : VerifiedLifecycleEvent}
  {stream : List VerifiedLifecycleEvent}

theorem answers_ingest (chain : ProjectionChain) (event : VerifiedLifecycleEvent) :
    chain.Answers event (chain.ingest event) := by
  unfold ingest
  by_cases hFrozen : chain.frozenGap = true
  · rw [if_pos hFrozen]
    exact .frozen hFrozen
  have hOpen : chain.frozenGap = false := Bool.eq_false_iff.mpr hFrozen
  rw [if_neg hFrozen]
  by_cases hNext : event.sequence = chain.expected
  · rw [if_pos hNext]
    exact .applied hOpen hNext
  rw [if_neg hNext]
  by_cases hKnown : event.sequence < chain.expected ∧
      chain.applied event.sequence = some event.eventDigest
  · rw [if_pos hKnown]
    exact .duplicate hOpen hKnown.1 hKnown.2
  · rw [if_neg hKnown]
    exact .freezes hOpen hNext fun hPast hSame => hKnown ⟨hPast, hSame⟩

theorem expected_pos (chain : ProjectionChain) : 0 < chain.expected.toNat := by
  unfold expected
  by_cases hZero : chain.nextSequence = 0
  · rw [if_pos hZero]
    decide
  · rw [if_neg hZero]
    exact Nat.pos_of_ne_zero fun hNat => hZero (UInt64.toNat_inj.mp hNat)

theorem nextSequence_extended (chain : ProjectionChain)
    (event : VerifiedLifecycleEvent) :
    (chain.extended event).nextSequence = saturatingSucc chain.expected := by
  rw [extended]

theorem expected_extended (chain : ProjectionChain) (event : VerifiedLifecycleEvent) :
    (chain.extended event).expected = saturatingSucc chain.expected := by
  have hNonzero : saturatingSucc chain.expected ≠ 0 := by
    intro hZero
    have hPos := chain.expected_pos
    have hGrows := le_toNat_saturatingSucc chain.expected
    rw [hZero, UInt64.toNat_zero] at hGrows
    omega
  rw [expected, nextSequence_extended, if_neg hNonzero]

/-- The expected sequence never falls. -/
theorem expected_receive (chain : ProjectionChain) (event : VerifiedLifecycleEvent) :
    chain.expected.toNat ≤ (chain.receive event).expected.toNat := by
  have hAnswer := answers_ingest chain event
  unfold receive
  generalize chain.ingest event = answer at hAnswer
  cases hAnswer with
  | frozen => exact Nat.le_refl _
  | applied =>
      rw [expected_extended]
      exact le_toNat_saturatingSucc _
  | duplicate => exact Nat.le_refl _
  | freezes => exact Nat.le_refl _

/-! ### A beginning of the stream -/

/-- The events are numbered from one on. -/
def Numbered (stream : List VerifiedLifecycleEvent) : Prop :=
  stream.map (fun event => event.sequence.toNat) = List.range' 1 stream.length

theorem Numbered.sequence (h : Numbered stream) {index : Nat}
    (hFound : stream[index]? = some event) : event.sequence.toNat = index + 1 := by
  obtain ⟨hIndex, hEvent⟩ := List.getElem?_eq_some_iff.mp hFound
  have hHere : (stream.map fun event => event.sequence.toNat)[index]? =
      some event.sequence.toNat := by
    rw [List.getElem?_map, hFound]
    rfl
  rw [h, List.getElem?_range' hIndex, Option.some.injEq] at hHere
  omega

theorem Numbered.sequence_le (h : Numbered stream) (hEvent : event ∈ stream) :
    event.sequence.toNat ≤ stream.length := by
  obtain ⟨index, hFound⟩ := List.mem_iff_getElem?.mp hEvent
  obtain ⟨hIndex, -⟩ := List.getElem?_eq_some_iff.mp hFound
  rw [h.sequence hFound]
  exact hIndex

/-- The chain holds exactly the first events of a stream. -/
structure HoldsFirst (chain : ProjectionChain) (stream : List VerifiedLifecycleEvent)
    (count : Nat) : Prop where
  count_le : count ≤ stream.length
  applied : ∀ sequence, chain.applied sequence =
    ((stream.take count).find? fun event =>
      decide (event.sequence = sequence)).map VerifiedLifecycleEvent.eventDigest
  expected : chain.expected.toNat = count + 1

theorem HoldsFirst.empty (stream : List VerifiedLifecycleEvent) :
    empty.HoldsFirst stream 0 :=
  ⟨Nat.zero_le _, fun _ => rfl, rfl⟩

theorem HoldsFirst.frozen {count : Nat} (h : chain.HoldsFirst stream count) :
    HoldsFirst { chain with frozenGap := true } stream count :=
  ⟨h.count_le, h.applied, h.expected⟩

/-- The next event of the stream makes the beginning longer. -/
theorem HoldsFirst.extended {count : Nat} (hStream : Numbered stream)
    (hSmall : stream.length + 1 < 2 ^ 64) (h : chain.HoldsFirst stream count)
    (hFound : stream[count]? = some event) :
    (chain.extended event).HoldsFirst stream (count + 1) := by
  obtain ⟨hCount, -⟩ := List.getElem?_eq_some_iff.mp hFound
  refine ⟨hCount, ?_, ?_⟩
  · intro sequence
    rw [List.take_add_one, hFound, Option.toList_some, List.find?_append]
    show (if sequence = event.sequence then some event.eventDigest
      else chain.applied sequence) = _
    rw [h.applied sequence]
    by_cases hSame : sequence = event.sequence
    · -- No earlier event has this sequence.
      have hNew : (stream.take count).find?
          (fun earlier => decide (earlier.sequence = sequence)) = none := by
        apply List.find?_eq_none.mpr
        intro earlier hEarlier hEqual
        obtain ⟨index, hIndex⟩ := List.mem_iff_getElem?.mp hEarlier
        rw [List.getElem?_take] at hIndex
        by_cases hBefore : index < count
        · rw [if_pos hBefore] at hIndex
          have hTheirs := hStream.sequence hIndex
          have hOurs := hStream.sequence hFound
          rw [of_decide_eq_true hEqual, hSame] at hTheirs
          omega
        · rw [if_neg hBefore] at hIndex
          cases hIndex
      rw [hNew, if_pos hSame, List.find?_singleton, hSame]
      simp
    · rw [if_neg hSame, List.find?_singleton, if_neg (by simpa using Ne.symm hSame),
        Option.or_none]
  · have hExpected := h.expected
    rw [expected_extended, toNat_saturatingSucc (by omega), hExpected]

/-- What a chain with the first events of a stream answers to an event of it. -/
theorem HoldsFirst.receive {count : Nat} (hStream : Numbered stream)
    (hSmall : stream.length + 1 < 2 ^ 64) (h : chain.HoldsFirst stream count)
    (hEvent : event ∈ stream) :
    ∃ next, (chain.receive event).HoldsFirst stream next := by
  have hAnswer := answers_ingest chain event
  unfold ProjectionChain.receive
  generalize chain.ingest event = answer at hAnswer
  cases hAnswer with
  | frozen => exact ⟨count, h⟩
  | applied _ hNext =>
      obtain ⟨index, hFound⟩ := List.mem_iff_getElem?.mp hEvent
      have hIndex := hStream.sequence hFound
      rw [hNext, h.expected] at hIndex
      have hHere : count = index := by omega
      rw [← hHere] at hFound
      exact ⟨count + 1, h.extended hStream hSmall hFound⟩
  | duplicate => exact ⟨count, h⟩
  | freezes => exact ⟨count, h.frozen⟩

/-- An event of the stream below the expected sequence has been applied. -/
theorem HoldsFirst.known {count : Nat} (hStream : Numbered stream)
    (h : chain.HoldsFirst stream count) (hEvent : event ∈ stream)
    (hPast : event.sequence.toNat < chain.expected.toNat) :
    chain.applied event.sequence = some event.eventDigest := by
  obtain ⟨index, hFound⟩ := List.mem_iff_getElem?.mp hEvent
  have hOwn := hStream.sequence hFound
  rw [h.expected] at hPast
  have hTaken : (stream.take count)[index]? = some event := by
    rw [List.getElem?_take, if_pos (by omega), hFound]
  rw [h.applied]
  have hSome : ((stream.take count).find? fun other =>
      decide (other.sequence = event.sequence)).isSome = true := by
    rw [List.find?_isSome]
    exact ⟨event, List.mem_of_getElem? hTaken, decide_eq_true rfl⟩
  obtain ⟨other, hOther⟩ := Option.isSome_iff_exists.mp hSome
  -- Only one event of the stream has this sequence.
  have hSame : other = event := by
    have hFits := List.find?_some hOther
    have hSequence : other.sequence = event.sequence := of_decide_eq_true hFits
    obtain ⟨place, hPlace⟩ :=
      List.mem_iff_getElem?.mp (List.mem_of_mem_take (List.mem_of_find?_eq_some hOther))
    have hTheirs := hStream.sequence hPlace
    rw [hSequence] at hTheirs
    have hHere : place = index := by omega
    rw [hHere, hFound] at hPlace
    exact (Option.some.inj hPlace).symm
  rw [hOther, hSame]
  rfl

/-- An open chain freezes exactly at an event beyond the expected one. -/
theorem HoldsFirst.freezes_iff {count : Nat} (hStream : Numbered stream)
    (h : chain.HoldsFirst stream count) (hEvent : event ∈ stream)
    (hOpen : chain.frozenGap = false) :
    (chain.receive event).frozenGap = true ↔ chain.expected < event.sequence := by
  have hKnown := h.known hStream hEvent
  rw [UInt64.lt_iff_toNat_lt]
  have hAnswer := answers_ingest chain event
  unfold ProjectionChain.receive
  generalize chain.ingest event = answer at hAnswer
  cases hAnswer with
  | frozen hFrozen =>
      rw [hOpen] at hFrozen
      cases hFrozen
  | applied _ hNext =>
      rw [hNext]
      show chain.frozenGap = true ↔ _
      simp [hOpen]
  | duplicate _ hPast =>
      have hBelow := UInt64.lt_iff_toNat_lt.mp hPast
      simp only [hOpen, Bool.false_eq_true, false_iff]
      omega
  | freezes _ hOther hUnknown =>
      simp only [true_iff]
      have hNot : ¬ event.sequence.toNat < chain.expected.toNat := fun hPast =>
        hUnknown (UInt64.lt_iff_toNat_lt.mpr hPast) (hKnown hPast)
      have hNe : event.sequence.toNat ≠ chain.expected.toNat := fun hSame =>
        hOther (UInt64.toNat_inj.mp hSame)
      omega

theorem receive_of_frozen (h : chain.frozenGap = true)
    (event : VerifiedLifecycleEvent) : chain.receive event = chain := by
  rw [ProjectionChain.receive, ingest_of_frozen h]

/-! ### Every delivery -/

/-- What holds at every moment of a delivery of the stream. -/
structure SafeDelivery (stream delivered : List VerifiedLifecycleEvent) : Prop where
  contiguous : ∀ earlier, earlier <+: delivered →
    ∃ count, (run receive empty earlier).HoldsFirst stream count
  once : ∀ sequence, AtMostOnce receive empty delivered fun chain event =>
    event.sequence = sequence ∧ (chain.ingest event).1 = .applied
  duplicate : Throughout receive empty delivered fun chain event =>
    chain.frozenGap = false → chain.applied event.sequence = some event.eventDigest →
    (chain.ingest event).1 = .duplicate
  freezes : ∀ earlier, earlier <+: delivered →
    ((run receive empty earlier).frozenGap = true ↔
      Occurs receive empty earlier fun chain event =>
        chain.frozenGap = false ∧ chain.expected < event.sequence)
  settled : Throughout receive empty delivered fun chain event =>
    chain.frozenGap = true → chain.ingest event = (.frozenGap, chain)

/-- A known sequence under another digest freezes the chain and changes nothing
else. -/
def RefusesConflict (chain : ProjectionChain) (event : VerifiedLifecycleEvent) :
    Prop :=
  chain.frozenGap = false → ∀ digest, chain.applied event.sequence = some digest →
    digest ≠ event.eventDigest →
    chain.ingest event = (.frozenGap, { chain with frozenGap := true })

variable {delivered : List VerifiedLifecycleEvent}

theorem holdsFirst_of_run (hStream : Numbered stream)
    (hSmall : stream.length + 1 < 2 ^ 64)
    (hDelivered : ∀ event ∈ delivered, event ∈ stream) :
    ∃ count, (run receive empty delivered).HoldsFirst stream count := by
  have hMembers : Throughout receive empty delivered fun _ event => event ∈ stream :=
    Throughout.of_mem fun event hEvent _ => hDelivered event hEvent
  apply run_invariant_of_throughout
    (I := fun chain : ProjectionChain => ∃ count, chain.HoldsFirst stream count) _ _
    hMembers
  · exact ⟨0, HoldsFirst.empty stream⟩
  · intro chain event hHolds hEvent
    obtain ⟨count, hCount⟩ := hHolds
    exact hCount.receive hStream hSmall hEvent

/-- An event that is applied has the expected sequence, which then grows. -/
theorem expected_of_applied (h : (chain.ingest event).1 = .applied)
    (hSmall : event.sequence.toNat + 1 < 2 ^ 64) :
    event.sequence = chain.expected ∧
      (chain.receive event).expected.toNat = event.sequence.toNat + 1 := by
  have hAnswer := answers_ingest chain event
  unfold ProjectionChain.receive
  generalize chain.ingest event = answer at hAnswer h
  cases hAnswer with
  | frozen => cases h
  | applied _ hNext =>
      rw [expected_extended, ← hNext, toNat_saturatingSucc hSmall]
      exact ⟨rfl, rfl⟩
  | duplicate => cases h
  | freezes => cases h

/-- What has been applied lies below the expected sequence, which the stream
bounds. -/
structure Bounded (stream : List VerifiedLifecycleEvent) (chain : ProjectionChain) :
    Prop where
  expected : chain.expected.toNat ≤ stream.length + 1
  applied : ∀ sequence, chain.applied sequence ≠ none →
    sequence.toNat < chain.expected.toNat

theorem Bounded.empty (stream : List VerifiedLifecycleEvent) :
    Bounded stream empty := by
  refine ⟨Nat.le_add_left 1 _, ?_⟩
  intro sequence hApplied
  exact absurd rfl hApplied

theorem Bounded.receive (hSmall : stream.length + 1 < 2 ^ 64)
    (h : Bounded stream chain) (hEvent : event.sequence.toNat ≤ stream.length) :
    Bounded stream (chain.receive event) := by
  have hAnswer := answers_ingest chain event
  unfold ProjectionChain.receive
  generalize chain.ingest event = answer at hAnswer
  cases hAnswer with
  | frozen => exact h
  | applied _ hNext =>
      rw [hNext] at hEvent
      have hGrown : (chain.extended event).expected.toNat =
          chain.expected.toNat + 1 := by
        rw [expected_extended, toNat_saturatingSucc (by omega)]
      show Bounded stream (chain.extended event)
      refine ⟨by omega, ?_⟩
      intro sequence hApplied
      rw [hGrown]
      by_cases hSame : sequence = event.sequence
      · rw [hSame, hNext]
        exact Nat.lt_succ_self _
      · rw [extended] at hApplied
        simp only [if_neg hSame] at hApplied
        exact Nat.lt_succ_of_lt (h.applied sequence hApplied)
  | duplicate => exact h
  | freezes => exact ⟨h.expected, h.applied⟩

theorem bounded_of_run (hSmall : stream.length + 1 < 2 ^ 64)
    (hDelivered : ∀ event ∈ delivered, event.sequence.toNat ≤ stream.length) :
    Bounded stream (run receive ProjectionChain.empty delivered) := by
  have hMembers : Throughout ProjectionChain.receive ProjectionChain.empty delivered
      fun _ event => event.sequence.toNat ≤ stream.length :=
    Throughout.of_mem fun event hEvent _ => hDelivered event hEvent
  exact run_invariant_of_throughout (I := Bounded stream) (Bounded.empty stream)
    (fun _ _ h hEvent => h.receive hSmall hEvent) hMembers

/-- An open chain answers an event that it has applied, and one that contradicts
what it has applied. -/
theorem Bounded.answer (h : Bounded stream chain) (hOpen : chain.frozenGap = false)
    {digest : ByteArr 32} (hApplied : chain.applied event.sequence = some digest) :
    (digest = event.eventDigest → (chain.ingest event).1 = .duplicate) ∧
      (digest ≠ event.eventDigest →
        chain.ingest event = (.frozenGap, { chain with frozenGap := true })) := by
  have hPast : event.sequence.toNat < chain.expected.toNat :=
    h.applied _ (by rw [hApplied]; exact Option.some_ne_none _)
  have hAnswer := answers_ingest chain event
  generalize chain.ingest event = answer at hAnswer ⊢
  cases hAnswer with
  | frozen hFrozen =>
      rw [hOpen] at hFrozen
      cases hFrozen
  | applied _ hNext =>
      rw [hNext] at hPast
      exact absurd hPast (Nat.lt_irrefl _)
  | duplicate _ _ hKnown =>
      rw [hApplied, Option.some.injEq] at hKnown
      exact ⟨fun _ => rfl, fun hNe => absurd hKnown hNe⟩
  | freezes _ _ hUnknown =>
      have hNe := hUnknown (UInt64.lt_iff_toNat_lt.mpr hPast)
      rw [hApplied] at hNe
      exact ⟨fun hSame => absurd (congrArg some hSame) hNe, fun _ => rfl⟩

/-- A chain that freezes exactly at an event beyond the expected one has frozen when
such an event was delivered. -/
theorem frozen_iff_occurs
    (hFreezes : Throughout receive ProjectionChain.empty delivered fun chain event =>
      chain.frozenGap = false →
        ((chain.receive event).frozenGap = true ↔ chain.expected < event.sequence)) :
    (run receive ProjectionChain.empty delivered).frozenGap = true ↔
      Occurs receive ProjectionChain.empty delivered fun chain event =>
        chain.frozenGap = false ∧ chain.expected < event.sequence := by
  induction delivered using List.reverseRecOn with
  | nil =>
      refine ⟨nofun, ?_⟩
      rintro ⟨earlier, _, later, hShape, -⟩
      simp at hShape
  | append_singleton earlier event ih =>
      rw [occurs_concat_iff, ← ih hFreezes.initial, run_concat]
      cases hFrozen : (run receive ProjectionChain.empty earlier).frozenGap with
      | true =>
          rw [receive_of_frozen hFrozen, hFrozen]
          simp
      | false =>
          rw [hFreezes.last hFrozen]
          simp

/-- Every delivery of a numbered stream is safe. -/
theorem SafeDelivery.of_mem (hStream : Numbered stream)
    (hSmall : stream.length + 1 < 2 ^ 64)
    (hDelivered : ∀ event ∈ delivered, event ∈ stream) :
    SafeDelivery stream delivered := by
  have hHolds : ∀ earlier, earlier <+: delivered →
      ∃ count, (run receive ProjectionChain.empty earlier).HoldsFirst stream count := by
    intro earlier hPrefix
    exact holdsFirst_of_run hStream hSmall fun event hEvent =>
      hDelivered event (hPrefix.subset hEvent)
  have hMember : ∀ earlier event later, delivered = earlier ++ event :: later →
      earlier <+: delivered ∧ event ∈ stream := by
    intro earlier event later hShape
    refine ⟨⟨event :: later, hShape.symm⟩, hDelivered event ?_⟩
    rw [hShape]
    exact List.mem_append_right _ List.mem_cons_self
  refine ⟨hHolds, ?_, ?_, ?_, ?_⟩
  · intro sequence earlier first between second later hShape hFirst hSecond
    have hFits : ∀ event ∈ stream, event.sequence.toNat + 1 < 2 ^ 64 := by
      intro event hEvent
      have hBound := hStream.sequence_le hEvent
      omega
    have hEarly := (hMember earlier first (between ++ second :: later)
      (by rw [hShape, List.append_assoc, List.cons_append])).2
    have hLate := (hMember (earlier ++ first :: between) second later hShape).2
    obtain ⟨-, hGrown⟩ := expected_of_applied hFirst.2 (hFits first hEarly)
    obtain ⟨hAgain, -⟩ := expected_of_applied hSecond.2 (hFits second hLate)
    -- From the first application on, the chain expects a later sequence.
    have hLater : ((run receive ProjectionChain.empty earlier).receive
          first).expected.toNat ≤
        (run receive ProjectionChain.empty
          (earlier ++ first :: between)).expected.toNat := by
      rw [run_append, run_cons]
      exact run_related (R := fun before after : ProjectionChain =>
          before.expected.toNat ≤ after.expected.toNat)
        (fun _ => Nat.le_refl _) Nat.le_trans expected_receive _ between
    rw [hGrown, ← hAgain, hFirst.1, hSecond.1] at hLater
    omega
  · intro earlier event later hShape hOpen hKnown
    obtain ⟨hPrefix, -⟩ := hMember earlier event later hShape
    have hBounded : Bounded stream (run receive ProjectionChain.empty earlier) := by
      apply bounded_of_run hSmall
      intro other hOther
      exact hStream.sequence_le (hDelivered other (hPrefix.subset hOther))
    exact (hBounded.answer hOpen hKnown).1 rfl
  · intro earlier hPrefix
    apply frozen_iff_occurs
    intro before event after hShape hOpen
    have hBefore : before <+: earlier := ⟨event :: after, hShape.symm⟩
    obtain ⟨count, hCount⟩ := hHolds before (hBefore.trans hPrefix)
    have hEvent : event ∈ stream := by
      apply hDelivered event (hPrefix.subset _)
      rw [hShape]
      exact List.mem_append_right _ List.mem_cons_self
    exact hCount.freezes_iff hStream hEvent hOpen
  · intro earlier event later _ hFrozen
    exact ingest_of_frozen hFrozen event

/-- Every script over a numbered stream delivers it safely to a fresh chain, and an
event that contradicts an applied one freezes the chain, whatever else was delivered
of the sequences of the stream. -/
theorem delivery_safe (stream : List VerifiedLifecycleEvent)
    (hStream : Numbered stream) (hSmall : stream.length < 2 ^ 64 - 1) :
    (∀ script, SafeDelivery stream (mutateDelivery stream script)) ∧
      ∀ delivered : List VerifiedLifecycleEvent,
        (∀ event ∈ delivered, ∃ known ∈ stream, known.sequence = event.sequence) →
        Throughout receive ProjectionChain.empty delivered RefusesConflict := by
  have hRoom : stream.length + 1 < 2 ^ 64 := by omega
  refine ⟨?_, ?_⟩
  · intro script
    exact SafeDelivery.of_mem hStream hRoom fun _ hEvent =>
      mem_of_mem_mutateDelivery hEvent
  · intro delivered hDelivered earlier event later hShape hOpen digest hApplied hOther
    have hBounded : Bounded stream (run receive ProjectionChain.empty earlier) := by
      apply bounded_of_run hRoom
      intro other hBefore
      obtain ⟨known, hKnown, hSame⟩ := hDelivered other (by
        rw [hShape]
        exact List.mem_append_left _ hBefore)
      rw [← hSame]
      exact hStream.sequence_le hKnown
    exact (hBounded.answer hOpen hApplied).2 hOther

def sampleStream : List VerifiedLifecycleEvent :=
  [{ sequence := 1, eventDigest := ByteArr.fill 32 1 },
    { sequence := 2, eventDigest := ByteArr.fill 32 2 },
    { sequence := 3, eventDigest := ByteArr.fill 32 3 }]

/-- The script of the guard's own test. -/
def sampleScript : List DeliveryMutation :=
  [.duplicate 0, .deliver 2, .deliver 1]

/-- The delivery of the sample script is safe; it freezes the chain. -/
theorem delivery_safe_sample :
    SafeDelivery sampleStream (mutateDelivery sampleStream sampleScript) ∧
      (run receive ProjectionChain.empty
        (mutateDelivery sampleStream sampleScript)).frozenGap = true := by
  refine ⟨?_, by decide⟩
  exact (delivery_safe sampleStream (by unfold Numbered; decide) (by decide)).1
    sampleScript

end ProjectionChain
end Relay
end Hosted
end RootPermit
