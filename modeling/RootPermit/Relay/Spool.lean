import Mathlib.Data.List.Basic
import RootPermit.Foundation.Cursor
import RootPermit.Foundation.MachineInt

/-!
# The relay spool and its snapshot

This module embeds the spool of `rp-relay/src/lib.rs`: the opaque envelopes that
the relay retains until they are acknowledged, and the byte format in which a spool
is stored.  The ordered map of the source is an extensional tree map, ordered by the
bytes of the envelope identifiers.

A snapshot is read with a cursor.  Every fault of the reader is the same fault, a
corrupt spool.
-/

namespace RootPermit
namespace Relay

open Foundation

def MAX_OPAQUE_ENVELOPE_BYTES : Nat := 262144

def MAX_RETAINED_ENVELOPES : Nat := 4096

/-- The bytes of `RPSPOOL1`. -/
def SPOOL_MAGIC : ByteArr 8 :=
  ⟨[0x52, 0x50, 0x53, 0x50, 0x4f, 0x4f, 0x4c, 0x31], rfl⟩

/-- The faults of the spool; the other variants of the source belong to its hosted
projection model. -/
inductive RelayError where
  | invalidDirection
  | payloadTooLarge
  | duplicateEnvelopeId
  | unknownEnvelope
  | acknowledgementMismatch
  | mailboxFull
  | corruptSpool
  | storage (message : String)
  deriving DecidableEq, Repr

/-! ### Envelopes -/

structure EnvelopeId where
  asBytes : ByteArr 16
  deriving DecidableEq, Repr

namespace EnvelopeId

/-- The derived order of the source: the bytes are compared from the left. -/
def compare (first second : EnvelopeId) : Ordering :=
  Ord.compare first.asBytes.val second.asBytes.val

instance : Std.TransCmp EnvelopeId.compare where
  eq_swap {first second} :=
    @Std.OrientedCmp.eq_swap Bytes Ord.compare _ first.asBytes.val second.asBytes.val
  isLE_trans {first second third} :=
    @Std.TransCmp.isLE_trans Bytes Ord.compare _ first.asBytes.val
      second.asBytes.val third.asBytes.val

instance : Std.LawfulEqCmp EnvelopeId.compare where
  compare_self {first} :=
    @Std.ReflCmp.compare_self Bytes Ord.compare _ first.asBytes.val
  eq_of_compare {first second} h := by
    have hBytes : first.asBytes.val = second.asBytes.val :=
      @Std.LawfulEqCmp.eq_of_compare Bytes Ord.compare _ _ _ h
    obtain ⟨first⟩ := first
    obtain ⟨second⟩ := second
    exact congrArg EnvelopeId.mk (Subtype.ext hBytes)

end EnvelopeId

inductive Direction where
  | brokerToService
  | serviceToBroker
  deriving DecidableEq, Repr

inductive ObjectKind where
  | enrollmentAcknowledgement
  | request
  | lifecycleEvent
  | receipt
  | keysetAcknowledgement
  | serviceKeyset
  | decisionSubmission
  | revocationEvent
  | resyncRequest
  deriving DecidableEq, Repr

def ObjectKind.permittedIn : ObjectKind → Direction → Bool
  | .enrollmentAcknowledgement, .brokerToService
  | .request, .brokerToService
  | .lifecycleEvent, .brokerToService
  | .receipt, .brokerToService
  | .keysetAcknowledgement, .brokerToService
  | .serviceKeyset, .serviceToBroker
  | .decisionSubmission, .serviceToBroker
  | .revocationEvent, .serviceToBroker
  | .resyncRequest, .serviceToBroker => true
  | _, _ => false

structure OpaqueEnvelope where
  envelopeId : EnvelopeId
  direction : Direction
  kind : ObjectKind
  idempotencyKey : ByteArr 32
  payload : Bytes
  deriving DecidableEq, Repr

def OpaqueEnvelope.new (envelopeId : EnvelopeId) (direction : Direction)
    (kind : ObjectKind) (idempotencyKey : ByteArr 32) (payload : Bytes) :
    Except RelayError OpaqueEnvelope := do
  rejectIf (!kind.permittedIn direction) .invalidDirection
  rejectIf (payload.length > MAX_OPAQUE_ENVELOPE_BYTES) .payloadTooLarge
  return { envelopeId, direction, kind, idempotencyKey, payload }

/-- What `OpaqueEnvelope::new` checks. -/
structure OpaqueEnvelope.Sound (envelope : OpaqueEnvelope) : Prop where
  permitted : envelope.kind.permittedIn envelope.direction = true
  bounded : envelope.payload.length ≤ MAX_OPAQUE_ENVELOPE_BYTES

/-- An envelope built by `OpaqueEnvelope::new`. -/
abbrev BuiltEnvelope := { envelope : OpaqueEnvelope // envelope.Sound }

theorem OpaqueEnvelope.new_eq_ok_iff {envelopeId : EnvelopeId} {direction : Direction}
    {kind : ObjectKind} {idempotencyKey : ByteArr 32} {payload : Bytes}
    {envelope : OpaqueEnvelope} :
    OpaqueEnvelope.new envelopeId direction kind idempotencyKey payload =
        .ok envelope ↔
      envelope.Sound ∧
        { envelopeId, direction, kind, idempotencyKey, payload } = envelope := by
  simp only [OpaqueEnvelope.new, bind_eq_ok_iff, rejectIf_eq_ok_iff, exists_const,
    pure_eq_ok, Except.ok.injEq, Bool.not_eq_true', Bool.not_eq_false, gt_iff_lt,
    not_lt]
  constructor
  · intro h
    obtain ⟨hKind, hLength, rfl⟩ := h
    exact ⟨⟨hKind, hLength⟩, rfl⟩
  · intro h
    obtain ⟨⟨hKind, hLength⟩, rfl⟩ := h
    exact ⟨hKind, hLength, rfl⟩

/-! ### The spool -/

structure DeliveryAttempt where
  envelope : OpaqueEnvelope
  attempts : UInt32
  deriving DecidableEq, Repr

structure SpoolEntry where
  envelope : OpaqueEnvelope
  attempts : UInt32
  nextAttemptMonoNs : UInt64
  deriving DecidableEq, Repr

/-- The map of the source, in the order of the identifiers. -/
abbrev SpoolMap := Std.ExtTreeMap EnvelopeId SpoolEntry EnvelopeId.compare

namespace SpoolMap

variable {entries : SpoolMap} {envelopeId other : EnvelopeId} {entry : SpoolEntry}

theorem getElem?_insert :
    (entries.insert envelopeId entry)[other]? =
      if envelopeId = other then some entry else entries[other]? := by
  rw [Std.ExtTreeMap.getElem?_insert]
  simp only [Std.LawfulEqCmp.compare_eq_iff_eq]

theorem getElem?_erase :
    (entries.erase envelopeId)[other]? =
      if envelopeId = other then none else entries[other]? := by
  rw [Std.ExtTreeMap.getElem?_erase]
  simp only [Std.LawfulEqCmp.compare_eq_iff_eq]

theorem mem_insert_iff :
    other ∈ entries.insert envelopeId entry ↔ envelopeId = other ∨ other ∈ entries := by
  rw [Std.ExtTreeMap.mem_insert, Std.LawfulEqCmp.compare_eq_iff_eq]

theorem size_insert_of_mem (h : envelopeId ∈ entries) :
    (entries.insert envelopeId entry).size = entries.size := by
  rw [Std.ExtTreeMap.size_insert, if_pos (Std.ExtTreeMap.contains_iff_mem.mpr h)]

theorem size_insert_of_not_mem (h : envelopeId ∉ entries) :
    (entries.insert envelopeId entry).size = entries.size + 1 := by
  rw [Std.ExtTreeMap.size_insert]
  exact if_neg fun hContains => h (Std.ExtTreeMap.contains_iff_mem.mp hContains)

end SpoolMap

@[ext] structure RelaySpool where
  entries : SpoolMap

namespace RelaySpool

/-- `RelaySpool::default()`. -/
def empty : RelaySpool :=
  ⟨∅⟩

/-- `entries.values()`, in the order of the identifiers. -/
def values (spool : RelaySpool) : List SpoolEntry :=
  spool.entries.toList.map Prod.snd

def enqueue (spool : RelaySpool) (envelope : OpaqueEnvelope) (nowMonoNs : UInt64) :
    Except RelayError RelaySpool := do
  -- A duplicate is reported as such even when the mailbox is full.
  rejectIf (spool.entries.contains envelope.envelopeId) .duplicateEnvelopeId
  rejectIf (spool.entries.size ≥ MAX_RETAINED_ENVELOPES) .mailboxFull
  return ⟨spool.entries.insert envelope.envelopeId
    { envelope, attempts := 0, nextAttemptMonoNs := nowMonoNs }⟩

/-- The counter of a delivery attempt: `saturating_add(1)` of a `u32`. -/
def nextAttempts (attempts : UInt32) : UInt32 :=
  (toU32? (attempts.toNat + 1)).getD 0xffffffff

/-- The first entry that is ready is claimed; it stays in the spool. -/
def nextDelivery (spool : RelaySpool) (nowMonoNs : UInt64) :
    Option DeliveryAttempt × RelaySpool :=
  match spool.entries.toList.find? (·.2.nextAttemptMonoNs ≤ nowMonoNs) with
  | none => (none, spool)
  | some (envelopeId, entry) =>
      -- The time of the next attempt stays; only `retryLater` moves it.
      let entry := { entry with attempts := nextAttempts entry.attempts }
      (some { envelope := entry.envelope, attempts := entry.attempts },
        ⟨spool.entries.insert envelopeId entry⟩)

def acknowledge (spool : RelaySpool) (envelopeId : EnvelopeId)
    (idempotencyKey : ByteArr 32) : Except RelayError RelaySpool := do
  let entry ← orFault .unknownEnvelope spool.entries[envelopeId]?
  rejectIf (entry.envelope.idempotencyKey ≠ idempotencyKey) .acknowledgementMismatch
  return ⟨spool.entries.erase envelopeId⟩

def retryLater (spool : RelaySpool) (envelopeId : EnvelopeId)
    (nextAttemptMonoNs : UInt64) : Except RelayError RelaySpool := do
  let entry ← orFault .unknownEnvelope spool.entries[envelopeId]?
  return ⟨spool.entries.insert envelopeId { entry with nextAttemptMonoNs }⟩

/-- The calls of a spool; every enqueued envelope was built by
`OpaqueEnvelope::new`. -/
inductive Call where
  | enqueue (envelope : BuiltEnvelope) (nowMonoNs : UInt64)
  | nextDelivery (nowMonoNs : UInt64)
  | acknowledge (envelopeId : EnvelopeId) (idempotencyKey : ByteArr 32)
  | retryLater (envelopeId : EnvelopeId) (nextAttemptMonoNs : UInt64)

/-- The spool after a fallible change; a failed change leaves it as it was. -/
def settle (spool : RelaySpool) : Except RelayError RelaySpool → RelaySpool
  | .ok changed => changed
  | .error _ => spool

def step (spool : RelaySpool) : Call → RelaySpool
  | .enqueue envelope nowMonoNs => spool.settle (spool.enqueue envelope nowMonoNs)
  | .nextDelivery nowMonoNs => (spool.nextDelivery nowMonoNs).2
  | .acknowledge envelopeId idempotencyKey =>
      spool.settle (spool.acknowledge envelopeId idempotencyKey)
  | .retryLater envelopeId nextAttemptMonoNs =>
      spool.settle (spool.retryLater envelopeId nextAttemptMonoNs)

/-! ### What the calls change -/

variable {spool changed : RelaySpool} {envelopeId : EnvelopeId}

theorem enqueue_eq_ok_iff {envelope : OpaqueEnvelope} {nowMonoNs : UInt64} :
    spool.enqueue envelope nowMonoNs = .ok changed ↔
      envelope.envelopeId ∉ spool.entries ∧
        spool.entries.size < MAX_RETAINED_ENVELOPES ∧
        ⟨spool.entries.insert envelope.envelopeId ⟨envelope, 0, nowMonoNs⟩⟩ =
          changed := by
  simp only [enqueue, bind_eq_ok_iff, rejectIf_eq_ok_iff, exists_const, pure_eq_ok,
    Except.ok.injEq, Std.ExtTreeMap.contains_iff_mem, ge_iff_le, not_le]

/-- Only the key of the retained envelope acknowledges it. -/
theorem acknowledge_eq_ok_iff {idempotencyKey : ByteArr 32} :
    spool.acknowledge envelopeId idempotencyKey = .ok changed ↔
      ∃ entry, spool.entries[envelopeId]? = some entry ∧
        entry.envelope.idempotencyKey = idempotencyKey ∧
        ⟨spool.entries.erase envelopeId⟩ = changed := by
  simp only [acknowledge, bind_eq_ok_iff, orFault_eq_ok_iff, rejectIf_eq_ok_iff,
    exists_const, pure_eq_ok, Except.ok.injEq, not_not]

theorem retryLater_eq_ok_iff {nextAttemptMonoNs : UInt64} :
    spool.retryLater envelopeId nextAttemptMonoNs = .ok changed ↔
      ∃ entry, spool.entries[envelopeId]? = some entry ∧
        ⟨spool.entries.insert envelopeId { entry with nextAttemptMonoNs }⟩ =
          changed := by
  simp only [retryLater, bind_eq_ok_iff, orFault_eq_ok_iff, pure_eq_ok,
    Except.ok.injEq]

/-- A delivery counts an attempt of one entry, if any is ready. -/
theorem nextDelivery_cases (spool : RelaySpool) (nowMonoNs : UInt64) :
    (spool.nextDelivery nowMonoNs).2 = spool ∨
      ∃ envelopeId entry, spool.entries[envelopeId]? = some entry ∧
        (spool.nextDelivery nowMonoNs).2 = ⟨spool.entries.insert envelopeId
          { entry with attempts := nextAttempts entry.attempts }⟩ := by
  unfold nextDelivery
  split
  · exact .inl rfl
  · rename_i envelopeId entry hFound
    have hMem := List.mem_of_find?_eq_some hFound
    exact .inr ⟨envelopeId, entry,
      Std.ExtTreeMap.mem_toList_iff_getElem?_eq_some.mp hMem, rfl⟩

/-- What holds of a spool and of every successful change of it holds after the
change. -/
theorem settle_property {P : RelaySpool → Prop} {outcome : Except RelayError RelaySpool}
    (hSpool : P spool) (hChanged : ∀ changed, outcome = .ok changed → P changed) :
    P (spool.settle outcome) := by
  cases outcome with
  | error fault => exact hSpool
  | ok changed => exact hChanged changed rfl

end RelaySpool

/-! ### The snapshot -/

def Direction.code : Direction → UInt8
  | .brokerToService => 1
  | .serviceToBroker => 2

def objectKindCode : ObjectKind → UInt8
  | .enrollmentAcknowledgement => 1
  | .request => 2
  | .lifecycleEvent => 3
  | .receipt => 4
  | .keysetAcknowledgement => 5
  | .serviceKeyset => 6
  | .decisionSubmission => 7
  | .revocationEvent => 8
  | .resyncRequest => 9

def decodeDirection (value : UInt8) : Except RelayError Direction :=
  match value with
  | 1 => .ok .brokerToService
  | 2 => .ok .serviceToBroker
  | _ => .error .corruptSpool

def decodeObjectKind (value : UInt8) : Except RelayError ObjectKind :=
  match value with
  | 1 => .ok .enrollmentAcknowledgement
  | 2 => .ok .request
  | 3 => .ok .lifecycleEvent
  | 4 => .ok .receipt
  | 5 => .ok .keysetAcknowledgement
  | 6 => .ok .serviceKeyset
  | 7 => .ok .decisionSubmission
  | 8 => .ok .revocationEvent
  | 9 => .ok .resyncRequest
  | _ => .error .corruptSpool

/-- A length as four bytes: `u32::try_from(length).unwrap_or(u32::MAX)`. -/
def lengthBytes (length : Nat) : Bytes :=
  beBytes 4 ((toU32? length).getD 0xffffffff).toNat

/-- The bytes of one entry, as the loop of `encode_spool` appends them. -/
def encodeEntry (entry : SpoolEntry) : Bytes :=
  entry.envelope.envelopeId.asBytes.val ++
    ([entry.envelope.direction.code] ++
    ([objectKindCode entry.envelope.kind] ++
    (entry.envelope.idempotencyKey.val ++
    (beBytes 4 entry.attempts.toNat ++
    (beBytes 8 entry.nextAttemptMonoNs.toNat ++
    (lengthBytes entry.envelope.payload.length ++
    entry.envelope.payload))))))

def encodeSpool (spool : RelaySpool) : Bytes :=
  SPOOL_MAGIC.val ++
    (lengthBytes spool.entries.size ++ spool.values.flatMap encodeEntry)

/-- A reader of a snapshot. -/
abbrev SpoolReader := StateT Cursor (Except RelayError)

/-- `Cursor::read_exact`: the next bytes fill an array. -/
def readExact (length : Nat) : SpoolReader (ByteArr length) := fun before => do
  let (bytes, after) ← orFault .corruptSpool (before.advance? length)
  let array ← orFault .corruptSpool (ByteArr.ofBytes? length bytes)
  return (array, after)

def readByte : SpoolReader UInt8 := fun before =>
  orFault .corruptSpool before.next?

def readU32 : SpoolReader UInt32 := do
  let value ← readExact 4
  return UInt32.ofNat (beValue value.val)

def readU64 : SpoolReader UInt64 := do
  let value ← readExact 8
  return UInt64.ofNat (beValue value.val)

/-- The part of the loop of `decode_spool` that builds an entry. -/
def readEntry : SpoolReader SpoolEntry := do
  let envelopeId ← readExact 16
  let direction ← liftM (decodeDirection (← readByte))
  let kind ← liftM (decodeObjectKind (← readByte))
  let idempotencyKey ← readExact 32
  let attempts ← readU32
  let nextAttemptMonoNs ← readU64
  let payloadLen := (← readU32).toNat
  -- The length is bounded before that many bytes are read.
  liftM (rejectIf (payloadLen > MAX_OPAQUE_ENVELOPE_BYTES) RelayError.corruptSpool)
  let payload ← readExact payloadLen
  -- A stored envelope has to pass the checks of a new one.
  let envelope := OpaqueEnvelope.new ⟨envelopeId⟩ direction kind idempotencyKey payload
  let envelope ← liftM (envelope.mapError fun _ => RelayError.corruptSpool)
  return { envelope, attempts, nextAttemptMonoNs }

/-- The loop of `decode_spool`. -/
def readEntries : Nat → RelaySpool → SpoolReader RelaySpool
  | 0, spool => pure spool
  | count + 1, spool => do
      let entry ← readEntry
      -- The entries may come in any order, but each identifier only once.
      liftM (rejectIf (spool.entries.contains entry.envelope.envelopeId)
        RelayError.corruptSpool)
      readEntries count ⟨spool.entries.insert entry.envelope.envelopeId entry⟩

def decodeSpool (bytes : Bytes) : Except RelayError RelaySpool := do
  let (magic, input) ← readExact 8 (Cursor.start bytes)
  rejectIf (magic ≠ SPOOL_MAGIC) .corruptSpool
  let (count, input) ← readU32 input
  rejectIf (count.toNat > MAX_RETAINED_ENVELOPES) .corruptSpool
  let (spool, input) ← readEntries count.toNat .empty input
  -- Nothing may follow the last entry.
  rejectIf (input.offset ≠ bytes.length) .corruptSpool
  return spool

end Relay
end RootPermit
