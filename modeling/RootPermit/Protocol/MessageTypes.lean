import RootPermit.Protocol.SchemaRoundTrip

/-!
# Telling the message types apart

A message carries no type of its own: the nine schemas of `rp-protocol` share
their field numbers, their version field and most field types.  The outline of a
schema lists the kinds of the fields that it requires and of those that it
admits besides.

* `Codec.describes` — what a schema accepts has the outline of the schema;
* `Outline.Separated.disjoint` — two outlines of which one requires a field that
  the other does not admit describe no common value;
* `outlines_separated` — any two of the nine outlines are separated so;
* `messageType_unique` — no byte string is accepted as two types of message.
-/

namespace RootPermit
namespace Protocol

open Foundation

/-! ### Outlines -/

/-- What a reader sees of a value before it looks into it.  Both signs of an
integer are one kind, as `required_signed` takes either. -/
inductive Kind where
  | integer
  | bytes
  | text
  | array
  | map
  | other
  deriving DecidableEq, Repr

def CborValue.kind : CborValue → Kind
  | .unsigned _ => .integer
  | .negative _ => .integer
  | .bytes _ => .bytes
  | .text _ => .text
  | .array _ => .array
  | .map _ => .map
  | _ => .other

@[simp] theorem kind_unsigned (value : UInt64) :
    (CborValue.unsigned value).kind = .integer := rfl

@[simp] theorem kind_bytes (value : Bytes) :
    (CborValue.bytes value).kind = .bytes := rfl

@[simp] theorem kind_text (value : String) :
    (CborValue.text value).kind = .text := rfl

@[simp] theorem kind_array (values : List CborValue) :
    (CborValue.array values).kind = .array := rfl

@[simp] theorem kind_record (table : List (UInt64 × CborValue)) :
    (record table).kind = .map := rfl

@[simp] theorem kind_normalize (value : CborValue) :
    (normalize value).kind = value.kind := by
  cases value <;> rfl

@[simp] theorem kind_signed (value : Int64) : (signed value).kind = .integer := by
  unfold signed
  split <;> rfl

theorem kind_eq_map {value : CborValue} (h : value.isMap = true) :
    value.kind = .map := by
  cases value with
  | map entries => rfl
  | _ => cases h

/-- The keys of a table with the kinds of their values. -/
def kinds (table : List (UInt64 × CborValue)) : List (UInt64 × Kind) :=
  table.map fun entry => (entry.1, entry.2.kind)

@[simp] theorem kinds_normalizeTable (table : List (UInt64 × CborValue)) :
    kinds (normalizeTable table) = kinds table := by
  simp [kinds, normalizeTable]

/-- The fields of a schema: those that it requires, and those that may be
missing. -/
structure Outline where
  required : List (UInt64 × Kind)
  optional : List (UInt64 × Kind)
  deriving DecidableEq, Repr

namespace Outline

/-- The table has the required fields, and no others but the optional ones. -/
def Covers (outline : Outline) (table : List (UInt64 × CborValue)) : Prop :=
  outline.required ⊆ kinds table ∧
    kinds table ⊆ outline.required ++ outline.optional

def Describes (outline : Outline) (value : CborValue) : Prop :=
  ∃ table, value = record table ∧ outline.Covers table

/-- The first outline requires a field that the second one does not admit. -/
def Excludes (first second : Outline) : Prop :=
  ∃ entry ∈ first.required, entry ∉ second.required ++ second.optional

instance (first second : Outline) : Decidable (first.Excludes second) :=
  inferInstanceAs (Decidable
    (∃ entry ∈ first.required, entry ∉ second.required ++ second.optional))

/-- One of the outlines excludes the other. -/
def Separated (first second : Outline) : Prop :=
  first.Excludes second ∨ second.Excludes first

instance (first second : Outline) : Decidable (first.Separated second) :=
  inferInstanceAs (Decidable (_ ∨ _))

theorem covers_congr_perm {outline : Outline}
    {table other : List (UInt64 × CborValue)} (hPerm : table.Perm other) :
    outline.Covers table ↔ outline.Covers other := by
  have hKinds : (kinds table).Perm (kinds other) := hPerm.map _
  rw [Covers, Covers, hKinds.subset_congr_left, hKinds.subset_congr_right]

theorem Excludes.disjoint {first second : Outline} (h : first.Excludes second)
    {value : CborValue} (hFirst : first.Describes value) :
    ¬ second.Describes value := by
  intro hSecond
  obtain ⟨entry, hRequired, hUnknown⟩ := h
  obtain ⟨table, rfl, hTable⟩ := hFirst
  obtain ⟨other, hSame, hOther⟩ := hSecond
  have hTables : table = other := record_injective hSame
  have hKind : entry ∈ kinds other := hTables ▸ hTable.1 hRequired
  exact hUnknown (hOther.2 hKind)

/-- Separated outlines have no value in common. -/
theorem Separated.disjoint {first second : Outline} (h : first.Separated second)
    {value : CborValue} (hFirst : first.Describes value) :
    ¬ second.Describes value := by
  cases h with
  | inl hExcludes => exact hExcludes.disjoint hFirst
  | inr hExcludes => exact fun hSecond => hExcludes.disjoint hSecond hFirst

end Outline

/-- The value from which a message is decoded has the outline of its entries. -/
theorem Codec.describes {T : Type} (codec : Codec T) {outline : Outline}
    {decode : Bytes → Except SchemaError T} {normal : T → T}
    (hTrips : RoundTrips codec.canonicalBytes decode normal)
    (hCovers : ∀ message, codec.toLayout.Valid message → codec.Accepts message →
      outline.Covers (codec.entries message))
    {input : Bytes} (h : (decode input).isOk = true) :
    ∃ value, Protocol.decode input = .ok value ∧ outline.Describes value := by
  cases hDecode : decode input with
  | error fault =>
      rw [hDecode] at h
      cases h
  | ok message =>
      have hBytes := hTrips.canonicalBytes_of_decode input message hDecode
      obtain ⟨hValidate, hEncode⟩ := canonicalBytes_eq_ok_iff.mp hBytes
      obtain ⟨hValid, hAccepts, -⟩ := validate_eq_ok_iff.mp hValidate
      obtain ⟨sorted, hSorted, hPerm⟩ :=
        Layout.normalize_record (codec.entries message)
      refine ⟨_, encode_eq_ok_iff_decode.mp hEncode, sorted, hSorted, ?_⟩
      rw [Outline.covers_congr_perm hPerm, Outline.Covers, kinds_normalizeTable]
      exact hCovers message hValid hAccepts

/-! ### The nine schemas -/

/-- The types whose `decode` reads a message. -/
inductive MessageType where
  | request
  | approvalContext
  | decisionSubmission
  | planManifest
  | lifecycleEvent
  | receipt
  | enrollmentStatement
  | serviceKeyset
  | revocationEvent
  deriving DecidableEq, Repr

namespace MessageType

/-- `decode` of the type is `Ok`. -/
def decodes (messageType : MessageType) (input : Bytes) : Bool :=
  match messageType with
  | .request => (Request.decode input).isOk
  | .approvalContext => (ApprovalContext.decode input).isOk
  | .decisionSubmission => (DecisionSubmission.decode input).isOk
  | .planManifest => (PlanManifest.decode input).isOk
  | .lifecycleEvent => (LifecycleEvent.decode input).isOk
  | .receipt => (Receipt.decode input).isOk
  | .enrollmentStatement => (EnrollmentStatement.decode input).isOk
  | .serviceKeyset => (ServiceKeyset.decode input).isOk
  | .revocationEvent => (RevocationEvent.decode input).isOk

def outline : MessageType → Outline
  | .request =>
      { required := [(1, .integer), (2, .bytes), (3, .bytes), (4, .integer),
          (5, .integer), (6, .integer), (7, .integer), (8, .bytes), (9, .integer),
          (10, .bytes), (11, .integer), (12, .integer), (13, .map), (14, .bytes),
          (15, .bytes), (16, .bytes), (17, .map)]
        optional := [(18, .text)] }
  | .approvalContext =>
      { required := [(1, .integer), (2, .bytes), (3, .bytes), (4, .integer),
          (5, .bytes), (6, .integer), (7, .bytes), (8, .text), (9, .text),
          (10, .integer), (11, .integer)]
        optional := [] }
  | .decisionSubmission =>
      { required := [(1, .integer), (2, .map), (3, .bytes), (4, .bytes),
          (5, .bytes), (6, .bytes)]
        optional := [(7, .bytes)] }
  | .planManifest =>
      { required := [(1, .integer), (2, .bytes), (3, .array), (4, .map),
          (5, .bytes), (6, .integer), (7, .map), (8, .map)]
        optional := [] }
  | .lifecycleEvent =>
      { required := [(1, .integer), (2, .bytes), (3, .integer), (5, .bytes),
          (6, .integer), (7, .integer), (8, .integer), (9, .integer)]
        optional := [(4, .bytes), (10, .bytes)] }
  | .receipt =>
      { required := [(1, .integer), (2, .bytes), (3, .bytes), (4, .bytes),
          (5, .bytes), (6, .integer), (7, .array), (8, .map), (9, .map),
          (10, .integer), (11, .integer), (12, .integer)]
        optional := [] }
  | .enrollmentStatement =>
      { required := [(1, .integer), (2, .bytes), (3, .bytes), (4, .bytes),
          (5, .array), (6, .bytes), (7, .bytes), (8, .text), (9, .text),
          (10, .integer), (11, .integer)]
        optional := [] }
  | .serviceKeyset =>
      { required := [(1, .integer), (2, .integer), (3, .integer), (4, .array),
          (5, .bytes), (6, .integer)]
        optional := [] }
  | .revocationEvent =>
      { required := [(1, .integer), (2, .bytes), (3, .bytes), (4, .integer),
          (5, .bytes), (6, .integer), (7, .integer)]
        optional := [] }

end MessageType

open MessageType

theorem Request.kinds_entries {request : Request}
    (hPlan : request.frozenPlan.isMap = true) :
    kinds request.entries = (outline .request).required ++
      if request.agentNote.isSome then (outline .request).optional else [] := by
  cases hNote : request.agentNote <;>
    simp [kinds, entries, outline, optionalEntry, kind_eq_map hPlan,
      OperationInput.toCbor, hNote]

theorem ApprovalContext.kinds_entries (context : ApprovalContext) :
    kinds context.entries = (outline .approvalContext).required := by
  simp [kinds, entries, outline]

theorem DecisionSubmission.kinds_entries (submission : DecisionSubmission) :
    kinds submission.entries = (outline .decisionSubmission).required ++
      if submission.userHandle.isSome then (outline .decisionSubmission).optional
      else [] := by
  cases hHandle : submission.userHandle <;>
    simp [kinds, entries, outline, optionalEntry, ApprovalContext.toCbor, hHandle]

theorem PlanManifest.kinds_entries {manifest : PlanManifest}
    (hGraph : manifest.actionGraph.isMap = true)
    (hToolchain : manifest.toolchain.isMap = true)
    (hPrestate : manifest.prestateObservation.isMap = true) :
    kinds manifest.entries = (outline .planManifest).required := by
  simp [kinds, entries, outline, kind_eq_map hGraph, kind_eq_map hToolchain,
    kind_eq_map hPrestate]

/-- The two optional fields are pushed in the order of the outline. -/
theorem LifecycleEvent.kinds_entries (event : LifecycleEvent) :
    kinds event.entries = (outline .lifecycleEvent).required ++
      (if event.previousEventDigest.isSome then [(4, Kind.bytes)] else []) ++
      if event.detailDigest.isSome then [(10, Kind.bytes)] else [] := by
  cases hPrevious : event.previousEventDigest <;>
    cases hDetail : event.detailDigest <;>
    simp [kinds, entries, outline, optionalEntry, hPrevious, hDetail]

theorem Receipt.kinds_entries {receipt : Receipt}
    (hPrestate : receipt.prestateEvidence.isMap = true)
    (hExecution : receipt.executionEvidence.isMap = true) :
    kinds receipt.entries = (outline .receipt).required := by
  simp [kinds, entries, outline, kind_eq_map hPrestate, kind_eq_map hExecution]

theorem EnrollmentStatement.kinds_entries (statement : EnrollmentStatement) :
    kinds statement.entries = (outline .enrollmentStatement).required := by
  simp [kinds, entries, outline]

theorem ServiceKeyset.kinds_entries (keyset : ServiceKeyset) :
    kinds keyset.entries = (outline .serviceKeyset).required := by
  simp [kinds, entries, outline]

theorem RevocationEvent.kinds_entries (event : RevocationEvent) :
    kinds event.entries = (outline .revocationEvent).required := by
  simp [kinds, entries, outline]

/-- A table whose kinds are the required fields and some of the optional ones is
covered. -/
theorem Outline.covers_of_kinds {outline : Outline}
    {table : List (UInt64 × CborValue)} {present : List (UInt64 × Kind)}
    (hKinds : kinds table = outline.required ++ present)
    (hPresent : present ⊆ outline.optional) : outline.Covers table := by
  rw [Outline.Covers, hKinds]
  refine ⟨List.subset_append_left _ _, ?_⟩
  exact List.append_subset.mpr ⟨List.subset_append_left _ _,
    List.subset_append_of_subset_right _ hPresent⟩

theorem Outline.covers_of_required {outline : Outline}
    {table : List (UInt64 × CborValue)} (hKinds : kinds table = outline.required) :
    outline.Covers table :=
  covers_of_kinds (hKinds.trans (List.append_nil _).symm) (List.nil_subset _)

namespace MessageType

/-- What is decoded as a type of message has the outline of that type. -/
theorem describes_of_decodes {messageType : MessageType} {input : Bytes}
    (h : messageType.decodes input = true) :
    ∃ value, decode input = .ok value ∧ messageType.outline.Describes value := by
  cases messageType with
  | request =>
      refine Request.codec.describes Request.roundTrips ?_ h
      intro request _ hAccepts
      refine Outline.covers_of_kinds (Request.kinds_entries hAccepts.2) ?_
      split <;> simp
  | approvalContext =>
      refine (ApprovalContext.layout.codec noFurtherCheck fun _ h => h).describes
        ApprovalContext.roundTrips ?_ h
      intro context _ _
      exact Outline.covers_of_required (ApprovalContext.kinds_entries context)
  | decisionSubmission =>
      refine (DecisionSubmission.layout.codec noFurtherCheck
        fun _ h => h).describes DecisionSubmission.roundTrips ?_ h
      intro submission _ _
      refine Outline.covers_of_kinds (DecisionSubmission.kinds_entries submission) ?_
      split <;> simp
  | planManifest =>
      refine (PlanManifest.layout.codec noFurtherCheck fun _ h => h).describes
        PlanManifest.roundTrips ?_ h
      intro manifest hValid _
      have hValid : ∀ spec ∈ PlanManifest.specs, spec.Valid manifest := hValid
      have hGraph := hValid (.required 4 (.map 4) PlanManifest.actionGraph)
        (by simp [PlanManifest.specs])
      have hToolchain := hValid (.required 7 (.map 7) PlanManifest.toolchain)
        (by simp [PlanManifest.specs])
      have hPrestate := hValid (.required 8 (.map 8) PlanManifest.prestateObservation)
        (by simp [PlanManifest.specs])
      exact Outline.covers_of_required
        (PlanManifest.kinds_entries hGraph hToolchain hPrestate)
  | lifecycleEvent =>
      refine (LifecycleEvent.layout.codec LifecycleEvent.checkPrevious
        fun _ h => h).describes LifecycleEvent.roundTrips ?_ h
      intro event _ _
      refine Outline.covers_of_kinds
        ((LifecycleEvent.kinds_entries event).trans (List.append_assoc _ _ _)) ?_
      refine List.append_subset.mpr ⟨?_, ?_⟩
      · split <;> simp [outline]
      · split <;> simp [outline]
  | receipt =>
      refine (Receipt.layout.codec Receipt.checkTimes fun _ h => h).describes
        Receipt.roundTrips ?_ h
      intro receipt hValid _
      have hValid : ∀ spec ∈ Receipt.specs, spec.Valid receipt := hValid
      have hPrestate := hValid (.required 8 (.map 8) Receipt.prestateEvidence)
        (by simp [Receipt.specs])
      have hExecution := hValid (.required 9 (.map 9) Receipt.executionEvidence)
        (by simp [Receipt.specs])
      exact Outline.covers_of_required (Receipt.kinds_entries hPrestate hExecution)
  | enrollmentStatement =>
      refine (EnrollmentStatement.layout.codec noFurtherCheck
        fun _ h => h).describes EnrollmentStatement.roundTrips ?_ h
      intro statement _ _
      exact Outline.covers_of_required (EnrollmentStatement.kinds_entries statement)
  | serviceKeyset =>
      refine (ServiceKeyset.layout.codec ServiceKeyset.checkValidity
        fun _ h => h).describes ServiceKeyset.roundTrips ?_ h
      intro keyset _ _
      exact Outline.covers_of_required (ServiceKeyset.kinds_entries keyset)
  | revocationEvent =>
      refine (RevocationEvent.layout.codec noFurtherCheck fun _ h => h).describes
        RevocationEvent.roundTrips ?_ h
      intro event _ _
      exact Outline.covers_of_required (RevocationEvent.kinds_entries event)

/-- Every type of message, for going through the pairs. -/
def all : List MessageType :=
  [.request, .approvalContext, .decisionSubmission, .planManifest,
    .lifecycleEvent, .receipt, .enrollmentStatement, .serviceKeyset,
    .revocationEvent]

theorem mem_all (messageType : MessageType) : messageType ∈ all := by
  cases messageType <;> decide

/-- Of two types of message, one requires a field that the other does not admit:
a field that is unknown to it, or one to which it gives another kind. -/
theorem outlines_separated {first second : MessageType} (h : first ≠ second) :
    first.outline.Separated second.outline := by
  have hAll : ∀ first ∈ all, ∀ second ∈ all, first ≠ second →
      first.outline.Separated second.outline := by
    decide +kernel
  exact hAll first (mem_all first) second (mem_all second) h

end MessageType

/-- No byte string is decoded as two different types of message. -/
theorem messageType_unique (input : Bytes) (first second : MessageType)
    (hDistinct : first ≠ second) :
    ¬ (first.decodes input = true ∧ second.decodes input = true) := by
  intro h
  obtain ⟨value, hValue, hFirst⟩ := describes_of_decodes h.1
  obtain ⟨other, hOther, hSecond⟩ := describes_of_decodes h.2
  have hSame : other = value := by
    rw [hValue, Except.ok.injEq] at hOther
    exact hOther.symm
  subst hSame
  exact (outlines_separated hDistinct).disjoint hFirst hSecond

/-- A revocation as it travels: its fields are those of a submission up to the
kinds of the second and of the last three. -/
def sampleRevocation : RevocationEvent where
  deviceId := ByteArr.fill 16 1
  credentialId := [2]
  cutoffUtc := 3
  serviceEventId := ByteArr.fill 16 4
  generationAtIssue := 5
  reasonCode := 6

/-- The bytes of that revocation are accepted as a revocation, and so as none of
the other types. -/
theorem messageType_unique_sample :
    ∃ input, MessageType.revocationEvent.decodes input = true ∧
      ∀ other : MessageType, other ≠ .revocationEvent →
        other.decodes input = false := by
  have hOk : ((sampleRevocation.canonicalBytes).map
      MessageType.revocationEvent.decodes).toOption = some true := by
    decide +kernel
  cases hBytes : sampleRevocation.canonicalBytes with
  | error fault =>
      rw [hBytes] at hOk
      cases hOk
  | ok input =>
      rw [hBytes] at hOk
      have hDecodes : MessageType.revocationEvent.decodes input = true :=
        Option.some.inj hOk
      refine ⟨input, hDecodes, ?_⟩
      intro other hOther
      rw [Bool.eq_false_iff]
      intro hBoth
      exact messageType_unique input other .revocationEvent hOther
        ⟨hBoth, hDecodes⟩

end Protocol
end RootPermit
