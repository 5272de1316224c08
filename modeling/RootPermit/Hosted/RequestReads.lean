import RootPermit.Foundation.FirstWrite
import RootPermit.Hosted.Changes

/-!
# Reading a request

What an account is shown of a request is decided by the turns before: the envelope is the
one that came in first under the identifier, and the projection is that of the last turn
that set it.  An account of another tenant is told that there is no such request
(`request_read_iff`).
-/

namespace RootPermit
namespace Hosted
namespace M3

open Foundation

/-! ### What a turn does to the requests -/

/-- The input passes the checks of a new request. -/
structure RequestInput.Acceptable (input : RequestInput) (runtime : M3Runtime) : Prop where
  publicId : Broker.isPublicId input.publicId = true
  device : ∃ device, runtime.device? input.devicePublicId = some device ∧
    device.tenantId = input.tenantId
  envelope : IsOpaqueEnvelope input.envelope

/-- What stays of a record. -/
def RequestRecord.input (record : RequestRecord) : RequestInput where
  publicId := record.publicId
  tenantId := record.tenantId
  devicePublicId := record.devicePublicId
  envelope := record.envelope
  expiresAt := record.expiresAt

@[simp] theorem RequestInput.input_record (input : RequestInput) :
    input.record.input = input := rfl

/-- The turn brings a request that can be stored. -/
def Ingests (input : RequestInput) (service : Service) (turn : Turn) : Prop :=
  Sends input turn ∧ input.Acceptable service.shared

/-- The turn brings a request that can be stored, and its identifier is new. -/
def Adds (input : RequestInput) (service : Service) (turn : Turn) : Prop :=
  Ingests input service turn ∧ service.shared.request? input.publicId = none

/-- The projection of a request with this receipt. -/
def TerminalState.projection (terminalState : TerminalState) : RequestProjection :=
  if terminalState = .denied then .denied else .terminal

/-- The projection of a request with this decision. -/
def decidedProjection (decision : DecisionValue) : RequestProjection :=
  if decision = .approve then .approved else .denied

section

variable [Cryptography]

/-- The turn decides the request, or it brings the receipt of a stored request. -/
inductive Sets (requestId : String) (projection : RequestProjection) (service : Service)
    (turn : Turn) : Prop where
  | decision (session : Session) (input : VerifiedBrokerCeremonyInput)
      (surroundings : Surroundings) (ceremony : VerifiedApprovalCeremony)
      (hDecides : Decides session requestId input surroundings service turn)
      (hAdmitted : admitDecision service.shared session requestId (some input)
        surroundings.now = .ok (input, ceremony))
      (hProjection : projection = decidedProjection ceremony.decision)
  | receipt (terminalState : TerminalState) (surroundings : Surroundings)
      (hTurn : turn = .enter
        (.ingestVerifiedBrokerReceipt requestId terminalState, surroundings))
      (hKnown : (service.shared.request? requestId).isSome = true)
      (hProjection : projection = terminalState.projection)

/-- The turn gives the request this projection. -/
def Projects (requestId : String) (projection : RequestProjection) (service : Service)
    (turn : Turn) : Prop :=
  Sets requestId projection service turn ∨
    (projection = .pending ∧
      ∃ input, input.publicId = requestId ∧ Adds input service turn)

end

theorem finished_shared (outcome : Except String Unit × M3Runtime) :
    (finished outcome).2 = outcome.2 := by
  obtain ⟨result, runtime⟩ := outcome
  cases result with
  | ok value => rfl
  | error message => rfl

section Ingestion

variable {input : RequestInput} {runtime : M3Runtime}

theorem ingestVerifiedRequest_of_new (hAcceptable : input.Acceptable runtime)
    (hNew : runtime.request? input.publicId = none) :
    ingestVerifiedRequest input runtime = (.ok (),
      { runtime with requests := runtime.requests ++ [input.record] }) := by
  unfold ingestVerifiedRequest
  refine (Segment.check_bind_of_ok (?_ : _ = Except.ok ())).trans ?_
  · rw [requirePublicId, rejectIf_eq_ok_iff, Bool.not_eq_false]
    exact hAcceptable.publicId
  refine (Segment.check_bind_of_ok (?_ : _ = Except.ok ())).trans ?_
  · rw [rejectIf_eq_ok_iff, not_or, not_or, not_not, not_lt, not_lt]
    exact ⟨hAcceptable.device, hAcceptable.envelope⟩
  refine (Segment.check_bind_of_ok (?_ : _ = Except.ok none)).trans ?_
  · exact congrArg Except.ok hNew
  have hPut : Table.put RequestRecord.publicId input.record runtime.requests =
      runtime.requests ++ [input.record] := Table.put_of_absent hNew
  rw [← hPut]
  rfl

/-- Any other input leaves the runtime as it is. -/
theorem ingestVerifiedRequest_of_not
    (h : ¬ (input.Acceptable runtime ∧ runtime.request? input.publicId = none)) :
    (ingestVerifiedRequest input runtime).2 = runtime := by
  have hSame : Segment.Guarantees Eq (ingestVerifiedRequest input) runtime
      fun _ _ => True := by
    apply Segment.Guarantees.check_bind
    intro _ hId
    apply Segment.Guarantees.check_bind
    intro _ hChecks
    rw [rejectIf_eq_ok_iff, not_or, not_or, not_not, not_lt, not_lt] at hChecks
    rw [requirePublicId, rejectIf_eq_ok_iff, Bool.not_eq_false] at hId
    apply Segment.Guarantees.check_bind
    intro existing hExisting
    cases existing with
    | some existing =>
        apply Segment.Guarantees.ite
        · intro _
          exact Segment.Guarantees.pure trivial
        · intro _
          exact Segment.Guarantees.throw
    | none => exact absurd ⟨⟨hId, hChecks.1, hChecks.2⟩, Except.ok.inj hExisting⟩ h
  exact hSame.1.symm

end Ingestion

/-- The runtime after a projection of a request was set. -/
def M3Runtime.project (runtime : M3Runtime) (requestId : String)
    (projection : RequestProjection) : M3Runtime :=
  { runtime with
    requests := Table.update (fun record => decide (record.publicId = requestId))
      (fun record => { record with projection }) runtime.requests }

theorem ingestVerifiedBrokerReceipt_of_known {runtime : M3Runtime} {requestId : String}
    (terminalState : TerminalState) (hKnown : (runtime.request? requestId).isSome = true) :
    ingestVerifiedBrokerReceipt requestId terminalState runtime =
      (.ok (), runtime.project requestId terminalState.projection) := by
  refine (Segment.check_bind_of_ok (?_ : _ = Except.ok ())).trans rfl
  rw [rejectIf_eq_ok_iff, Bool.not_eq_true, Option.isNone_eq_false_iff]
  exact hKnown

theorem ingestVerifiedBrokerReceipt_of_unknown {runtime : M3Runtime} {requestId : String}
    (terminalState : TerminalState) (hKnown : ¬ (runtime.request? requestId).isSome = true) :
    (ingestVerifiedBrokerReceipt requestId terminalState runtime).2 = runtime := by
  have hRun : ingestVerifiedBrokerReceipt requestId terminalState runtime =
      (.error "invalid_receipt", runtime) := by
    refine Segment.check_bind_of_error ?_
    exact rejectIf_eq_error_iff.mpr ⟨by simpa using hKnown, rfl⟩
  rw [hRun]

/-! ### The cases of a turn -/

section Turns

variable [Cryptography] {service : Service} {turn : Turn}

/-- An admitted decision is on a stored request, with the ceremony that was brought. -/
theorem admitDecision_eq_ok {runtime : M3Runtime} {session : Session} {requestId : String}
    {input found : VerifiedBrokerCeremonyInput} {ceremony : VerifiedApprovalCeremony}
    {now : Double}
    (h : admitDecision runtime session requestId (some input) now =
      .ok (found, ceremony)) :
    found = input ∧ (runtime.request? requestId).isSome = true := by
  simp only [admitDecision, bind_eq_ok_iff, orFault_eq_ok_iff, pure_eq_ok,
    Except.ok.injEq, Prod.mk.injEq] at h
  obtain ⟨_, hInput, _, _, record, hRecord, _, _, _, _, _, _, _, _, _, _, rfl, _⟩ := h
  rw [hRecord]
  exact ⟨(Option.some.inj hInput).symm, rfl⟩

omit [Cryptography] in
/-- A decision is a later segment of its task. -/
theorem Decides.ne_enter {session : Session} {requestId : String}
    {input : VerifiedBrokerCeremonyInput} {surroundings : Surroundings}
    (h : Decides session requestId input surroundings service turn)
    (call : Call × Surroundings) : turn ≠ .enter call := by
  obtain ⟨_, _, rfl, -⟩ := h
  intro hTurn
  cases hTurn

theorem Sets.known {requestId : String} {projection : RequestProjection}
    (h : Sets requestId projection service turn) :
    (service.shared.request? requestId).isSome = true := by
  cases h with
  | decision session input surroundings ceremony hDecides hAdmitted hProjection =>
      exact (admitDecision_eq_ok hAdmitted).2
  | receipt terminalState surroundings hTurn hKnown hProjection => exact hKnown

/-- A turn that concludes a request brings no request. -/
theorem Sets.not_sends {requestId : String} {projection : RequestProjection}
    (h : Sets requestId projection service turn) (input : RequestInput) :
    ¬ Sends input turn := by
  rintro ⟨_, rfl⟩
  cases h with
  | decision session found surroundings ceremony hDecides hAdmitted hProjection =>
      exact hDecides.ne_enter _ rfl
  | receipt terminalState surroundings hTurn hKnown hProjection => cases hTurn

/-- A turn sets one projection of one request. -/
theorem Sets.unique {requestId otherId : String} {projection other : RequestProjection}
    (h : Sets requestId projection service turn) (hOther : Sets otherId other service turn) :
    requestId = otherId ∧ projection = other := by
  cases h with
  | decision session input surroundings ceremony hDecides hAdmitted hProjection =>
      cases hOther with
      | decision session' input' surroundings' ceremony' hDecides' hAdmitted' hProjection' =>
          obtain ⟨rfl, rfl, rfl, rfl⟩ := hDecides.unique hDecides'
          rw [hAdmitted] at hAdmitted'
          cases hAdmitted'
          exact ⟨rfl, hProjection.trans hProjection'.symm⟩
      | receipt terminalState surroundings' hTurn hKnown hProjection' =>
          exact absurd hTurn (hDecides.ne_enter _)
  | receipt terminalState surroundings hTurn hKnown hProjection =>
      cases hOther with
      | decision session' input' surroundings' ceremony' hDecides hAdmitted hProjection' =>
          exact absurd hTurn (hDecides.ne_enter _)
      | receipt terminalState' surroundings' hTurn' hKnown' hProjection' =>
          rw [hTurn] at hTurn'
          cases hTurn'
          exact ⟨rfl, hProjection.trans hProjection'.symm⟩

omit [Cryptography] in
theorem Sends.unique {first second : RequestInput} (hFirst : Sends first turn)
    (hSecond : Sends second turn) : first = second := by
  obtain ⟨_, rfl⟩ := hFirst
  obtain ⟨_, hTurn⟩ := hSecond
  cases hTurn
  rfl

/-- The stored requests after a turn: one is new, one has another projection, or they are
as before. -/
inductive RequestsStep (service : Service) (turn : Turn) (requests : List RequestRecord) :
    Prop where
  | adds (input : RequestInput) (hAdds : Adds input service turn)
      (hRequests : requests = service.shared.requests ++ [input.record])
  | sets (requestId : String) (projection : RequestProjection)
      (hSets : Sets requestId projection service turn)
      (hRequests : requests = (service.shared.project requestId projection).requests)
  | keeps (hAdds : ∀ input, ¬ Adds input service turn)
      (hSets : ∀ requestId projection, ¬ Sets requestId projection service turn)
      (hRequests : requests = service.shared.requests)

theorem requestsStep_of_sends {input : RequestInput} (hSends : Sends input turn) :
    RequestsStep service turn (service.turn turn).shared.requests := by
  obtain ⟨surroundings, rfl⟩ := hSends
  have hShared : (service.turn (.enter (.ingestVerifiedRequest input, surroundings))).shared =
      (ingestVerifiedRequest input service.shared).2 := finished_shared _
  have hSends : Sends input (.enter (.ingestVerifiedRequest input, surroundings)) :=
    ⟨surroundings, rfl⟩
  by_cases hNew : input.Acceptable service.shared ∧
      service.shared.request? input.publicId = none
  · refine .adds input ⟨⟨hSends, hNew.1⟩, hNew.2⟩ ?_
    rw [hShared, ingestVerifiedRequest_of_new hNew.1 hNew.2]
  · refine .keeps ?_ (fun _ _ hSets => hSets.not_sends input hSends) ?_
    · rintro other ⟨⟨hOther, hAcceptable⟩, hAbsent⟩
      cases hSends.unique hOther
      exact hNew ⟨hAcceptable, hAbsent⟩
    · rw [hShared, ingestVerifiedRequest_of_not hNew]

theorem requestsStep_of_receipt {requestId : String} {terminalState : TerminalState}
    {surroundings : Surroundings} (hTurn : turn = .enter
      (.ingestVerifiedBrokerReceipt requestId terminalState, surroundings)) :
    RequestsStep service turn (service.turn turn).shared.requests := by
  have hShared : (service.turn turn).shared =
      (ingestVerifiedBrokerReceipt requestId terminalState service.shared).2 := by
    rw [hTurn]
    exact finished_shared _
  by_cases hKnown : (service.shared.request? requestId).isSome = true
  · refine .sets requestId terminalState.projection
      (.receipt terminalState surroundings hTurn hKnown rfl) ?_
    rw [hShared, ingestVerifiedBrokerReceipt_of_known terminalState hKnown]
  · refine .keeps ?_ ?_ ?_
    · rintro input ⟨⟨⟨_, hSent⟩, -⟩, -⟩
      rw [hTurn] at hSent
      cases hSent
    · intro otherId projection hSets
      cases hSets with
      | decision session input surroundings ceremony hDecides hAdmitted hProjection =>
          exact absurd hTurn (hDecides.ne_enter _)
      | receipt terminalState surroundings hReceipt hFound hProjection =>
          rw [hTurn] at hReceipt
          cases hReceipt
          exact hKnown hFound
    · rw [hShared, ingestVerifiedBrokerReceipt_of_unknown terminalState hKnown]

theorem requestsStep_of_decides {session : Session} {requestId : String}
    {input : VerifiedBrokerCeremonyInput} {surroundings : Surroundings}
    (hDecides : Decides session requestId input surroundings service turn) :
    RequestsStep service turn (service.turn turn).shared.requests := by
  have hShared : (service.turn turn).shared =
      (caught (decisionWithCeremony session requestId (some input) surroundings
        service.shared)).2 := by
    obtain ⟨index, payload, rfl, hTask⟩ := hDecides
    rw [Service.turn, Scene.step_resume hTask]
    rfl
  cases hChecks : admitDecision service.shared session requestId (some input)
      surroundings.now with
  | error fault =>
      refine .keeps ?_ ?_ ?_
      · rintro other ⟨⟨⟨_, hTurn⟩, -⟩, -⟩
        exact hDecides.ne_enter _ hTurn
      · intro otherId projection hSets
        cases hSets with
        | decision session' input' surroundings' ceremony hDecides' hAdmitted hProjection =>
            obtain ⟨rfl, rfl, rfl, rfl⟩ := hDecides.unique hDecides'
            rw [hChecks] at hAdmitted
            cases hAdmitted
        | receipt terminalState surroundings' hTurn hFound hProjection =>
            exact absurd hTurn (hDecides.ne_enter _)
      · rw [hShared, decisionWithCeremony_rejected hChecks]
        rfl
  | ok admitted =>
      obtain ⟨found, ceremony⟩ := admitted
      obtain rfl := (admitDecision_eq_ok hChecks).1
      refine .sets requestId (decidedProjection ceremony.decision)
        (.decision session found surroundings ceremony hDecides hChecks rfl) ?_
      rw [hShared, decisionWithCeremony_admitted hChecks]
      rfl

/-- Whatever a turn does, it is one of the three. -/
theorem turn_requests (service : Service) (turn : Turn) :
    RequestsStep service turn (service.turn turn).shared.requests := by
  by_cases hSends : ∃ input, Sends input turn
  · obtain ⟨input, hSends⟩ := hSends
    exact requestsStep_of_sends hSends
  by_cases hConcludes : ∃ requestId, Concludes requestId service turn
  · obtain ⟨requestId, hDecides | hReceipt⟩ := hConcludes
    · obtain ⟨session, input, surroundings, hDecides⟩ := hDecides
      exact requestsStep_of_decides hDecides
    · obtain ⟨terminalState, surroundings, hTurn⟩ := hReceipt
      exact requestsStep_of_receipt hTurn
  refine .keeps (fun input hAdds => hSends ⟨input, hAdds.1.1⟩) ?_ ?_
  · intro requestId projection hSets
    refine hConcludes ⟨requestId, ?_⟩
    cases hSets with
    | decision session input surroundings ceremony hDecides hAdmitted hProjection =>
        exact .inl ⟨session, input, surroundings, hDecides⟩
    | receipt terminalState surroundings hTurn hKnown hProjection =>
        exact .inr ⟨terminalState, surroundings, hTurn⟩
  · refine (turn_changes service turn).preserve
      (I := fun runtime => runtime.requests = service.shared.requests) ?_ rfl
    intro first second hChange hSame
    cases hChange with
    | ingest input hSent hNew hEnvelope => exact absurd ⟨input, hSent⟩ hSends
    | project requestId projection hConcluded =>
        exact absurd ⟨requestId, hConcluded⟩ hConcludes
    | _ => exact hSame

end Turns

/-! ### What is stored of a request -/

/-- The stored requests by their identifiers, without their projections. -/
def ingested (service : Service) : List (String × RequestInput) :=
  service.shared.requests.map fun record => (record.publicId, record.input)

/-- What a turn writes to the requests: the one that it brings, under its identifier. -/
def WritesRequest (entry : String × RequestInput) (service : Service) (turn : Turn) :
    Prop :=
  entry.1 = entry.2.publicId ∧ Ingests entry.2 service turn

/-- The turn brings a request with this identifier that can be stored. -/
def IngestsUnder (requestId : String) (service : Service) (turn : Turn) : Prop :=
  ∃ input, input.publicId = requestId ∧ Ingests input service turn

theorem writesUnder_iff_ingestsUnder (requestId : String) :
    WritesUnder WritesRequest requestId = IngestsUnder requestId := by
  funext service turn
  apply propext
  constructor
  · rintro ⟨⟨_, input⟩, rfl, hKey, hIngests⟩
    exact ⟨input, hKey.symm, hIngests⟩
  · rintro ⟨input, rfl, hIngests⟩
    exact ⟨(input.publicId, input), rfl, rfl, hIngests⟩

theorem ingested_free_iff {service : Service} {requestId : String} :
    (∀ other ∈ ingested service, other.1 ≠ requestId) ↔
      service.shared.request? requestId = none := by
  rw [M3Runtime.request?, Table.lookup_eq_none_iff, List.mem_map, ingested,
    List.forall_mem_map]
  simp only [not_exists, not_and, ne_eq]

theorem ingested_project (service : Service) (requestId : String)
    (projection : RequestProjection) :
    (service.shared.project requestId projection).requests.map
        (fun record => (record.publicId, record.input)) = ingested service :=
  Table.map_update fun _ => rfl

section Runs

variable [Cryptography]

theorem ingested_storesFirst : StoresFirst Service.turn ingested WritesRequest := by
  intro service turn entry
  have hNever : (∀ input, ¬ Adds input service turn) →
      ¬ (WritesRequest entry service turn ∧
        ∀ other ∈ ingested service, other.1 ≠ entry.1) := by
    rintro hAdds ⟨⟨hKey, hIngests⟩, hFree⟩
    rw [ingested_free_iff, hKey] at hFree
    exact hAdds entry.2 ⟨hIngests, hFree⟩
  cases turn_requests service turn with
  | adds input hAdds hRequests =>
      have hAfter : ingested (service.turn turn) =
          ingested service ++ [(input.publicId, input)] := by
        rw [ingested, hRequests, List.map_append]
        rfl
      rw [hAfter, List.mem_append, List.mem_singleton]
      refine or_congr_right ?_
      constructor
      · rintro rfl
        exact ⟨⟨rfl, hAdds.1⟩, ingested_free_iff.mpr hAdds.2⟩
      · rintro ⟨⟨hKey, hIngests⟩, -⟩
        obtain rfl := hIngests.1.unique hAdds.1.1
        exact Prod.ext hKey rfl
  | sets requestId projection hSets hRequests =>
      rw [ingested, hRequests, ingested_project]
      have hNone := hNever fun input hAdds => hSets.not_sends input hAdds.1.1
      simp only [hNone, or_false]
  | keeps hAdds hSets hRequests =>
      rw [ingested, hRequests]
      have hNone := hNever hAdds
      simp only [hNone, or_false]
      rfl

/-- The projection of the request, when it is stored. -/
def projection? (requestId : String) (service : Service) : Option RequestProjection :=
  (service.shared.request? requestId).map RequestRecord.projection

theorem projection_storesLast (requestId : String) :
    StoresLast Service.turn (projection? requestId) (Projects requestId) := by
  apply StoresLast.of_cases
  intro service turn
  cases turn_requests service turn with
  | adds input hAdds hRequests =>
      have hAfter : (service.turn turn).shared.request? requestId =
          (service.shared.request? requestId).or
            (if input.publicId = requestId then some input.record else none) := by
        rw [M3Runtime.request?, hRequests]
        exact Table.lookup_append input.record
      have hProjects : ∀ other, Projects requestId other service turn →
          other = .pending ∧ input.publicId = requestId := by
        rintro other (hSets | ⟨rfl, found, rfl, hFound⟩)
        · exact absurd hAdds.1.1 (hSets.not_sends input)
        · rw [hAdds.1.1.unique hFound.1.1]
          exact ⟨rfl, rfl⟩
      by_cases hId : input.publicId = requestId
      · refine .inr ⟨.pending, ?_, .inr ⟨rfl, input, hId, hAdds⟩,
          fun other hOther => (hProjects other hOther).1⟩
        have hAbsent : service.shared.request? requestId = none := hId ▸ hAdds.2
        rw [projection?, hAfter, hAbsent, if_pos hId]
        rfl
      · refine .inl ⟨?_, fun other hOther => hId (hProjects other hOther).2⟩
        rw [projection?, hAfter, if_neg hId, Option.or_none]
        rfl
  | sets otherId written hSets hRequests =>
      have hAfter : (service.turn turn).shared.request? requestId =
          (service.shared.request? requestId).map fun record =>
            if decide (record.publicId = otherId) then
              { record with projection := written }
            else record := by
        rw [M3Runtime.request?, hRequests]
        exact Table.lookup_update fun _ => rfl
      have hProjects : ∀ other, Projects requestId other service turn →
          requestId = otherId ∧ other = written := by
        rintro other (hOther | ⟨-, input, -, hAdds⟩)
        · exact hOther.unique hSets
        · exact absurd hAdds.1.1 (hSets.not_sends input)
      by_cases hId : requestId = otherId
      · subst hId
        refine .inr ⟨written, ?_, .inl hSets,
          fun other hOther => (hProjects other hOther).2⟩
        obtain ⟨record, hRecord⟩ := Option.isSome_iff_exists.mp hSets.known
        have hColumn : record.publicId = requestId := Table.column_of_lookup hRecord
        rw [projection?, hAfter, hRecord, Option.map_some, Option.map_some,
          if_pos (decide_eq_true hColumn)]
      · refine .inl ⟨?_, fun other hOther => hId (hProjects other hOther).1⟩
        rw [projection?, hAfter, projection?]
        cases hRecord : service.shared.request? requestId with
        | none => rfl
        | some record =>
            have hColumn : record.publicId = requestId := Table.column_of_lookup hRecord
            rw [Option.map_some, if_neg (by simpa [hColumn] using hId)]
  | keeps hAdds hSets hRequests =>
      refine .inl ⟨?_, ?_⟩
      · rw [projection?, M3Runtime.request?, hRequests]
        rfl
      · rintro other (hOther | ⟨-, input, -, hAdded⟩)
        · exact hSets requestId other hOther
        · exact hAdds input hAdded

theorem requests_keyed (officialOrigin : String) (turns : List Turn) :
    Table.Keyed RequestRecord.publicId
      (run Service.turn (Service.fresh officialOrigin) turns).shared.requests := by
  have hStart : Table.Keyed RequestRecord.publicId
      (Service.fresh officialOrigin).shared.requests := List.nodup_nil
  refine run_invariant (I := fun service : Service =>
    Table.Keyed RequestRecord.publicId service.shared.requests) hStart ?_ turns
  intro service turn hKeyed
  cases turn_requests service turn with
  | adds input hAdds hRequests =>
      rw [hRequests, Table.keyed_append_iff]
      refine ⟨hKeyed, fun record hRecord hSame => ?_⟩
      exact Table.lookup_eq_none_iff.mp hAdds.2 (List.mem_map.mpr ⟨record, hRecord, hSame⟩)
  | sets requestId projection hSets hRequests =>
      have hKeys : (service.shared.project requestId projection).requests.map
          RequestRecord.publicId = service.shared.requests.map RequestRecord.publicId :=
        Table.map_update fun _ => rfl
      rw [hRequests, Table.Keyed, hKeys]
      exact hKeyed
  | keeps hAdds hSets hRequests =>
      rw [hRequests]
      exact hKeyed

/-! ### What a run has recorded -/

/-- The record of a request after these turns: what was ingested first under its
identifier, with the projection that was set last. -/
structure Recorded (officialOrigin : String) (turns : List Turn) (requestId : String)
    (record : RequestRecord) : Prop where
  id : record.publicId = requestId
  first : OccursFirst Service.turn (Service.fresh officialOrigin) turns
    (Ingests record.input) (IngestsUnder requestId)
  last : OccursLast Service.turn (Service.fresh officialOrigin) turns
    (Projects requestId record.projection)
    fun service turn => ∃ other, Projects requestId other service turn

/-- The requests that are stored are those recorded by the turns. -/
theorem recorded_iff {officialOrigin : String} {turns : List Turn} {requestId : String}
    {record : RequestRecord} :
    (run Service.turn (Service.fresh officialOrigin) turns).shared.request? requestId =
        some record ↔
      Recorded officialOrigin turns requestId record := by
  have hFirst : ∀ input, (requestId, input) ∈
      ingested (run Service.turn (Service.fresh officialOrigin) turns) ↔
        OccursFirst Service.turn (Service.fresh officialOrigin) turns
          (WritesRequest (requestId, input)) (IngestsUnder requestId) := by
    intro input
    rw [← writesUnder_iff_ingestsUnder]
    exact firstWrites_iff rfl ingested_storesFirst (requestId, input) turns
  have hLast : ∀ projection, projection? requestId
      (run Service.turn (Service.fresh officialOrigin) turns) = some projection ↔
        OccursLast Service.turn (Service.fresh officialOrigin) turns
          (Projects requestId projection)
          fun service turn => ∃ other, Projects requestId other service turn :=
    fun projection => lastWrite_iff rfl (projection_storesLast requestId) projection turns
  constructor
  · intro hRecord
    have hId : record.publicId = requestId := Table.column_of_lookup hRecord
    have hStored : (requestId, record.input) ∈
        ingested (run Service.turn (Service.fresh officialOrigin) turns) :=
      List.mem_map.mpr ⟨record, Table.mem_of_lookup hRecord, Prod.ext hId rfl⟩
    refine ⟨hId, ?_, (hLast _).mp ?_⟩
    · obtain ⟨earlier, turn, later, hTurns, hWrites, hNew⟩ := (hFirst _).mp hStored
      exact ⟨earlier, turn, later, hTurns, hWrites.2, hNew⟩
    · rw [projection?, hRecord]
      rfl
  · rintro ⟨rfl, ⟨earlier, turn, later, hTurns, hIngests, hNew⟩, hSet⟩
    have hStored : (record.publicId, record.input) ∈
        ingested (run Service.turn (Service.fresh officialOrigin) turns) :=
      (hFirst _).mpr ⟨earlier, turn, later, hTurns, ⟨rfl, hIngests⟩, hNew⟩
    obtain ⟨found, hFound, hSame⟩ := List.mem_map.mp hStored
    obtain ⟨hId, hInput⟩ := Prod.mk.inj hSame
    have hLookup : (run Service.turn (Service.fresh officialOrigin) turns).shared.request?
        record.publicId = some found :=
      (Table.lookup_eq_some_iff (requests_keyed officialOrigin turns)).mpr ⟨hFound, hId⟩
    have hProjection := (hLast _).mpr hSet
    rw [projection?, hLookup, Option.map_some, Option.some.injEq] at hProjection
    rw [hLookup, Option.some.injEq]
    cases found
    cases record
    cases hInput
    cases hProjection
    rfl

/-! ### The answer to a reader -/

/-- What an account is shown of a request, or of its status. -/
def requestView (suffix : Option String) (record : RequestRecord) : Response :=
  match suffix with
  | none => json (.object
      [("envelope", .string (Base64Url.encodeText record.envelope)),
        ("projection", .string record.projection.text),
        ("expiresAt", .ofNumber record.expiresAt)]) 200 []
  | some _ => json (.object [("projection", .string record.projection.text),
      ("expiresAt", .ofNumber record.expiresAt)]) 200 []

section Reading

variable {runtime : M3Runtime} {request : Request} {surroundings : Surroundings}
  {session : Session} {requestId : String} {suffix : Option String}

omit [Cryptography] in
/-- A read of a request goes to its route. -/
theorem handle_read (hGet : request.method = "GET")
    (hPath : requestPath? request.pathname = some (requestId, suffix))
    (hSession : requireSession request surroundings.admittedAt runtime =
      (.ok session, runtime)) :
    handle request surroundings runtime =
      requestRoute session requestId suffix request surroundings.now runtime := by
  have hPost : ¬ request.method = "POST" := by
    rw [hGet]
    decide
  have hOther : ∀ {pathname}, requestPath? pathname = none →
      ¬ request.pathname = pathname := by
    rintro pathname hNone rfl
    rw [hPath] at hNone
    cases hNone
  unfold handle
  rw [if_neg fun h => hPost h.2, if_neg fun h => hPost h.2,
    if_neg fun h => hOther (by decide +kernel) h.1]
  refine (Segment.bind_of_ok hSession).trans ?_
  unfold sessionRoutes
  rw [if_neg fun h => hOther (by decide +kernel) h.1, decide_eq_false hPost, hPath]
  cases pairingPath? request.pathname with
  | none => rfl
  | some found => rfl

omit [Cryptography] in
theorem requestRoute_found {record : RequestRecord} {now : Double}
    (hGet : request.method = "GET") (hSuffix : suffix = none ∨ suffix = some "status")
    (hRecord : runtime.request? requestId = some record)
    (hTenant : record.tenantId = session.tenantId) :
    requestRoute session requestId suffix request now runtime =
      (.ok (.answered (.response (requestView suffix record))), runtime) := by
  have hScoped : scopedRequest session requestId runtime = (.ok record, runtime) := by
    refine Prod.ext (?_ : _ = Except.ok record) rfl
    refine bind_eq_ok_iff.mpr ⟨record, orFault_eq_ok_iff.mpr hRecord, ?_⟩
    exact bind_eq_ok_iff.mpr ⟨(), rejectIf_eq_ok_iff.mpr (not_not_intro hTenant), rfl⟩
  refine (Segment.bind_of_ok hScoped).trans ?_
  rcases hSuffix with rfl | rfl
  · rw [if_pos ⟨rfl, hGet⟩]
    rfl
  · have hStatus : ¬ (some "status" = none ∧ request.method = "GET") :=
      fun h => nomatch h.1
    rw [if_neg hStatus, if_pos ⟨rfl, hGet⟩]
    rfl

omit [Cryptography] in
theorem requestRoute_hidden {now : Double}
    (h : ¬ ∃ record, runtime.request? requestId = some record ∧
      record.tenantId = session.tenantId) :
    requestRoute session requestId suffix request now runtime =
      (.error "not_found_or_not_authorized", runtime) := by
  refine Segment.bind_of_error (Prod.ext (?_ : _ = Except.error _) rfl)
  change (do
    let record ← orFault "not_found_or_not_authorized" (runtime.request? requestId)
    rejectIf (record.tenantId ≠ session.tenantId) "not_found_or_not_authorized"
    return record : Except String RequestRecord) = _
  cases hRecord : runtime.request? requestId with
  | none => rfl
  | some record =>
      have hTenant : record.tenantId ≠ session.tenantId :=
        fun hSame => h ⟨record, hRecord, hSame⟩
      have hError : rejectIf (record.tenantId ≠ session.tenantId)
          "not_found_or_not_authorized" = .error "not_found_or_not_authorized" :=
        rejectIf_eq_error_iff.mpr ⟨hTenant, rfl⟩
      change (rejectIf (record.tenantId ≠ session.tenantId)
        "not_found_or_not_authorized" >>= fun _ => Except.ok record) = _
      rw [hError]
      rfl

end Reading

/-- What a session reads of a request is what the turns have recorded for its tenant: the
envelope that was ingested first and the projection that was set last.  Everything else
is answered as if there were no such request, and a read changes nothing. -/
theorem request_read_iff (officialOrigin : String) (turns : List Turn) {request : Request}
    {surroundings : Surroundings} {session : Session} {requestId : String}
    {suffix : Option String} (hGet : request.method = "GET")
    (hPath : requestPath? request.pathname = some (requestId, suffix))
    (hSuffix : suffix = none ∨ suffix = some "status")
    (hSession : requireSession request surroundings.admittedAt
      (run Service.turn (Service.fresh officialOrigin) turns).shared =
        (.ok session, (run Service.turn (Service.fresh officialOrigin) turns).shared))
    (response : Response) :
    let runtime := (run Service.turn (Service.fresh officialOrigin) turns).shared
    enter (.handle request, surroundings) runtime =
        (.answered (.response response), runtime) ↔
      (∃ record, Recorded officialOrigin turns requestId record ∧
        record.tenantId = session.tenantId ∧ response = requestView suffix record) ∨
      ((¬ ∃ record, Recorded officialOrigin turns requestId record ∧
        record.tenantId = session.tenantId) ∧
        response = mapError "not_found_or_not_authorized") := by
  intro runtime
  have hRead : enter (.handle request, surroundings) runtime =
      caught (requestRoute session requestId suffix request surroundings.now runtime) :=
    congrArg caught (handle_read hGet hPath hSession)
  rw [hRead]
  by_cases hShown : ∃ record, Recorded officialOrigin turns requestId record ∧
      record.tenantId = session.tenantId
  · obtain ⟨record, hRecorded, hTenant⟩ := hShown
    rw [requestRoute_found hGet hSuffix (recorded_iff.mpr hRecorded) hTenant]
    constructor
    · intro hAnswer
      cases hAnswer
      exact .inl ⟨record, hRecorded, hTenant, rfl⟩
    · rintro (⟨other, hOther, -, rfl⟩ | ⟨hNone, -⟩)
      · have hSame := (recorded_iff.mpr hRecorded).symm.trans (recorded_iff.mpr hOther)
        rw [Option.some.inj hSame]
        rfl
      · exact absurd ⟨record, hRecorded, hTenant⟩ hNone
  · have hHidden : ¬ ∃ record, runtime.request? requestId = some record ∧
        record.tenantId = session.tenantId := by
      rintro ⟨record, hRecord, hTenant⟩
      exact hShown ⟨record, recorded_iff.mp hRecord, hTenant⟩
    rw [requestRoute_hidden hHidden]
    constructor
    · intro hAnswer
      cases hAnswer
      exact .inr ⟨hShown, rfl⟩
    · rintro (⟨record, hRecorded, hTenant, -⟩ | ⟨-, rfl⟩)
      · exact absurd ⟨record, hRecorded, hTenant⟩ hShown
      · rfl

end Runs

/-- The request of the two decisions, after the one that came first. -/
def sampleRecord : RequestRecord where
  publicId := "AgICAgICAgICAgICAgICAg"
  tenantId := "tenant"
  devicePublicId := "AQEBAQEBAQEBAQEBAQEBAQ"
  envelope := [0xd2]
  expiresAt := .finite 100
  projection := .denied

/-- A read of the request in the session of its account. -/
def sampleRead : Request where
  method := "GET"
  pathname := "/v1/requests/AgICAgICAgICAgICAgICAg"
  origin := none
  csrf := none
  cookie := some ("rp_session=" ++ randomToken sampleSurroundings.firstToken)

theorem request_read_sample :
    let _ : Cryptography := keyedHashCryptography
    let runtime := (run Service.turn (Service.fresh "https://rootpermit.example")
      concurrentDecisions).shared
    enter (.handle sampleRead, sampleSurroundings) runtime =
      (.answered (.response (requestView none sampleRecord)), runtime) := by
  intro cryptography runtime
  have hStored : (run (@Service.turn keyedHashCryptography)
      (Service.fresh "https://rootpermit.example")
      concurrentDecisions).shared.request? "AgICAgICAgICAgICAgICAg" =
        some sampleRecord ∧
      (requireSession sampleRead sampleSurroundings.admittedAt
        (run (@Service.turn keyedHashCryptography)
          (Service.fresh "https://rootpermit.example") concurrentDecisions).shared).1 =
        .ok (.opened { tenantId := "tenant", accountId := "account" }
          sampleSurroundings) := by
    decide +kernel
  obtain ⟨hRecord, hSession⟩ := hStored
  exact (request_read_iff "https://rootpermit.example" concurrentDecisions rfl
    (by decide +kernel) (.inl rfl) (Prod.ext hSession rfl) _).mpr
    (.inl ⟨sampleRecord, recorded_iff.mp hRecord, rfl, rfl⟩)

end M3
end Hosted
end RootPermit
