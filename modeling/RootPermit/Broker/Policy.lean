import Mathlib.Data.Finset.Dedup
import RootPermit.Broker.Agreement
import RootPermit.Broker.Race

/-!
# The policy in front of the store

A request becomes durable only under a policy that allows its package, and nothing that
happens to it afterwards changes the package or who asked for it.  So with an allowlist
in front of a database, every request of the database is one of a listed package, and so
is every request that was signed for approval (`allowlist_confines`).
-/

namespace RootPermit
namespace Broker

open Foundation Protocol

/-! ### The allowlist -/

/-- Explicit package allowlist policy. -/
structure PackageAllowlist where
  packages : Finset PackageName

namespace PackageAllowlist

/-- Builds an allowlist from already-validated package names. -/
def new (packages : List PackageName) : PackageAllowlist where
  packages := packages.toFinset

def evaluate (allowlist : PackageAllowlist) : PackageInstallPolicy :=
  fun _ packageName =>
    if packageName ∈ allowlist.packages then .allow else .deny

theorem evaluate_new {packages : List PackageName} {uid : RequesterUid}
    {packageName : PackageName} :
    (new packages).evaluate uid packageName ≠ .deny ↔ packageName ∈ packages := by
  by_cases hListed : packageName ∈ packages
  · simp [evaluate, new, hListed]
  · simp [evaluate, new, hListed]

end PackageAllowlist

/-! ### Admission -/

/-- The columns of a row that a submission fills in. -/
structure Submitted (request : SubmitPackageInstall) (row : RequestRow) : Prop where
  packageName : row.packageName = request.packageName.asStr
  requesterUid : row.requesterUid = request.requesterUid.asDb

/-- The act submits the request of a row, and its policy does not refuse it. -/
def Admits (row : RequestRow) : Act → Prop
  | .call _ (.submit request policy) =>
      policy request.requesterUid request.packageName ≠ .deny ∧ Submitted request row
  | _ => False

/-- The request that was signed for a row is one for its package and its requester. -/
def SignsSubmission (row : RequestRow) : Prop :=
  ∀ bytes, row.requestCose = some bytes → ∃ request, CarriesRequest bytes request ∧
    request.operationInput.packageName = row.packageName ∧
    toU64? row.requesterUid.toInt = some request.requesterUid

theorem Submitted.same {request : SubmitPackageInstall} {old new : RequestRow}
    (h : Submitted request old) (hSame : SameSubmission old new) : Submitted request new :=
  ⟨hSame.packageName.trans h.packageName, hSame.requesterUid.trans h.requesterUid⟩

theorem Admits.same {act : Act} {old new : RequestRow} (h : Admits old act)
    (hSame : SameSubmission old new) : Admits new act := by
  unfold Admits at h ⊢
  split at h
  · exact ⟨h.1, h.2.same hSame⟩
  · exact h

section Runs

variable [Cryptography] {before after : Database} {requestId : PublicId}

/-- A submission that succeeds is not refused by its policy. -/
theorem submit_allowed {deviceId : String} {request : SubmitPackageInstall}
    {policy : PackageInstallPolicy} {outcome : SubmitOutcome}
    (h : submit deviceId request policy before = .ok (outcome, after)) :
    policy request.requesterUid request.packageName ≠ .deny := by
  rw [submit, run_bind_eq_ok_iff] at h
  obtain ⟨_, _, hAttempt, -⟩ := h
  rw [attempt_eq_ok_iff, rejectIf_eq_ok_iff] at hAttempt
  exact hAttempt.1

/-- A call that moves a request keeps what was signed for it, unless it prepares it. -/
theorem Call.binds_or_prepares {call : Call} {deviceIdBytes result : ByteArr 16}
    {snapshots : Snapshots} {source target : RequestState} {reason : TransitionReason}
    (h : call.transaction deviceIdBytes snapshots before = .ok (result, after))
    (hDrives : Drives deviceIdBytes snapshots before.toTables requestId call source
      target reason) :
    BindingKept before.brokerMetadata (before.dossier requestId)
        (after.dossier requestId) ∨
      ∃ plan context signer bytes,
        Broker.prepareForDecision deviceIdBytes requestId plan context signer before =
          .ok (bytes, after) := by
  cases hDrives with
  | prepared plan context signer =>
      obtain ⟨bytes, h⟩ := ran_of_transaction h
      exact Or.inr ⟨plan, context, signer, bytes, h⟩
  | nonterminal =>
      obtain ⟨_, h⟩ := ran_of_transaction h
      exact Or.inl (transitionNonterminal_bindingKept h)
  | terminal =>
      obtain ⟨_, h⟩ := ran_of_transaction h
      exact Or.inl (transitionTerminal_bindingKept h)
  | reconciled =>
      obtain ⟨_, h⟩ := ran_of_transaction h
      exact Or.inl (reconcileRecovery_bindingKept h)
  | booted =>
      obtain ⟨_, h⟩ := ran_of_transaction h
      exact Or.inl (startBoot_bindingKept h)
  | lapsed =>
      obtain ⟨_, h⟩ := ran_of_transaction h
      exact Or.inl (applyWebauthnSubmission_bindingKept h)
  | decided =>
      obtain ⟨_, h⟩ := ran_of_transaction h
      exact Or.inl (applyWebauthnSubmission_bindingKept h)

/-- A preparation signs a request for the package of the row. -/
theorem signsSubmission_of_prepare {deviceIdBytes : ByteArr 16} {plan : FrozenPlan}
    {context : PendingRequestContext} {signer : BrokerSigningKey} {bytes : Bytes}
    {row : RequestRow}
    (h : prepareForDecision deviceIdBytes requestId plan context signer before =
      .ok (bytes, after)) (hRow : after.request? requestId = some row) :
    SignsSubmission row := by
  obtain ⟨old, identity, request, digest, payload, frozen, deadline, -, -, hRequest, -,
    hPayload, hCose, hNew⟩ := prepareForDecision_eq_ok h
  obtain ⟨-, -, -, -, -, -, hUid, hPackage, -⟩ := frozenRequest_eq_ok hRequest
  rw [hRow, Option.some.injEq] at hNew
  subst hNew
  intro found hFound
  cases hFound
  exact ⟨request.normal, carriesRequest_of_sign hPayload hCose, hPackage, hUid⟩

/-- What a call makes of a row: it submits it, or the row was there before, with the
package and the requester that it has. -/
theorem row_of_transaction {call : Call} {deviceIdBytes result : ByteArr 16}
    {snapshots : Snapshots} {row : RequestRow} (index : Nat)
    (h : call.transaction deviceIdBytes snapshots before = .ok (result, after))
    (hRow : after.request? requestId = some row) :
    (Admits row (.call index call) ∧ SignsSubmission row) ∨
      ∃ old, before.request? requestId = some old ∧ SameSubmission old row ∧
        (SignsSubmission old → SignsSubmission row) := by
  cases Call.effect h requestId with
  | kept hKept _ =>
      have hBefore : before.request? requestId = some row :=
        (congrArg Dossier.row hKept).symm.trans hRow
      exact Or.inr ⟨row, hBefore, SameSubmission.refl row, id⟩
  | created request policy generation hCall hRequest _ hCreated =>
      subst hCall
      have hNew : row = newRequest _ request generation :=
        Option.some.inj (hRow.symm.trans (congrArg Dossier.row hCreated))
      obtain ⟨_, hSubmit⟩ := ran_of_transaction h
      subst hNew
      exact Or.inl ⟨⟨submit_allowed hSubmit, ⟨rfl, rfl⟩⟩, fun _ hNone => by cases hNone⟩
  | moved old new reason hMoved hDrives =>
      have hNew : row = new := Option.some.inj (hRow.symm.trans hMoved.rowAfter)
      subst hNew
      refine Or.inr ⟨old, hMoved.rowBefore, hMoved.submission, fun hSigned => ?_⟩
      rcases Call.binds_or_prepares h hDrives with hKept | ⟨_, _, _, _, hPrepare⟩
      · intro bytes hBytes
        rw [(hMoved.sameBinding hKept).requestCose] at hBytes
        obtain ⟨request, hCarries, hPackage, hUid⟩ := hSigned bytes hBytes
        refine ⟨request, hCarries, hPackage.trans hMoved.submission.packageName.symm, ?_⟩
        rw [hMoved.submission.requesterUid]
        exact hUid
      · exact signsSubmission_of_prepare hPrepare hRow

/-- Every request of a database was submitted under a policy that allowed it, and what
was signed for it is for its package and its requester. -/
theorem requests_admitted (acts : List Act) (requestId : PublicId) (row : RequestRow)
    (hRow : (run SharedStore.step SharedStore.empty acts).database.request? requestId =
      some row) :
    (∃ act ∈ acts, Admits row act) ∧ SignsSubmission row := by
  induction acts using List.reverseRecOn generalizing row with
  | nil => cases hRow
  | append_singleton acts act ih =>
      rw [run_concat] at hRow
      have hKept : ∀ old, (run SharedStore.step SharedStore.empty acts).database.request?
            requestId = some old → SameSubmission old row →
          (SignsSubmission old → SignsSubmission row) →
          (∃ found ∈ acts ++ [act], Admits row found) ∧ SignsSubmission row := by
        intro old hOld hSame hSigns
        obtain ⟨⟨found, hFound, hAdmits⟩, hSigned⟩ := ih old hOld
        exact ⟨⟨found, List.mem_append_left _ hFound, hAdmits.same hSame⟩, hSigns hSigned⟩
      rcases SharedStore.step_database (run SharedStore.step SharedStore.empty acts) act
        with hSame | ⟨index, handle, call, result, rfl, -, hDone⟩
      · rw [hSame] at hRow
        exact hKept row hRow (SameSubmission.refl row) id
      · rcases row_of_transaction index hDone hRow with
          ⟨hAdmits, hSigned⟩ | ⟨old, hOld, hSame, hSigns⟩
        · exact ⟨⟨_, List.mem_append_right _ List.mem_cons_self, hAdmits⟩, hSigned⟩
        · exact hKept old hOld hSame hSigns

/-- With an allowlist in front of a database, whatever its handles do, every request in
it is one of a listed package, and a request that was signed for approval names that
package. -/
theorem allowlist_confines (packages : List PackageName) (acts : List Act)
    (hPolicy : ∀ index request policy, Act.call index (.submit request policy) ∈ acts →
      policy = (PackageAllowlist.new packages).evaluate)
    (requestId : PublicId) (row : RequestRow)
    (hRow : (run SharedStore.step SharedStore.empty acts).database.request? requestId =
      some row) :
    ∃ packageName ∈ packages, row.packageName = packageName.asStr ∧
      ∀ bytes, row.requestCose = some bytes → ∃ request, CarriesRequest bytes request ∧
        request.operationInput.packageName = packageName.asStr := by
  obtain ⟨⟨act, hAct, hAdmits⟩, hSigned⟩ := requests_admitted acts requestId row hRow
  unfold Admits at hAdmits
  split at hAdmits
  · rename_i index request policy
    obtain ⟨hAllowed, hSubmitted⟩ := hAdmits
    rw [hPolicy index request policy hAct, PackageAllowlist.evaluate_new] at hAllowed
    refine ⟨request.packageName, hAllowed, hSubmitted.packageName, fun bytes hBytes => ?_⟩
    obtain ⟨signed, hCarries, hPackage, -⟩ := hSigned bytes hBytes
    exact ⟨signed, hCarries, hPackage.trans hSubmitted.packageName⟩
  · exact absurd hAdmits not_false

end Runs

/-- A request under an allowlist of one package. -/
def allowlistedActs : List Act :=
  [.openHandle, .call 0 (.initializeIdentity sampleSigner (some (ByteArr.fill 16 9))),
    .call 0 (.submit sampleRequest
      (PackageAllowlist.new [sampleRequest.packageName]).evaluate)]

theorem allowlist_confines_sample :
    let _ : Cryptography := keyedHashCryptography
    ∃ row, (run SharedStore.step SharedStore.empty
        allowlistedActs).database.request? sampleRequest.requestId = some row ∧
      row.packageName = sampleRequest.packageName.asStr := by
  intro _
  have hStored : ((run SharedStore.step SharedStore.empty
      allowlistedActs).database.request? sampleRequest.requestId).isSome = true := by
    decide +kernel
  obtain ⟨row, hRow⟩ := Option.isSome_iff_exists.mp hStored
  have hPolicy : ∀ index request policy,
      Act.call index (.submit request policy) ∈ allowlistedActs →
      policy = (PackageAllowlist.new [sampleRequest.packageName]).evaluate := by
    intro index request policy hMem
    simp only [allowlistedActs, List.mem_cons, reduceCtorEq, Act.call.injEq,
      Call.submit.injEq, false_or, and_false, List.not_mem_nil, or_false] at hMem
    exact hMem.2.2
  obtain ⟨packageName, hMem, hPackage, -⟩ := allowlist_confines
    [sampleRequest.packageName] allowlistedActs hPolicy sampleRequest.requestId row hRow
  rw [List.mem_singleton.mp hMem] at hPackage
  exact ⟨row, hRow, hPackage⟩

end Broker
end RootPermit
