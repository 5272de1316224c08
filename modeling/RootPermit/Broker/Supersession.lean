import RootPermit.Broker.Acceptance
import RootPermit.Broker.Generation

/-!
# Superseded credential generations

Replacing the credentials should advance the active generation, so that what was
superseded stays superseded.  The store takes any generation that it is given
(`superseded_generation_reinstated`).  The generation advances exactly when the calls
advance it: every acceptable replacement names one above the active one
(`generationsAdvance_iff`).
-/

namespace RootPermit
namespace Broker

open Foundation Protocol WebAuthn

/-- The active generation of a store. -/
def BrokerStore.generation (store : BrokerStore) : Int64 :=
  store.database.brokerMetadata.credentialGeneration

/-- A replacement of the credentials raises the active generation, and no other call
changes it. -/
def AdvancesOnly [Cryptography] (store : BrokerStore) (call : Call) : Prop :=
  match call with
  | .replaceCredentials _ _ =>
      (∃ next, store.call call = .ok next) →
        store.generation < (store.step call).generation
  | _ => (store.step call).generation = store.generation

/-- No submission about a request of this generation is accepted. -/
def NeverAccepts [Cryptography] (generation : Int64) (store : BrokerStore) : Prop :=
  ∀ attempt signer entropy row outcome after,
    store.database.request? attempt.requestId = some row →
    row.generation = generation →
    applyWebauthnSubmission store.deviceIdBytes (Snapshots.at store.database.toTables)
      attempt signer entropy store.database = .ok (outcome, after) →
    outcome.state ≠ .approved ∧ outcome.state ≠ .denied

/-- The active generation after these calls. -/
def generationAfter [Cryptography] (calls : List Call) : Int64 :=
  (run BrokerStore.step BrokerStore.empty calls).generation

/-- The generation only advances during the calls, and one that was superseded is
neither active nor honoured again. -/
structure GenerationsAdvance [Cryptography] (calls : List Call) : Prop where
  advances : Throughout BrokerStore.step BrokerStore.empty calls AdvancesOnly
  retired : ∀ first second third, first <+: second → second <+: third →
    third <+: calls → generationAfter first ≠ generationAfter second →
    generationAfter third ≠ generationAfter first ∧
      NeverAccepts (generationAfter first)
        (run BrokerStore.step BrokerStore.empty third)

/-- An acceptable replacement names a generation above the active one. -/
def NamesHigher (store : BrokerStore) (call : Call) : Prop :=
  ∀ generation pins, call = .replaceCredentials generation pins →
    AcceptableReplacement generation pins →
    store.generation.toInt < generation.toNat

section Advance

variable [Cryptography] {store : BrokerStore} {call : Call} {calls : List Call}

/-- The call of an acceptable replacement succeeds, and of no other. -/
theorem call_replaceCredentials_iff {generation : UInt64} {pins : List CredentialPin} :
    (∃ next, store.call (.replaceCredentials generation pins) = .ok next) ↔
      AcceptableReplacement generation pins := by
  have hOk : (∃ after, replaceCredentials generation pins store.database =
      .ok ((), after)) ↔ AcceptableReplacement generation pins :=
    replaceCredentials_ok_iff
  rw [← hOk]
  simp only [BrokerStore.call, Call.transaction, map_eq_ok_iff, Prod.exists,
    run_bind_eq_ok_iff, run_pure_eq_ok_iff]
  constructor
  · rintro ⟨_, _, _, ⟨_, after, hReplaced, -⟩, -⟩
    exact ⟨after, hReplaced⟩
  · rintro ⟨after, hReplaced⟩
    exact ⟨_, _, _, ⟨(), after, hReplaced, rfl, rfl⟩, rfl⟩

theorem generation_step_of_other
    (hOther : ∀ generation pins, call ≠ .replaceCredentials generation pins) :
    (store.step call).generation = store.generation := by
  rcases store.step_cases call with hSame | hDone
  · rw [hSame]
  · rcases (Call.shared hDone).generation with hKept | ⟨generation, pins, hCall, -⟩
    · exact hKept
    · exact absurd hCall (hOther generation pins)

/-- A call advances the generation exactly when it names a higher one. -/
theorem advancesOnly_iff : AdvancesOnly store call ↔ NamesHigher store call := by
  cases call with
  | replaceCredentials generation pins =>
      show ((∃ next, store.call (.replaceCredentials generation pins) = .ok next) →
        store.generation < _) ↔ _
      rw [call_replaceCredentials_iff]
      constructor
      · intro h generation' pins' hCall hAcceptable
        cases hCall
        have hNow := Int64.lt_iff_toInt_lt.mp (h hAcceptable)
        rw [← replaceCredentials_step store hAcceptable]
        exact hNow
      · intro h hAcceptable
        rw [Int64.lt_iff_toInt_lt]
        have hNow := replaceCredentials_step store hAcceptable
        have hHigher := h generation pins rfl hAcceptable
        rw [← hNow] at hHigher
        exact hHigher
  | _ =>
      constructor
      · intro _ generation pins hCall
        cases hCall
      · intro _
        exact generation_step_of_other fun _ _ hCall => by cases hCall

theorem AdvancesOnly.le (h : AdvancesOnly store call) :
    store.generation ≤ (store.step call).generation := by
  by_cases hOther : ∀ generation pins, call ≠ .replaceCredentials generation pins
  · rw [generation_step_of_other hOther]
    exact Int64.le_refl _
  · simp only [ne_eq, not_forall, not_not] at hOther
    obtain ⟨generation, pins, rfl⟩ := hOther
    by_cases hOk : ∃ next, store.call (.replaceCredentials generation pins) = .ok next
    · exact Int64.le_of_lt (h hOk)
    · -- A replacement that fails changes nothing.
      rcases store.step_cases (.replaceCredentials generation pins) with hSame | hDone
      · rw [hSame]
        exact Int64.le_refl _
      · refine absurd ⟨store.step (.replaceCredentials generation pins), ?_⟩ hOk
        rw [BrokerStore.call, hDone]
        rfl

/-- Over calls that advance it the generation never falls. -/
theorem generation_le_run
    (hCalls : Throughout BrokerStore.step store calls AdvancesOnly) :
    store.generation ≤ (run BrokerStore.step store calls).generation := by
  apply run_invariant_of_throughout
    (I := fun later => store.generation ≤ later.generation) _ _ hCalls
  · exact Int64.le_refl _
  · intro later call hBefore hAdvances
    exact Int64.le_trans hBefore hAdvances.le

theorem generationAfter_mono
    (hCalls : Throughout BrokerStore.step BrokerStore.empty calls AdvancesOnly)
    {first second : List Call} (hFirst : first <+: second) (hSecond : second <+: calls) :
    generationAfter first ≤ generationAfter second := by
  obtain ⟨between, rfl⟩ := hFirst
  have hBetween := (hCalls.of_prefix hSecond).rest
  rw [generationAfter, generationAfter, run_append]
  exact generation_le_run hBetween

/-- A request of another generation than the active one is neither approved nor
denied. -/
theorem neverAccepts_of_ne {generation : Int64} (h : store.generation ≠ generation) :
    NeverAccepts generation store := by
  intro attempt signer entropy row outcome after hRow hGeneration hApply
  obtain ⟨seen, hSeen, hOutcome⟩ := applyWebauthnSubmission_outcome hApply
  rw [hRow, Option.some.injEq] at hSeen
  subst hSeen
  rcases hOutcome with ⟨-, hState⟩ | ⟨-, hState⟩ | ⟨assertion, hGuards, -⟩
  · rw [hState]
    decide
  · rw [hState]
    decide
  · exact absurd (hGuards.generation.trans hGeneration) h

/-- In a run the generation only advances, and a superseded one stays out of use,
exactly when every acceptable replacement names a generation above the active one. -/
theorem generationsAdvance_iff (calls : List Call) :
    GenerationsAdvance calls ↔
      Throughout BrokerStore.step BrokerStore.empty calls NamesHigher := by
  constructor
  · intro h earlier call later hCalls
    exact advancesOnly_iff.mp (h.advances earlier call later hCalls)
  · intro h
    have hAdvances : Throughout BrokerStore.step BrokerStore.empty calls
        AdvancesOnly := by
      intro earlier call later hCalls
      exact advancesOnly_iff.mpr (h earlier call later hCalls)
    refine ⟨hAdvances, ?_⟩
    intro first second third hFirst hSecond hThird hChanged
    have hBelow := generationAfter_mono hAdvances hFirst (hSecond.trans hThird)
    have hAbove := generationAfter_mono hAdvances hSecond hThird
    have hRetired : generationAfter third ≠ generationAfter first := by
      intro hSame
      rw [hSame] at hAbove
      exact hChanged (Int64.le_antisymm hBelow hAbove)
    exact ⟨hRetired, neverAccepts_of_ne hRetired⟩

end Advance

/-- The sample request is pending when its generation is superseded. -/
def replacedRun [Cryptography] : List Call :=
  approvedRun.dropLast ++ [.replaceCredentials 1 [samplePin]]

/-- Its generation is set again. -/
def reinstatedRun [Cryptography] : List Call :=
  replacedRun ++ [.replaceCredentials 0 [samplePin]]

/-- A superseded generation becomes active again, and a request that was bound to it
is approved. -/
theorem superseded_generation_reinstated :
    requestState sampleRequest.requestId
        (run (@BrokerStore.step keyedHashCryptography) BrokerStore.empty
          (@reinstatedRun keyedHashCryptography ++
            [.applyWebauthnSubmission (@sampleAttempt keyedHashCryptography)
              sampleSigner none])).database.toTables = some .approved ∧
      ¬ @GenerationsAdvance keyedHashCryptography
        (@reinstatedRun keyedHashCryptography) := by
  have hFacts : requestState sampleRequest.requestId
        (run (@BrokerStore.step keyedHashCryptography) BrokerStore.empty
          (@reinstatedRun keyedHashCryptography ++
            [.applyWebauthnSubmission (@sampleAttempt keyedHashCryptography)
              sampleSigner none])).database.toTables = some .approved ∧
      @generationAfter keyedHashCryptography
          (@approvedRun keyedHashCryptography).dropLast = 0 ∧
      @generationAfter keyedHashCryptography
        (@replacedRun keyedHashCryptography) = 1 ∧
      @generationAfter keyedHashCryptography
        (@reinstatedRun keyedHashCryptography) = 0 := by
    decide +kernel
  obtain ⟨hApproved, hBefore, hSuperseded, hAgain⟩ := hFacts
  refine ⟨hApproved, ?_⟩
  intro h
  have hRetired := @GenerationsAdvance.retired keyedHashCryptography _ h _
    (@replacedRun keyedHashCryptography) (@reinstatedRun keyedHashCryptography)
    (List.prefix_append _ _) (List.prefix_append _ _) List.prefix_rfl
  rw [hBefore, hSuperseded, hAgain] at hRetired
  exact (hRetired (by decide)).1 rfl

end Broker
end RootPermit
