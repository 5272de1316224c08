import RootPermit.Foundation.Confinement
import RootPermit.Hosted.Turns

/-!
# Requests from elsewhere

A request that does not show the official origin, or not the token of the session of its
cookie, has no effect in any of its turns, in whatever order they and the turns of other
routes come.  The routes of the relay have an authentication of their own: only a message
for the inbox is stored, after the relay was authenticated.
-/

namespace RootPermit
namespace Hosted
namespace M3

open Foundation

/-- The request comes from a page of the official origin, and unless it asks for a new
session, it carries the token of the session that its cookie names. -/
def Authentic (request : Request) (admittedAt : Double) (runtime : M3Runtime) : Prop :=
  request.origin = some runtime.officialOrigin ∧
    ((request.pathname = "/v1/account/session" ∧ request.method = "POST") ∨
      ∃ token ∈ cookieValue request.cookie "rp_session",
        ∃ session ∈ Table.lookup Session.token token runtime.sessions,
          session.expiresAt.le admittedAt = false ∧
            request.csrf.map utf8 = some (utf8 session.csrfToken))

instance (request : Request) (admittedAt : Double) (runtime : M3Runtime) :
    Decidable (Authentic request admittedAt runtime) :=
  inferInstanceAs (Decidable (_ ∧ _))

/-- The request is for the inbox of the relay. -/
def ForInbox (request : Request) : Prop :=
  request.pathname = "/v1/relay/inbox" ∧ request.method = "POST"

/-- Everything but the inbox is as before. -/
def OnlyInbox (before after : M3Runtime) : Prop :=
  after = { before with relayInbox := after.relayInbox }

instance : IsPreorder M3Runtime OnlyInbox where
  refl _ := rfl
  trans first second third hFirst hSecond := by
    rw [OnlyInbox, hSecond, hFirst]

/-- The service after the request came in and the turns after that. -/
def Service.receive [Cryptography] (service : Service) (request : Request)
    (surroundings : Surroundings) (turns : List Turn) : Service :=
  run Service.turn (service.turn (.enter (.handle request, surroundings))) turns

/-! ### The points of the relay -/

inductive RelayPoint : Point → Prop where
  | inboxAuthentication : RelayPoint .relayInboxAuthentication
  | inboxBody : RelayPoint .relayInboxBody
  | outboxAuthentication : RelayPoint .relayOutboxAuthentication

/-- The points at which the relay is not authenticated yet. -/
inductive Unauthenticated : Point → Prop where
  | inbox : Unauthenticated .relayInboxAuthentication
  | outbox : Unauthenticated .relayOutboxAuthentication

inductive OutboxPoint : Point → Prop where
  | authentication : OutboxPoint .relayOutboxAuthentication

/-- Either an answer, or the first point of a route of the relay. -/
inductive Entered (request : Request) : Progress → Prop where
  | answered (answer : Answer) : Entered request (.answered answer)
  | inbox (hInbox : ForInbox request) :
      Entered request (.suspended .relayInboxAuthentication)
  | outbox : Entered request (.suspended .relayOutboxAuthentication)

/-! ### The first segment -/

section Entering

variable {runtime : M3Runtime} {request : Request} {surroundings : Surroundings}

/-- The segment has left the runtime alone and is not in a route of a session. -/
def Idle (request : Request) (runtime : M3Runtime) (handler : Handler Progress) : Prop :=
  (caught (handler runtime)).2 = runtime ∧ Entered request (caught (handler runtime)).1

theorem idle_respond (response : Response) :
    Idle request runtime (respond response) :=
  ⟨rfl, .answered _⟩

theorem idle_throw (message : String) :
    Idle request runtime (throw message) :=
  ⟨rfl, .answered _⟩

theorem idle_check_bind {α : Type} {read : M3Runtime → Except String α}
    {rest : α → Handler Progress}
    (h : ∀ value, read runtime = .ok value → Idle request runtime (rest value)) :
    Idle request runtime (.check read >>= rest) := by
  cases hRead : read runtime with
  | error message =>
      rw [Idle, Segment.check_bind_of_error hRead]
      exact ⟨rfl, .answered _⟩
  | ok value =>
      rw [Idle, Segment.check_bind_of_ok hRead]
      exact h value hRead

theorem idle_ite {condition : Prop} [Decidable condition]
    {first second : Handler Progress}
    (hFirst : condition → Idle request runtime first)
    (hSecond : ¬ condition → Idle request runtime second) :
    Idle request runtime (if condition then first else second) := by
  split
  · next hCondition => exact hFirst hCondition
  · next hCondition => exact hSecond hCondition

/-- What comes after the check of the token is not reached. -/
theorem idle_requireCsrf {session : Session} {rest : Unit → Handler Progress}
    (h : ¬ (request.origin = some runtime.officialOrigin ∧
      request.csrf.map utf8 = some (utf8 session.csrfToken))) :
    Idle request runtime (requireCsrf request session >>= rest) := by
  have hError : requireCsrf request session runtime = (.error "csrf_failed", runtime) := by
    by_cases hOrigin : request.origin = some runtime.officialOrigin
    · refine (Segment.check_bind_of_ok (?_ : _ = Except.ok ())).trans ?_
      · exact rejectIf_eq_ok_iff.mpr (not_not_intro hOrigin)
      · exact Prod.ext (rejectIf_eq_error_iff.mpr
          ⟨fun hToken => h ⟨hOrigin, hToken⟩, rfl⟩) rfl
    · exact Segment.check_bind_of_error (rejectIf_eq_error_iff.mpr ⟨hOrigin, rfl⟩)
  rw [Idle, Segment.bind_of_error hError]
  exact ⟨rfl, .answered _⟩

theorem idle_sessionRoutes {session : Session} {now : Double}
    (h : ¬ (request.origin = some runtime.officialOrigin ∧
      request.csrf.map utf8 = some (utf8 session.csrfToken))) :
    Idle request runtime (sessionRoutes session request now) := by
  unfold sessionRoutes
  apply idle_ite
  · intro _
    exact idle_check_bind fun devices _ => idle_respond _
  intro _
  split
  · exact idle_requireCsrf h
  split
  · next requestId suffix hPath =>
      -- Of the routes of a request, only a decision needs the token.
      apply idle_check_bind
      intro record _
      apply idle_ite
      · intro _
        exact idle_respond _
      intro _
      apply idle_ite
      · intro _
        exact idle_respond _
      intro _
      apply idle_ite
      · intro _
        exact idle_requireCsrf h
      · intro _
        exact idle_throw _
  split
  · exact idle_requireCsrf h
  · exact idle_respond _

/-- A request from elsewhere is answered at once, or it waits for the relay to be
authenticated. -/
theorem idle_handle (hForeign : ¬ Authentic request surroundings.admittedAt runtime) :
    Idle request runtime (handle request surroundings) := by
  unfold handle
  apply idle_ite
  · intro hSession
    apply idle_check_bind
    intro _ hOrigin
    rw [rejectIf_eq_ok_iff, not_not] at hOrigin
    exact absurd ⟨hOrigin, .inl hSession⟩ hForeign
  intro _
  apply idle_ite
  · intro hInbox
    exact ⟨rfl, .inbox hInbox⟩
  intro _
  apply idle_ite
  · intro _
    exact ⟨rfl, .outbox⟩
  intro _
  apply idle_check_bind
  intro session hSession
  apply idle_sessionRoutes
  rintro ⟨hOrigin, hToken⟩
  -- The session that was admitted is the one of the cookie.
  obtain ⟨token, hCookie, hRest⟩ := bind_eq_ok_iff.mp hSession
  obtain ⟨found, hFound, hRest⟩ := bind_eq_ok_iff.mp hRest
  obtain ⟨_, hLive, hSame⟩ := bind_eq_ok_iff.mp hRest
  rw [orFault_eq_ok_iff] at hCookie hFound
  rw [rejectIf_eq_ok_iff, Bool.not_eq_true] at hLive
  cases hSame
  exact hForeign ⟨hOrigin, .inr ⟨token, hCookie, session, hFound, hLive, hToken⟩⟩

end Entering

/-! ### The later segments -/

section Turns

/-- From this point the segment respects the relation, and it suspends its route in the
set again. -/
def Confines (R : M3Runtime → M3Runtime → Prop) (Inside : Point → Prop)
    (handler : Handler Progress) (runtime : M3Runtime) : Prop :=
  Segment.Guarantees R handler runtime fun progress _ =>
    ∀ point, progress = .suspended point → Inside point

variable {R : M3Runtime → M3Runtime → Prop} {Inside : Point → Prop}
  {runtime : M3Runtime}

theorem confines_respond [IsPreorder M3Runtime R] (response : Response) :
    Confines R Inside (respond response) runtime := by
  apply Segment.Guarantees.pure
  intro point hPoint
  cases hPoint

theorem confines_await [IsPreorder M3Runtime R] {point : Point} (h : Inside point) :
    Confines R Inside (await point) runtime := by
  apply Segment.Guarantees.pure
  intro found hFound
  cases hFound
  exact h

/-- A message for the inbox is stored or dropped, and the route has answered. -/
theorem confines_relayInboxWithBody (body : Json) :
    Confines OnlyInbox Inside (relayInboxWithBody body) runtime := by
  apply Segment.Guarantees.check_bind
  rintro ⟨envelopeId, idempotencyKey, payload⟩ _
  apply Segment.Guarantees.change_bind
  · split <;> rfl
  · exact confines_respond _

theorem confines_relayOutboxRoute [IsPreorder M3Runtime R] (authenticated : Bool) :
    Confines R Inside (relayOutboxRoute authenticated) runtime := by
  apply Segment.Guarantees.check_bind
  intro _ _
  apply Segment.Guarantees.check_bind
  intro _ _
  exact confines_respond _

variable [Cryptography]

theorem confines_proceed_relay {point : Point} (hPoint : RelayPoint point)
    (settled : Settled) (surroundings : Surroundings) :
    Confines OnlyInbox RelayPoint (proceed point settled surroundings) runtime := by
  cases hPoint with
  | inboxAuthentication =>
      cases settled with
      | rejected message => exact Segment.Guarantees.throw
      | relay authenticated =>
          apply Segment.Guarantees.check_bind
          intro _ _
          exact confines_await .inboxBody
      | _ => exact confines_await .inboxAuthentication
  | inboxBody =>
      cases settled with
      | rejected message => exact Segment.Guarantees.throw
      | body value => exact confines_relayInboxWithBody value
      | _ => exact confines_await .inboxBody
  | outboxAuthentication =>
      cases settled with
      | rejected message => exact Segment.Guarantees.throw
      | relay authenticated => exact confines_relayOutboxRoute authenticated
      | _ => exact confines_await .outboxAuthentication

theorem confines_proceed_outbox {point : Point} (hPoint : OutboxPoint point)
    (settled : Settled) (surroundings : Surroundings) :
    Confines Eq OutboxPoint (proceed point settled surroundings) runtime := by
  cases hPoint with
  | authentication =>
      cases settled with
      | rejected message => exact Segment.Guarantees.throw
      | relay authenticated => exact confines_relayOutboxRoute authenticated
      | _ => exact confines_await .authentication

/-- The routes of the relay change nothing before the body of their request, and they
ask for the authentication again unless the relay was authenticated. -/
theorem confines_proceed_unauthenticated {point : Point} (hPoint : Unauthenticated point)
    (settled : Settled) (surroundings : Surroundings) :
    Confines Eq (fun next => settled = .relay true ∨ Unauthenticated next)
      (proceed point settled surroundings) runtime := by
  cases hPoint with
  | inbox =>
      cases settled with
      | rejected message => exact Segment.Guarantees.throw
      | relay authenticated =>
          apply Segment.Guarantees.check_bind
          intro _ hRelay
          rw [rejectIf_eq_ok_iff, Bool.not_eq_false] at hRelay
          exact confines_await (.inl (congrArg Settled.relay hRelay))
      | _ => exact confines_await (.inr .inbox)
  | outbox =>
      cases settled with
      | rejected message => exact Segment.Guarantees.throw
      | relay authenticated => exact confines_relayOutboxRoute authenticated
      | _ => exact confines_await (.inr .outbox)

/-- Segments of routes that confine themselves make a confined routine. -/
theorem confined_of_confines {Allowed : Settled × Surroundings → Prop}
    (h : ∀ point settled runtime, Inside point → Allowed settled →
      Confines R Inside (proceed point settled.1 settled.2) runtime) :
    Confined routine R Allowed Inside where
  related := fun point settled runtime hPoint hAllowed =>
    (caught_guarantees (h point settled runtime hPoint hAllowed)).1
  stays := fun point settled runtime next hPoint hAllowed hNext =>
    (caught_guarantees (h point settled runtime hPoint hAllowed)).2 next hNext next rfl

/-- A route of a request from elsewhere is where the set is, after any turns that are
allowed to it. -/
theorem receive_within {service : Service} {request : Request}
    {surroundings : Surroundings} {turns : List Turn}
    {Allowed : Settled × Surroundings → Prop}
    (hConfined : Confined routine R Allowed Inside)
    (hForeign : ¬ Authentic request surroundings.admittedAt service.shared)
    (hInside : ∀ point, Entered request (.suspended point) → Inside point)
    (hAllowed : AllowedFor service.tasks.length Allowed turns) :
    (service.receive request surroundings turns).Within service.tasks.length Inside := by
  apply hConfined.run_within _ turns hAllowed
  apply Scene.within_enter
  intro point hPoint
  apply hInside
  rw [← hPoint]
  exact (idle_handle hForeign).2

end Turns

/-- In every order of turns, a request from elsewhere changes nothing when it comes in,
and in a later turn at most the inbox: when it was a request for the inbox and the relay
has been authenticated for it in the meantime. -/
theorem crossSite_unchanged [Cryptography] (service : Service) (request : Request)
    (surroundings : Surroundings)
    (hForeign : ¬ Authentic request surroundings.admittedAt service.shared) :
    (service.turn (.enter (.handle request, surroundings))).shared = service.shared ∧
      ∀ (turns : List Turn) (settled : Settled × Surroundings),
        let before := service.receive request surroundings turns
        let after := before.turn (.resume service.tasks.length settled)
        OnlyInbox before.shared after.shared ∧
          (after.shared ≠ before.shared → ForInbox request ∧
            ∃ surroundings, Act.resume service.tasks.length (.relay true, surroundings) ∈
              turns) := by
  refine ⟨(idle_handle hForeign).1, ?_⟩
  intro turns settled before after
  refine ⟨?_, fun hChanged => ⟨?_, ?_⟩⟩
  · have hRelay : Confined routine OnlyInbox (fun _ => True) RelayPoint :=
      confined_of_confines fun _ settled _ hPoint _ =>
        confines_proceed_relay hPoint settled.1 settled.2
    refine hRelay.turn_related (receive_within hRelay hForeign ?_ fun _ _ => trivial)
      trivial
    rintro _ (_ | _)
    · exact .inboxAuthentication
    · exact .outboxAuthentication
  · by_contra hOther
    have hOutbox : Confined routine Eq (fun _ => True) OutboxPoint :=
      confined_of_confines fun _ settled _ hPoint _ =>
        confines_proceed_outbox hPoint settled.1 settled.2
    refine hChanged (hOutbox.turn_related (receive_within hOutbox hForeign ?_
      fun _ _ => trivial) trivial).symm
    rintro _ (_ | hInbox | _)
    · exact absurd hInbox hOther
    · exact .authentication
  · by_contra hNever
    have hPoints : Confined routine Eq (fun settled => settled.1 ≠ .relay true)
        Unauthenticated :=
      confined_of_confines fun _ settled _ hPoint hAllowed =>
        (confines_proceed_unauthenticated hPoint settled.1 settled.2).weaken
          (fun hSame => hSame) fun _ _ hNext next hSuspended =>
            (hNext next hSuspended).resolve_left hAllowed
    have hWithin : before.Within service.tasks.length Unauthenticated := by
      refine receive_within hPoints hForeign ?_ ?_
      · rintro _ (_ | _)
        · exact .inbox
        · exact .outbox
      · rintro ⟨_, _⟩ hMem rfl
        exact hNever ⟨_, hMem⟩
    -- The turn that authenticates the relay does not change anything itself.
    have hSame : before.shared =
        (Scene.step routine before (.resume service.tasks.length settled)).shared :=
      hWithin.turn_related fun point hPoint =>
        (caught_guarantees (confines_proceed_unauthenticated hPoint settled.1
          settled.2)).1
    exact hChanged hSame.symm

/-- A request to claim a pairing that names the session of another page by its cookie, with
a token of its own making. -/
def forgedClaim : Request :=
  { sampleRequest "/v1/pairings/AAAAAAAAAAAAAAAAAAAAAA/claim" with csrf := some "forged" }

theorem crossSite_unchanged_sample :
    let _ : Cryptography := keyedHashCryptography
    let service := run Service.turn (Service.fresh "https://rootpermit.example")
      (concurrentDecisions.take 4)
    Authentic (sampleRequest forgedClaim.pathname) sampleSurroundings.admittedAt
        service.shared ∧
      (service.turn (.enter (.handle forgedClaim, sampleSurroundings))).shared =
        service.shared ∧
      ∀ (turns : List Turn) (settled : Settled × Surroundings),
        let before := service.receive forgedClaim sampleSurroundings turns
        OnlyInbox before.shared
          (before.turn (.resume service.tasks.length settled)).shared := by
  intro _ service
  have hAuthentic : Authentic (sampleRequest forgedClaim.pathname)
        sampleSurroundings.admittedAt service.shared ∧
      ¬ Authentic forgedClaim sampleSurroundings.admittedAt service.shared := by
    decide +kernel
  have hSame := crossSite_unchanged service forgedClaim sampleSurroundings hAuthentic.2
  exact ⟨hAuthentic.1, hSame.1, fun turns settled => (hSame.2 turns settled).1⟩

end M3
end Hosted
end RootPermit
