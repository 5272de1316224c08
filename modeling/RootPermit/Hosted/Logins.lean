import RootPermit.Hosted.Changes
import RootPermit.Hosted.CrossSite
import RootPermit.Hosted.Tenancy

/-!
# Sessions and sign-ins

Nothing is done for an account without a sign-in.  Every session that the runtime knows
was opened when the account behind a sign-in was found; and a task that changes more than
the sessions and the inbox began with a request that showed such a session, before it ran
out (`acts_need_session`).  This holds in every order of turns, also when the session runs
out or is replaced while the task is suspended.
-/

namespace RootPermit
namespace Hosted
namespace M3

open Foundation

/-! ### What a task holds -/

/-- The points of a sign-in. -/
inductive SigningIn : Point → Prop where
  | body : SigningIn .sessionBody
  | identity (email password : String) : SigningIn (.sessionIdentity email password)

theorem SigningIn.session? {point : Point} (h : SigningIn point) : point.session? = none := by
  cases h with
  | body => rfl
  | identity email password => rfl

/-- The request asks for a session, from a page of the official origin. -/
structure AsksForSession (officialOrigin : String) (request : Request) : Prop where
  origin : request.origin = some officialOrigin
  pathname : request.pathname = "/v1/account/session"
  method : request.method = "POST"

/-- The request shows this session, from a page of the official origin. -/
structure Shows (officialOrigin : String) (request : Request) (admittedAt : Double)
    (session : Session) : Prop where
  origin : request.origin = some officialOrigin
  cookie : cookieValue request.cookie "rp_session" = some session.token
  csrf : request.csrf.map utf8 = some (utf8 session.csrfToken)
  live : session.expiresAt.le admittedAt = false

/-- Everything but the sessions and the inbox is as before. -/
def Unmoved (before after : M3Runtime) : Prop :=
  after = { before with sessions := after.sessions, relayInbox := after.relayInbox }

instance : IsPreorder M3Runtime Unmoved where
  refl _ := rfl
  trans first second third hFirst hSecond := by
    rw [Unmoved, hSecond, hFirst]

theorem OnlyInbox.unmoved {before after : M3Runtime} (h : OnlyInbox before after) :
    Unmoved before after := by
  rw [Unmoved, h]

/-! ### What a segment returns -/

section Returned

/-- A task that is suspended holds this session. -/
def Holds (session : Session) (progress : Progress) : Prop :=
  ∀ point, progress = .suspended point → point.session? = some session

theorem respond_holds (session : Session) (response : Response) :
    Segment.Returns (respond response) (Holds session) := by
  apply Segment.Returns.pure
  intro point hPoint
  cases hPoint

theorem await_holds {session : Session} {point : Point} (h : point.session? = some session) :
    Segment.Returns (await point) (Holds session) := by
  apply Segment.Returns.pure
  intro found hFound
  cases hFound
  exact h

theorem sessionRoutes_holds (session : Session) (request : Request) (now : Double) :
    Segment.Returns (sessionRoutes session request now) (Holds session) := by
  apply Segment.Returns.ite
  · exact Segment.Returns.bind fun devices => respond_holds session _
  split
  · -- The routes of a pairing.
    apply Segment.Returns.bind
    intro _
    apply Segment.Returns.bind
    intro pairing
    apply Segment.Returns.ite
    · apply Segment.Returns.bind
      intro _
      exact Segment.Returns.bind fun _ => respond_holds session _
    · exact Segment.Returns.bind fun _ => await_holds rfl
  split
  · -- The routes of a request.
    apply Segment.Returns.bind
    intro record
    apply Segment.Returns.ite
    · exact respond_holds session _
    apply Segment.Returns.ite
    · exact respond_holds session _
    apply Segment.Returns.ite
    · apply Segment.Returns.bind
      intro _
      exact Segment.Returns.bind fun _ => await_holds rfl
    · exact Segment.Returns.throw
  split
  · apply Segment.Returns.bind
    intro _
    exact Segment.Returns.bind fun credential => await_holds rfl
  · exact respond_holds session _

/-- A task keeps its session, and a sign-in is one from its first point on. -/
def Keeps (point : Point) (progress : Progress) : Prop :=
  ∀ next, progress = .suspended next →
    next.session? = point.session? ∧ (SigningIn next ↔ SigningIn point)

theorem respond_keeps (point : Point) (response : Response) :
    Segment.Returns (respond response) (Keeps point) := by
  apply Segment.Returns.pure
  intro next hNext
  cases hNext

theorem await_keeps {point next : Point} (hSession : next.session? = point.session?)
    (hSigning : SigningIn next ↔ SigningIn point) :
    Segment.Returns (await next) (Keeps point) := by
  apply Segment.Returns.pure
  intro found hFound
  cases hFound
  exact ⟨hSession, hSigning⟩

theorem proceed_keeps [Cryptography] (point : Point) (settled : Settled)
    (surroundings : Surroundings) :
    Segment.Returns (proceed point settled surroundings) (Keeps point) := by
  unfold proceed
  split
  · exact Segment.Returns.throw
  · exact Segment.Returns.bind fun _ => await_keeps rfl
      (iff_of_true (.identity _ _) .body)
  · next identity =>
      cases identity with
      | none => exact respond_keeps _ _
      | some account => exact Segment.Returns.bind fun _ => respond_keeps _ _
  · exact Segment.Returns.bind fun _ => await_keeps rfl (iff_of_false nofun nofun)
  · apply Segment.Returns.bind
    intro _
    exact Segment.Returns.bind fun _ => respond_keeps _ _
  · apply Segment.Returns.bind
    intro _
    exact Segment.Returns.bind fun _ => respond_keeps _ _
  · apply Segment.Returns.bind
    intro code
    apply Segment.Returns.bind
    intro pairing
    apply Segment.Returns.ite
    · exact Segment.Returns.bind fun _ => Segment.Returns.throw
    · apply Segment.Returns.bind
      intro _
      apply Segment.Returns.bind
      intro _
      exact Segment.Returns.bind fun _ => respond_keeps _ _
  · exact Segment.Returns.bind fun _ => await_keeps rfl (iff_of_false nofun nofun)
  · apply Segment.Returns.bind
    intro _
    apply Segment.Returns.bind
    intro _
    exact Segment.Returns.bind fun _ => respond_keeps _ _
  · apply Segment.Returns.bind
    intro _
    apply Segment.Returns.bind
    intro _
    apply Segment.Returns.bind
    intro remaining
    apply Segment.Returns.bind
    intro _
    apply Segment.Returns.bind
    intro _
    exact Segment.Returns.bind fun _ => respond_keeps _ _
  · exact await_keeps rfl .rfl

end Returned

/-! ### The first segment -/

section Entering

variable {runtime : M3Runtime} {request : Request} {surroundings : Surroundings}

/-- The session that is required is the one of the cookie, and it is live. -/
theorem requireSession_eq_ok {session : Session} {now : Double}
    (h : requireSession request now runtime = (.ok session, runtime)) :
    session ∈ runtime.sessions ∧ session.expiresAt.le now = false ∧
      cookieValue request.cookie "rp_session" = some session.token ∧
      Table.lookup Session.token session.token runtime.sessions = some session := by
  have hRead := congrArg Prod.fst h
  obtain ⟨token, hCookie, hRest⟩ := bind_eq_ok_iff.mp hRead
  obtain ⟨found, hFound, hRest⟩ := bind_eq_ok_iff.mp hRest
  obtain ⟨_, hLive, hSame⟩ := bind_eq_ok_iff.mp hRest
  rw [orFault_eq_ok_iff] at hCookie hFound
  rw [rejectIf_eq_ok_iff, Bool.not_eq_true] at hLive
  cases hSame
  have hToken : session.token = token := Table.column_of_lookup hFound
  rw [hToken]
  exact ⟨Table.mem_of_lookup hFound, hLive, hCookie, hFound⟩

/-- Where the first segment of a request leaves its task, with the session that it
requires. -/
theorem handle_cases (request : Request) (surroundings : Surroundings)
    (runtime : M3Runtime) :
    (AsksForSession runtime.officialOrigin request ∧
      handle request surroundings runtime = (.ok (.suspended .sessionBody), runtime)) ∨
    (∃ session, requireSession request surroundings.admittedAt runtime =
        (.ok session, runtime) ∧ Shows runtime.officialOrigin request
          surroundings.admittedAt session ∧
      handle request surroundings runtime =
        sessionRoutes session request surroundings.now runtime) ∨
    Idle request runtime (handle request surroundings) := by
  by_cases hAuthentic : Authentic request surroundings.admittedAt runtime
  swap
  · exact .inr (.inr (idle_handle hAuthentic))
  obtain ⟨hOrigin, hAuthentic⟩ := hAuthentic
  unfold handle
  by_cases hAsks : request.pathname = "/v1/account/session" ∧ request.method = "POST"
  · rw [if_pos hAsks]
    refine .inl ⟨⟨hOrigin, hAsks.1, hAsks.2⟩, ?_⟩
    refine (Segment.check_bind_of_ok (?_ : _ = Except.ok ())).trans rfl
    exact rejectIf_eq_ok_iff.mpr (not_not_intro hOrigin)
  rw [if_neg hAsks]
  obtain ⟨token, hCookie, session, hFound, hLive, hCsrf⟩ := hAuthentic.resolve_left hAsks
  by_cases hInbox : request.pathname = "/v1/relay/inbox" ∧ request.method = "POST"
  · rw [if_pos hInbox]
    exact .inr (.inr ⟨rfl, .inbox hInbox⟩)
  by_cases hOutbox : request.pathname = "/v1/relay/outbox" ∧ request.method = "GET"
  · rw [if_neg hInbox, if_pos hOutbox]
    exact .inr (.inr ⟨rfl, .outbox⟩)
  rw [if_neg hInbox, if_neg hOutbox]
  have hToken : session.token = token := Table.column_of_lookup hFound
  have hRequired : requireSession request surroundings.admittedAt runtime =
      (.ok session, runtime) := by
    refine Prod.ext (?_ : _ = Except.ok session) rfl
    refine bind_eq_ok_iff.mpr ⟨token, orFault_eq_ok_iff.mpr hCookie, ?_⟩
    refine bind_eq_ok_iff.mpr ⟨session, orFault_eq_ok_iff.mpr hFound, ?_⟩
    exact bind_eq_ok_iff.mpr ⟨(), rejectIf_eq_ok_iff.mpr (Bool.not_eq_true _ ▸ hLive), rfl⟩
  refine .inr (.inl ⟨session, hRequired, ⟨hOrigin, ?_, hCsrf, hLive⟩, ?_⟩)
  · rw [hToken]
    exact hCookie
  · exact Segment.bind_of_ok hRequired

end Entering

/-! ### The later segments -/

section Resuming

variable [Cryptography] {runtime : M3Runtime}

/-- A task without a session stores a session or a message, or it changes nothing. -/
theorem proceed_unmoved {point : Point} (hSession : point.session? = none)
    (settled : Settled) (surroundings : Surroundings) :
    Segment.Guarantees Unmoved (proceed point settled surroundings) runtime
      fun _ _ => True := by
  have hRelay : RelayPoint point → Segment.Guarantees Unmoved
      (proceed point settled surroundings) runtime fun _ _ => True := fun hPoint =>
    (confines_proceed_relay hPoint settled surroundings).weaken OnlyInbox.unmoved
      fun _ _ _ => trivial
  cases point with
  | relayInboxAuthentication => exact hRelay .inboxAuthentication
  | relayInboxBody => exact hRelay .inboxBody
  | relayOutboxAuthentication => exact hRelay .outboxAuthentication
  | sessionBody =>
      cases settled with
      | rejected message => exact Segment.Guarantees.throw
      | body value =>
          apply Segment.Guarantees.check_bind
          intro _ _
          exact Segment.Guarantees.pure trivial
      | _ => exact Segment.Guarantees.pure trivial
  | sessionIdentity email password =>
      cases settled with
      | rejected message => exact Segment.Guarantees.throw
      | identity found =>
          cases found with
          | none => exact Segment.Guarantees.pure trivial
          | some account =>
              apply Segment.Guarantees.change_bind
              · exact rfl
              · exact Segment.Guarantees.pure trivial
      | _ => exact Segment.Guarantees.pure trivial
  | pairingBody session pairingId => cases hSession
  | decisionBody session requestId => cases hSession
  | decisionCeremony session requestId payload => cases hSession
  | revocationProof session credentialId devicePublicId => cases hSession

end Resuming

/-- A task that is suspended after its segment is where the segment has returned. -/
theorem caught_returns {handler : Handler Progress} {runtime : M3Runtime} {point : Point}
    {post : Progress → Prop} (h : Segment.Returns handler post)
    (hPoint : (caught (handler runtime)).1 = .suspended point) :
    post (.suspended point) := by
  have hGuarantees : Segment.Guarantees (fun _ _ => True) handler runtime
      (fun progress _ => post progress) := ⟨trivial, h runtime⟩
  exact (caught_guarantees hGuarantees).2 point hPoint

/-! ### The history of a session -/

section History

variable [Cryptography] (officialOrigin : String)

/-- The task with this index began with this request. -/
def Began (turns : List Turn) (index : Nat) (request : Request)
    (surroundings : Surroundings) : Prop :=
  Occurs Service.turn (Service.fresh officialOrigin) turns fun service turn =>
    service.tasks.length = index ∧ turn = .enter (.handle request, surroundings)

/-- The task asks for a session. -/
def BeganSignIn (turns : List Turn) (index : Nat) : Prop :=
  ∃ request surroundings, Began officialOrigin turns index request surroundings ∧
    AsksForSession officialOrigin request

/-- The session was opened by a task that had asked for it, when the account of the
sign-in was found. -/
def SignedIn (turns : List Turn) (session : Session) : Prop :=
  ∃ earlier index account surroundings later,
    turns = earlier ++ .resume index (.identity (some account), surroundings) :: later ∧
    Opens session (run Service.turn (Service.fresh officialOrigin) earlier)
      (.resume index (.identity (some account), surroundings)) ∧
    BeganSignIn officialOrigin earlier index

/-- The task began with a request that showed this session, after its sign-in. -/
def BeganIn (turns : List Turn) (index : Nat) (session : Session) : Prop :=
  ∃ earlier request surroundings later,
    turns = earlier ++ .enter (.handle request, surroundings) :: later ∧
    (run Service.turn (Service.fresh officialOrigin) earlier).tasks.length = index ∧
    Shows officialOrigin request surroundings.admittedAt session ∧
    SignedIn officialOrigin earlier session

variable {officialOrigin} {turns : List Turn} {index : Nat} {session : Session}

theorem BeganSignIn.concat (h : BeganSignIn officialOrigin turns index) (turn : Turn) :
    BeganSignIn officialOrigin (turns ++ [turn]) index := by
  obtain ⟨request, surroundings, hBegan, hAsks⟩ := h
  exact ⟨request, surroundings, hBegan.concat, hAsks⟩

theorem SignedIn.concat (h : SignedIn officialOrigin turns session) (turn : Turn) :
    SignedIn officialOrigin (turns ++ [turn]) session := by
  obtain ⟨earlier, index, account, surroundings, later, rfl, hOpens, hBegan⟩ := h
  refine ⟨earlier, index, account, surroundings, later ++ [turn], ?_, hOpens, hBegan⟩
  rw [List.append_assoc, List.cons_append]

theorem BeganIn.concat (h : BeganIn officialOrigin turns index session) (turn : Turn) :
    BeganIn officialOrigin (turns ++ [turn]) index session := by
  obtain ⟨earlier, request, surroundings, later, rfl, hIndex, hShows, hSignedIn⟩ := h
  refine ⟨earlier, request, surroundings, later ++ [turn], ?_, hIndex, hShows, hSignedIn⟩
  rw [List.append_assoc, List.cons_append]

/-- Every session, and every task that holds one or asks for one, has its history. -/
structure Accounted (officialOrigin : String) (turns : List Turn) (service : Service) :
    Prop where
  origin : service.shared.officialOrigin = officialOrigin
  sessions : ∀ session ∈ service.shared.sessions, SignedIn officialOrigin turns session
  signIns : ∀ index point, service.tasks[index]? = some (.suspended point) →
    SigningIn point → BeganSignIn officialOrigin turns index
  holders : ∀ index point session, service.tasks[index]? = some (.suspended point) →
    point.session? = some session → BeganIn officialOrigin turns index session

theorem Accounted.fresh (officialOrigin : String) :
    Accounted officialOrigin [] (Service.fresh officialOrigin) where
  origin := rfl
  sessions := fun _ hSession => by cases hSession
  signIns := fun _ _ hTask => by cases hTask
  holders := fun _ _ _ hTask => by cases hTask

omit [Cryptography] in
theorem Change.origin {Arrives : Arrival → Prop} {before after : M3Runtime}
    (h : Change Arrives before after) : after.officialOrigin = before.officialOrigin := by
  cases h <;> rfl

omit [Cryptography] in
/-- A change stores no session but one that has arrived. -/
theorem Change.sessions {Arrives : Arrival → Prop} {before after : M3Runtime}
    (h : Change Arrives before after) :
    ∀ session ∈ after.sessions, session ∈ before.sessions ∨ Arrives (.session session) := by
  intro found hFound
  cases h with
  | session session hOpened =>
      rcases Table.mem_of_mem_put hFound with hOld | rfl
      · exact .inl hOld
      · exact .inr hOpened
  | _ => exact .inl hFound

/-- A session that a turn stores is the one that its sign-in opens. -/
theorem sessions_turn (service : Service) (turn : Turn) :
    ∀ session ∈ (service.turn turn).shared.sessions,
      session ∈ service.shared.sessions ∨ Opens session service turn := by
  refine (turn_changes service turn).preserve
    (I := fun runtime => ∀ session ∈ runtime.sessions,
      session ∈ service.shared.sessions ∨ Opens session service turn) ?_
    fun _ => .inl
  intro before after hChange hBefore session hSession
  rcases hChange.sessions session hSession with hOld | hNew
  · exact hBefore session hOld
  · exact .inr hNew

theorem origin_turn (service : Service) (turn : Turn) :
    (service.turn turn).shared.officialOrigin = service.shared.officialOrigin :=
  (turn_changes service turn).preserve
    (I := fun runtime => runtime.officialOrigin = service.shared.officialOrigin)
    (fun hChange hBefore => hChange.origin.trans hBefore) rfl

/-- Where a call leaves its task. -/
theorem enter_task {call : Call} {surroundings : Surroundings} {runtime : M3Runtime}
    {point : Point}
    (h : (enter (call, surroundings) runtime).1 = .suspended point) :
    ∃ request, call = .handle request ∧ point ≠ .relayInboxBody ∧
      (SigningIn point → AsksForSession runtime.officialOrigin request) ∧
      ∀ session, point.session? = some session → session ∈ runtime.sessions ∧
        Shows runtime.officialOrigin request surroundings.admittedAt session := by
  have hTrusted : ∀ outcome : Except String Unit × M3Runtime,
      (finished outcome).1 ≠ .suspended point := by
    rintro ⟨_ | _, _⟩ hSuspended <;> cases hSuspended
  cases call with
  | handle request =>
      refine ⟨request, rfl, ?_⟩
      change (caught (handle request surroundings runtime)).1 = _ at h
      rcases handle_cases request surroundings runtime with
        ⟨hAsks, hRun⟩ | ⟨session, hRequired, hShows, hRun⟩ | hIdle
      · rw [hRun] at h
        cases h
        exact ⟨nofun, fun _ => hAsks, fun _ hSession => nomatch hSession⟩
      · rw [hRun] at h
        have hHolds :=
          caught_returns (sessionRoutes_holds session request surroundings.now) h point rfl
        refine ⟨?_, fun hSigning => ?_, fun found hFound => ?_⟩
        · rintro rfl
          cases hHolds
        · rw [hSigning.session?] at hHolds
          cases hHolds
        · rw [hHolds, Option.some.injEq] at hFound
          subst hFound
          exact ⟨(requireSession_eq_ok hRequired).1, hShows⟩
      · have hEntered := hIdle.2
        rw [h] at hEntered
        have hRelay : Unauthenticated point := by
          cases hEntered with
          | inbox hInbox => exact .inbox
          | outbox => exact .outbox
        refine ⟨?_, fun hSigning => ?_, fun _ hSession => ?_⟩
        · rintro rfl
          cases hRelay
        · cases hRelay <;> cases hSigning
        · cases hRelay <;> cases hSession
  | preparePairing input => exact absurd h (hTrusted _)
  | confirmPairingFromBroker pairingId nonce brokerPublicKey =>
      exact absurd h (hTrusted _)
  | enrollCredential input => exact absurd h (hTrusted _)
  | ingestVerifiedRequest input => exact absurd h (hTrusted _)
  | ingestVerifiedBrokerReceipt requestPublicId terminalState =>
      exact absurd h (hTrusted _)

/-- What a task held before a turn of its own, it still holds. -/
theorem resume_task {found point : Point} {settled : Settled × Surroundings}
    {runtime : M3Runtime} (h : (resume found settled runtime).1 = .suspended point) :
    point.session? = found.session? ∧ (SigningIn point ↔ SigningIn found) :=
  caught_returns (proceed_keeps found settled.1 settled.2) h point rfl

/-- What came before a turn accounts for what there is after it. -/
theorem Accounted.turn
    (h : Accounted officialOrigin turns
      (run Service.turn (Service.fresh officialOrigin) turns)) (turn : Turn) :
    Accounted officialOrigin (turns ++ [turn])
      (run Service.turn (Service.fresh officialOrigin) (turns ++ [turn])) := by
  rw [run_concat]
  generalize hService : run Service.turn (Service.fresh officialOrigin) turns = service at h ⊢
  refine
    { origin := (origin_turn service turn).trans h.origin
      sessions := fun session hSession => ?_
      signIns := fun index point hTask hSigning => ?_
      holders := fun index point session hTask hHeld => ?_ }
  · rcases sessions_turn service turn session hSession with hOld | hOpens
    · exact (h.sessions session hOld).concat turn
    · obtain ⟨index, email, password, account, surroundings, rfl, hTask, hOpened⟩ := hOpens
      refine ⟨turns, index, account, surroundings, [], rfl, ?_,
        h.signIns index _ hTask (.identity email password)⟩
      rw [hService]
      exact ⟨index, email, password, account, surroundings, rfl, hTask, hOpened⟩
  · rcases Scene.suspended_cases hTask with
      hOld | ⟨⟨call, surroundings⟩, rfl, rfl, hPoint⟩ |
        ⟨settled, found, rfl, hFound, hPoint⟩
    · exact (h.signIns index point hOld hSigning).concat turn
    · obtain ⟨request, rfl, -, hAsks, -⟩ := enter_task hPoint
      refine ⟨request, surroundings, Occurs.last ⟨?_, rfl⟩, h.origin ▸ hAsks hSigning⟩
      rw [hService]
    · exact (h.signIns index found hFound ((resume_task hPoint).2.mp hSigning)).concat _
  · rcases Scene.suspended_cases hTask with
      hOld | ⟨⟨call, surroundings⟩, rfl, rfl, hPoint⟩ |
        ⟨settled, found, rfl, hFound, hPoint⟩
    · exact (h.holders index point session hOld hHeld).concat turn
    · obtain ⟨request, rfl, -, -, hShown⟩ := enter_task hPoint
      obtain ⟨hSession, hShows⟩ := hShown session hHeld
      refine ⟨turns, request, surroundings, [], rfl, ?_, h.origin ▸ hShows,
        h.sessions session hSession⟩
      rw [hService]
    · rw [(resume_task hPoint).1] at hHeld
      exact (h.holders index found session hFound hHeld).concat _

theorem run_accounted (officialOrigin : String) (turns : List Turn) :
    Accounted officialOrigin turns
      (run Service.turn (Service.fresh officialOrigin) turns) := by
  induction turns using List.reverseRecOn with
  | nil => exact Accounted.fresh officialOrigin
  | append_singleton turns turn ih => exact ih.turn turn

/-! ### What needs a session -/

/-- A trusted call comes from the broker or from the host, not from a browser. -/
def Trusted : Turn → Prop
  | .enter (.handle _, _) => False
  | .enter _ => True
  | .resume _ _ => False

/-- The task of a turn. -/
def taskOf (service : Service) : Turn → Nat
  | .enter _ => service.tasks.length
  | .resume index _ => index

/-- In every order of turns: a session is known only after a sign-in from the official
origin has found its account.  A turn that is not a trusted call and changes more than the
sessions and the inbox acts in such a session, which the request of its task has shown with
its token, from the official origin and before it ran out. -/
theorem acts_need_session (officialOrigin : String) (turns : List Turn) (turn : Turn) :
    let service := run Service.turn (Service.fresh officialOrigin) turns
    (∀ session ∈ service.shared.sessions, SignedIn officialOrigin turns session) ∧
      (Trusted turn ∨ Unmoved service.shared (service.turn turn).shared ∨
        ∃ session, ActsFor session service turn ∧
          BeganIn officialOrigin (turns ++ [turn]) (taskOf service turn) session) := by
  intro service
  have h : Accounted officialOrigin turns service := run_accounted officialOrigin turns
  refine ⟨h.sessions, ?_⟩
  cases turn with
  | resume index settled =>
      by_cases hFound : ∃ found, service.tasks[index]? = some (.suspended found)
      · obtain ⟨point, hTask⟩ := hFound
        cases hSession : point.session? with
        | none =>
            refine .inr (.inl ?_)
            rw [Service.turn, Scene.step_resume hTask]
            exact (caught_guarantees (proceed_unmoved hSession settled.1 settled.2)).1
        | some session =>
            refine .inr (.inr ⟨session, .inr ⟨index, point, settled, rfl, hTask, hSession⟩, ?_⟩)
            exact (h.holders index point session hTask hSession).concat _
      · refine .inr (.inl ?_)
        rw [Service.turn, Scene.step_idle (not_exists.mp hFound)]
        exact refl_of Unmoved _
  | enter made =>
      obtain ⟨call, surroundings⟩ := made
      cases call with
      | handle request =>
          have hShared : (service.turn (.enter (.handle request, surroundings))).shared =
              (caught (handle request surroundings service.shared)).2 := rfl
          rcases handle_cases request surroundings service.shared with
            ⟨-, hRun⟩ | ⟨session, hRequired, hShows, -⟩ | hIdle
          · refine .inr (.inl ?_)
            rw [hShared, hRun]
            exact refl_of Unmoved _
          · refine .inr (.inr ⟨session, .inl ⟨request, surroundings, rfl, hRequired⟩, ?_⟩)
            exact ⟨turns, request, surroundings, [], rfl, rfl, h.origin ▸ hShows,
              h.sessions session (requireSession_eq_ok hRequired).1⟩
          · refine .inr (.inl ?_)
            rw [hShared, hIdle.1]
            exact refl_of Unmoved _
      | _ => exact .inl trivial

end History

end M3
end Hosted
end RootPermit
