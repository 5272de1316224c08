import RootPermit.Foundation.FirstWrite
import RootPermit.Hosted.Logins

/-!
# The mailboxes of the relay

The broker's side repeats a message until it is accepted.  In every order of turns the
inbox ends with the first delivery under each pair of identifiers, by a relay that has been
authenticated, and with nothing else (`inbox_iff`); neither mailbox gives anything back
(`mailboxes_grow`).
-/

namespace RootPermit
namespace Hosted
namespace M3

open Foundation

/-! ### The key of a message -/

theorem utf8_append (first second : String) :
    utf8 (first ++ second) = utf8 first ++ utf8 second := by
  rw [utf8, String.toByteArray_append, ByteArray.data_append, Array.toList_append]
  rfl

/-- Envelope ids have one length, so a key spells its two parts. -/
theorem RelayMessage.inboxKey_inj {first second : RelayMessage}
    (hFirst : first.Incoming) (hSecond : second.Incoming) :
    first.inboxKey = second.inboxKey ↔
      first.envelopeId = second.envelopeId ∧
        first.idempotencyKey = second.idempotencyKey := by
  constructor
  · intro h
    have hLengths : ∀ {message : RelayMessage}, message.Incoming →
        (utf8 message.envelopeId).length = 22 := by
      intro message hMessage
      have hId := hMessage.envelopeId
      rw [Broker.isPublicId, Bool.and_eq_true, decide_eq_true_eq] at hId
      exact hId.1
    have hBytes := congrArg utf8 h
    rw [inboxKey, inboxKey, utf8_append, utf8_append, utf8_append, utf8_append,
      List.append_assoc, List.append_assoc] at hBytes
    obtain ⟨hEnvelope, hRest⟩ := List.append_inj hBytes
      ((hLengths hFirst).trans (hLengths hSecond).symm)
    exact ⟨utf8_injective hEnvelope, utf8_injective (List.append_cancel_left hRest)⟩
  · rintro ⟨hEnvelope, hKey⟩
    rw [RelayMessage.inboxKey, RelayMessage.inboxKey, hEnvelope, hKey]

/-! ### The inbox after a turn -/

theorem Carries.unique {body : Json} {first second : RelayMessage}
    (hFirst : Carries body first) (hSecond : Carries body second) : first = second := by
  obtain ⟨fields, hFields, rfl⟩ := hFirst
  obtain ⟨others, hOthers, rfl⟩ := hSecond
  rw [hFields, Except.ok.injEq] at hOthers
  rw [hOthers]

theorem Delivers.unique {first second : RelayMessage} {service : Service} {turn : Turn}
    (hFirst : Delivers first service turn) (hSecond : Delivers second service turn) :
    first = second := by
  obtain ⟨index, body, surroundings, rfl, -, hCarries⟩ := hFirst
  obtain ⟨_, _, _, hTurn, -, hOther⟩ := hSecond
  cases hTurn
  exact hCarries.unique hOther

/-- A message takes its key unless the key is in use. -/
theorem mem_store_iff {runtime : M3Runtime} {message : RelayMessage}
    {entry : String × RelayMessage} :
    entry ∈ (runtime.store message).relayInbox ↔
      entry ∈ runtime.relayInbox ∨ (entry = (message.inboxKey, message) ∧
        ∀ other ∈ runtime.relayInbox, other.1 ≠ message.inboxKey) := by
  have hFree : (∀ other ∈ runtime.relayInbox, other.1 ≠ message.inboxKey) ↔
      Table.lookup Prod.fst message.inboxKey runtime.relayInbox = none := by
    rw [Table.lookup_eq_none_iff, List.mem_map]
    simp only [not_exists, not_and, ne_eq]
  rw [hFree, M3Runtime.store]
  split
  · next hUsed =>
      rw [Option.isSome_iff_ne_none] at hUsed
      simp only [hUsed, and_false, or_false]
  · next hAbsent =>
      rw [Option.not_isSome_iff_eq_none] at hAbsent
      rw [Table.put_of_absent hAbsent, List.mem_append, List.mem_singleton]
      simp only [hAbsent, and_true]

/-- What a turn writes to the inbox: the message that it delivers, under its key. -/
def WritesInbox (entry : String × RelayMessage) (service : Service) (turn : Turn) :
    Prop :=
  entry.1 = entry.2.inboxKey ∧ Delivers entry.2 service turn

variable [Cryptography]

theorem Delivers.shared {message : RelayMessage} {service : Service} {turn : Turn}
    (h : Delivers message service turn) :
    (service.turn turn).shared = service.shared.store message := by
  obtain ⟨index, body, surroundings, rfl, hTask, fields, hFields, rfl⟩ := h
  rw [Service.turn, Scene.step_resume hTask]
  change (caught (relayInboxWithBody body service.shared)).2 = _
  rw [relayInboxWithBody_of_ok hFields]
  rfl

/-- No other turn touches the inbox. -/
theorem inbox_of_not_delivers {service : Service} {turn : Turn}
    (h : ∀ message, ¬ Delivers message service turn) :
    (service.turn turn).shared.relayInbox = service.shared.relayInbox := by
  refine (turn_changes service turn).preserve
    (I := fun runtime => runtime.relayInbox = service.shared.relayInbox) ?_ rfl
  intro first second hChange hSame
  cases hChange with
  | inbox message hMail hNew hIncoming => exact absurd hMail (h message)
  | _ => exact hSame

theorem inbox_storesFirst :
    StoresFirst Service.turn (fun service => service.shared.relayInbox) WritesInbox := by
  intro service turn entry
  beta_reduce
  by_cases hDelivers : ∃ message, Delivers message service turn
  · obtain ⟨message, hMessage⟩ := hDelivers
    have hEntry : entry = (message.inboxKey, message) ↔
        WritesInbox entry service turn := by
      constructor
      · rintro rfl
        exact ⟨rfl, hMessage⟩
      · rintro ⟨hKey, hOther⟩
        obtain rfl := hOther.unique hMessage
        exact Prod.ext hKey rfl
    rw [hMessage.shared, mem_store_iff, hEntry]
    refine or_congr_right (and_congr_right fun hWrites => ?_)
    rw [← hEntry] at hWrites
    rw [hWrites]
  · rw [inbox_of_not_delivers (not_exists.mp hDelivers)]
    have hNever : ¬ WritesInbox entry service turn :=
      fun hWrites => hDelivers ⟨entry.2, hWrites.2⟩
    simp only [hNever, false_and, or_false]

/-! ### The authentication of the relay -/

/-- The relay is authenticated for the task with this index. -/
def Authenticates (index : Nat) (service : Service) (turn : Turn) : Prop :=
  service.tasks[index]? = some (.suspended .relayInboxAuthentication) ∧
    ∃ surroundings, turn = .resume index (.relay true, surroundings)

/-- Only an authentication lets a task wait for its message. -/
theorem resume_inboxBody {found : Point} {settled : Settled × Surroundings}
    {runtime : M3Runtime}
    (h : (resume found settled runtime).1 = .suspended .relayInboxBody) :
    found = .relayInboxBody ∨
      (found = .relayInboxAuthentication ∧ settled.1 = .relay true) := by
  have hSession := (resume_task h).1
  have hSigning := (resume_task h).2
  cases found with
  | relayInboxBody => exact .inl rfl
  | relayInboxAuthentication =>
      have hNext := (caught_guarantees (confines_proceed_unauthenticated .inbox settled.1
        settled.2)).2 _ h _ rfl
      exact .inr ⟨rfl, hNext.resolve_right nofun⟩
  | relayOutboxAuthentication =>
      have hNext := (caught_guarantees (confines_proceed_outbox .authentication settled.1
        settled.2)).2 _ h _ rfl
      cases hNext
  | sessionBody => cases hSigning.mpr .body
  | sessionIdentity email password => cases hSigning.mpr (.identity email password)
  | _ => cases hSession

/-- A task that waits for its message had its relay authenticated. -/
theorem relay_authenticated {officialOrigin : String} {turns : List Turn} {index : Nat}
    (h : (run Service.turn (Service.fresh officialOrigin) turns).tasks[index]? =
      some (.suspended .relayInboxBody)) :
    Occurs Service.turn (Service.fresh officialOrigin) turns (Authenticates index) := by
  induction turns using List.reverseRecOn with
  | nil => cases h
  | append_singleton turns turn ih =>
      rw [run_concat] at h
      rcases Scene.suspended_cases h with
        hOld | ⟨⟨call, surroundings⟩, rfl, rfl, hPoint⟩ |
          ⟨⟨settled, surroundings⟩, found, rfl, hFound, hPoint⟩
      · exact (ih hOld).concat
      · obtain ⟨_, -, hOther, -⟩ := enter_task hPoint
        exact absurd rfl hOther
      · rcases resume_inboxBody hPoint with rfl | ⟨rfl, rfl⟩
        · exact (ih hFound).concat
        · exact Occurs.last ⟨hFound, surroundings, rfl⟩

/-! ### Runs -/

/-- After these turns the turn delivers the message, and the relay has been authenticated
for its task. -/
def DeliversAfter (officialOrigin : String) (turns : List Turn) (message : RelayMessage)
    (turn : Turn) : Prop :=
  Delivers message (run Service.turn (Service.fresh officialOrigin) turns) turn ∧
    ∃ index settled, turn = .resume index settled ∧
      Occurs Service.turn (Service.fresh officialOrigin) turns (Authenticates index)

theorem Delivers.after {officialOrigin : String} {turns : List Turn}
    {message : RelayMessage} {turn : Turn}
    (h : Delivers message (run Service.turn (Service.fresh officialOrigin) turns) turn) :
    DeliversAfter officialOrigin turns message turn := by
  have hDelivers := h
  obtain ⟨index, body, surroundings, rfl, hTask, -⟩ := h
  exact ⟨hDelivers, index, _, rfl, relay_authenticated hTask⟩

/-- The turn delivers something with the identifiers of the message. -/
def Repeats (message : RelayMessage) (service : Service) (turn : Turn) : Prop :=
  ∃ other, other.envelopeId = message.envelopeId ∧
    other.idempotencyKey = message.idempotencyKey ∧ Delivers other service turn

omit [Cryptography] in
theorem Delivers.incoming {message : RelayMessage} {service : Service} {turn : Turn}
    (h : Delivers message service turn) : message.Incoming := by
  obtain ⟨_, _, _, -, -, hCarries⟩ := h
  exact hCarries.incoming

omit [Cryptography] in
theorem writesUnder_iff_repeats {message : RelayMessage} (hIncoming : message.Incoming) :
    WritesUnder WritesInbox message.inboxKey = Repeats message := by
  funext service turn
  apply propext
  constructor
  · rintro ⟨⟨key, other⟩, rfl, hKey, hOther⟩
    obtain ⟨hEnvelope, hIdempotency⟩ :=
      (RelayMessage.inboxKey_inj hIncoming hOther.incoming).mp hKey
    exact ⟨other, hEnvelope.symm, hIdempotency.symm, hOther⟩
  · rintro ⟨other, hEnvelope, hIdempotency, hOther⟩
    refine ⟨(message.inboxKey, other), rfl, ?_, hOther⟩
    exact (RelayMessage.inboxKey_inj hIncoming hOther.incoming).mpr
      ⟨hEnvelope.symm, hIdempotency.symm⟩

/-- In every order of turns, the inbox ends with the first delivery under each pair of
identifiers, by a relay that has been authenticated, stored under their key; a repeated
delivery never changes it. -/
theorem inbox_iff (officialOrigin : String) (turns : List Turn)
    (entry : String × RelayMessage) :
    entry ∈ (run Service.turn (Service.fresh officialOrigin) turns).shared.relayInbox ↔
      entry.1 = entry.2.inboxKey ∧
        ∃ earlier turn later, turns = earlier ++ turn :: later ∧
          DeliversAfter officialOrigin earlier entry.2 turn ∧
          ¬ Occurs Service.turn (Service.fresh officialOrigin) earlier
            (Repeats entry.2) := by
  have hStored : entry ∈
      (run Service.turn (Service.fresh officialOrigin) turns).shared.relayInbox ↔
        OccursFirst Service.turn (Service.fresh officialOrigin) turns
          (WritesInbox entry) (WritesUnder WritesInbox entry.1) :=
    firstWrites_iff rfl inbox_storesFirst entry turns
  rw [hStored]
  constructor
  · rintro ⟨earlier, turn, later, hTurns, ⟨hKey, hDelivers⟩, hNew⟩
    rw [hKey, writesUnder_iff_repeats hDelivers.incoming] at hNew
    exact ⟨hKey, earlier, turn, later, hTurns, hDelivers.after, hNew⟩
  · rintro ⟨hKey, earlier, turn, later, hTurns, ⟨hDelivers, -⟩, hNew⟩
    refine ⟨earlier, turn, later, hTurns, ⟨hKey, hDelivers⟩, ?_⟩
    rw [hKey, writesUnder_iff_repeats hDelivers.incoming]
    exact hNew

/-! ### What the mailboxes hold -/

/-- The mailboxes hold sound messages, and the inbox at most one message for each pair of
identifiers. -/
structure M3Runtime.MailSound (runtime : M3Runtime) : Prop where
  incoming : ∀ entry ∈ runtime.relayInbox,
    entry.1 = entry.2.inboxKey ∧ entry.2.Incoming
  outgoing : ∀ message ∈ runtime.relayOutbox, message.Outgoing
  keyed : Table.Keyed Prod.fst runtime.relayInbox

omit [Cryptography] in
theorem Change.mailSound {Arrives : Arrival → Prop} {before after : M3Runtime}
    (h : Change Arrives before after) (hBefore : before.MailSound) : after.MailSound := by
  cases h with
  | inbox message hMail hNew hIncoming =>
      refine ⟨?_, hBefore.outgoing, ?_⟩
      · intro entry hEntry
        change entry ∈ Table.put Prod.fst (message.inboxKey, message) _ at hEntry
        rw [Table.put_of_absent hNew, List.mem_append, List.mem_singleton] at hEntry
        rcases hEntry with hOld | rfl
        · exact hBefore.incoming entry hOld
        · exact ⟨rfl, hIncoming⟩
      · change Table.Keyed Prod.fst (Table.put Prod.fst (message.inboxKey, message) _)
        rw [Table.put_of_absent hNew, Table.keyed_append_iff]
        refine ⟨hBefore.keyed, fun entry hEntry hSame => ?_⟩
        rw [Table.lookup_eq_none_iff] at hNew
        exact hNew (List.mem_map.mpr ⟨entry, hEntry, hSame⟩)
  | outbox message hOutgoing =>
      refine ⟨hBefore.incoming, ?_, hBefore.keyed⟩
      intro found hFound
      rw [List.mem_append, List.mem_singleton] at hFound
      rcases hFound with hOld | rfl
      · exact hBefore.outgoing found hOld
      · exact hOutgoing
  | _ => exact ⟨hBefore.incoming, hBefore.outgoing, hBefore.keyed⟩

omit [Cryptography] in
/-- A change puts messages only at the end of a mailbox. -/
theorem Change.prefixes {Arrives : Arrival → Prop} {before after : M3Runtime}
    (h : Change Arrives before after) :
    before.relayInbox <+: after.relayInbox ∧ before.relayOutbox <+: after.relayOutbox := by
  cases h with
  | inbox message hMail hNew hIncoming =>
      refine ⟨?_, List.prefix_refl _⟩
      change _ <+: Table.put Prod.fst (message.inboxKey, message) _
      rw [Table.put_of_absent hNew]
      exact List.prefix_append _ _
  | outbox message hOutgoing => exact ⟨List.prefix_refl _, List.prefix_append _ _⟩
  | _ => exact ⟨List.prefix_refl _, List.prefix_refl _⟩

/-- In every run both mailboxes only grow, and what they hold is sound. -/
theorem mailboxes_grow (officialOrigin : String) (earlier later : List Turn) :
    let first := (run Service.turn (Service.fresh officialOrigin) earlier).shared
    let second :=
      (run Service.turn (Service.fresh officialOrigin) (earlier ++ later)).shared
    first.relayInbox <+: second.relayInbox ∧
      first.relayOutbox <+: second.relayOutbox ∧ second.MailSound := by
  intro first second
  have hLater : Changes (fun _ => True) first second := by
    have hRun := run_changes (run Service.turn (Service.fresh officialOrigin) earlier) later
    rw [← run_append] at hRun
    exact hRun
  have hPrefixes : first.relayInbox <+: second.relayInbox ∧
      first.relayOutbox <+: second.relayOutbox := by
    refine hLater.preserve (I := fun runtime => first.relayInbox <+: runtime.relayInbox ∧
      first.relayOutbox <+: runtime.relayOutbox) ?_
      ⟨List.prefix_refl _, List.prefix_refl _⟩
    rintro before after hChange ⟨hInbox, hOutbox⟩
    exact ⟨hInbox.trans hChange.prefixes.1, hOutbox.trans hChange.prefixes.2⟩
  refine ⟨hPrefixes.1, hPrefixes.2, ?_⟩
  refine (run_changes (Service.fresh officialOrigin) (earlier ++ later)).preserve
    Change.mailSound ?_
  exact ⟨fun _ => (nomatch ·), fun _ => (nomatch ·), List.nodup_nil⟩

end M3
end Hosted
end RootPermit
