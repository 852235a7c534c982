import OumraHajj.Groups.Attaches
import OumraHajj.Messaging.Gateway
import OumraHajj.Messaging.Runs

/-!
# Who opens a conversation

`Ouvre s u id`: the user is the pilgrim of the booking of the conversation, the owner of its agency (for the
conversation with the agency) or a guide of its agency (for the one with the guide). `assertParticipant` reads
the booking, the agency and the group in statements of their own, and what they have read stays true (`Fil`),
so whoever it lets through opens the conversation whatever requests run at once (`access_opens`). Every message
was written by somebody who opens its conversation (`Ecrits`).
-/

namespace OumraHajj.Messaging

open Async Groups

/-- What stays of a message: it is only marked as read. -/
def texte (m : Message) : ConversationId × UserId × String × Time × Time :=
  (m.conversationId, m.senderId, m.content, m.clientSentAt, m.createdAt)

/-- Conversations and messages stay, and what stays of the groups. -/
structure Fil (s s' : Store) : Prop where
  groups : Constant s.groups s'.groups
  conversations : s.conversations <+: s'.conversations
  messages : s.messages.map texte <+: s'.messages.map texte

/-- The user opens the conversations of the booking of `p` and the agency `a` (module doc). -/
def Participant (s : Store) (channel : MessagingChannel) (p : UserId) (a : AgencyId) (userId : UserId) :
    Prop :=
  userId = p ∨
    (channel = .agency ∧ (s.groups.app.agencies[a]?).map (·.ownerId) = some userId) ∨
      (channel = .guide ∧ s.groups.GuideDe userId a)

/-- The user opens the conversation (module doc). -/
def Ouvre (s : Store) (userId : UserId) (id : ConversationId) : Prop :=
  ∃ c, s.conversations[id]? = some c ∧ ∃ p a,
    (s.groups.app.bookings[c.bookingId]?).map titulaires = some (p, a) ∧ Participant s c.channel p a userId

/-- Groups stay with their agency, and messages are written by those who open their conversation. -/
structure Ecrits (s : Store) : Prop where
  attaches : Attaches s.groups
  messages : ∀ m ∈ s.messages, Ouvre s m.senderId m.conversationId

section States

variable {s s' s₁ : Store}

theorem Fil.refl (s : Store) : Fil s s := ⟨.refl _, List.prefix_rfl, List.prefix_rfl⟩

theorem Fil.trans (h : Fil s s₁) (h' : Fil s₁ s') : Fil s s' :=
  ⟨h.groups.trans h'.groups, h.conversations.trans h'.conversations, h.messages.trans h'.messages⟩

theorem Participant.fil (h : Fil s s') {channel : MessagingChannel} {p : UserId} {a : AgencyId}
    {userId : UserId} (hu : Participant s channel p a userId) : Participant s' channel p a userId := by
  rcases hu with rfl | ⟨hchannel, howner⟩ | ⟨hchannel, hguide⟩
  · exact .inl rfl
  · obtain ⟨row, hrow, howner⟩ := Option.map_eq_some_iff.mp howner
    refine .inr (.inl ⟨hchannel, ?_⟩)
    rw [get_of_grown h.groups.agencies hrow, Option.map_some, howner]
  · exact .inr (.inr ⟨hchannel, h.groups.guideDe hguide⟩)

theorem Ouvre.fil (h : Fil s s') {userId : UserId} {id : ConversationId} (hu : Ouvre s userId id) :
    Ouvre s' userId id := by
  obtain ⟨c, hc, p, a, hb, hp⟩ := hu
  exact ⟨c, get_of_grown h.conversations hc, p, a, h.groups.titulaires hb, hp.fil h⟩

/-- The messages are the same, but for their marks. -/
theorem Ecrits.of_map (hs : Ecrits s) (h : Fil s s') (ha : Attaches s'.groups)
    (hm : s'.messages.map texte = s.messages.map texte) : Ecrits s' := by
  refine ⟨ha, fun m hmem => ?_⟩
  have htexte : texte m ∈ s.messages.map texte := hm ▸ List.mem_map_of_mem hmem
  obtain ⟨m₀, hm₀, heq⟩ := List.mem_map.mp htexte
  obtain ⟨hconv, hsender, -⟩ : m₀.conversationId = m.conversationId ∧ m₀.senderId = m.senderId ∧ True :=
    ⟨congrArg Prod.fst heq, congrArg (fun x => x.2.1) heq, trivial⟩
  rw [← hconv, ← hsender]
  exact (hs.messages m₀ hm₀).fil h

end States

/-! ## The handlers -/

/-- The invariant, and what stays. -/
def filRelyOuvre : Rely Store where
  inv := Ecrits
  le := Fil
  refl := Fil.refl
  trans _ _ _ := Fil.trans

/-- The handler keeps the invariant, whatever its statements are answered. -/
abbrev Conserve {α : Type} (p : Req α) (s : Store) (Q : Except Erreur α → Store → Prop) : Prop :=
  filRelyOuvre.Keeps backend (fun _ _ _ => True) p s Q

section Handlers

variable {s : Store}

/-- A handler of the groups. -/
theorem groups_conserve {α : Type} {p : Groups.Req α} {Q : Except Erreur α → Groups.Store → Prop}
    (h : Groups.Maintient p s.groups Q) :
    Conserve (ofGroups p) s fun r s' => Fil s s' ∧ Q r s'.groups := by
  have hB : Backend.Extends (fun _ => True) Groups.backend backend Store.groups id := fun _ _ _ _ => rfl
  refine h.extend hB (fun _ _ _ _ => trivial) (fun _ (hi : Ecrits _) => hi.attaches) ?_ ?_ (Prog.uses_true p)
  · exact fun _ _ hle => hle.groups
  intro c e s hi hattaches hconstant
  have hfil : Fil s (backend.exec (.inl c) e s).2 := ⟨hconstant, List.prefix_rfl, List.prefix_rfl⟩
  exact ⟨hi.of_map hfil hattaches rfl, hfil⟩

/-- What a handler of the groups has read. -/
theorem read_conserve {α : Type} {p : Groups.Req α} {P : α → Groups.Store → Prop}
    (h : Groups.Maintient p s.groups fun r g => Constant s.groups g ∧ ∀ a, r = .ok a → P a g) :
    Conserve (ofGroups p) s fun r s' => Fil s s' ∧ ∀ a, r = .ok a → P a s'.groups :=
  (groups_conserve h).mono fun _ _ hQ => ⟨hQ.1, hQ.2.2⟩

/-- A statement that reads, and the ones that create a conversation or mark messages. -/
theorem statement_conserve {c : Stmt} (hc : ∀ id u t d, c ≠ .messageCreate id u t d) (e : Env)
    (hs : Ecrits s) : Ecrits (exec c e s).2 ∧ Fil s (exec c e s).2 := by
  have hsame : Ecrits s ∧ Fil s s := ⟨hs, .refl s⟩
  cases c with
  | conversationFindUnique id | conversationFindMany userId | messageFindMany id => exact hsame
  | conversationUpsert bookingId channel =>
    simp only [exec]
    split
    · exact hsame
    · split
      · have hfil : Fil s { s with conversations := s.conversations ++ [⟨bookingId, channel, e.now⟩] } :=
          ⟨.refl _, List.prefix_append _ _, List.prefix_rfl⟩
        exact ⟨hs.of_map hfil hs.attaches rfl, hfil⟩
      · exact hsame
  | messageCreate id u t d => exact absurd rfl (hc id u t d)
  | messageUpdateMany conversationId userId =>
    have hmap : (s.messages.map fun m =>
        if Store.nonLu conversationId userId m then { m with readAt := some e.now } else m).map texte =
          s.messages.map texte := by
      rw [List.map_map]
      refine List.map_congr_left fun m _ => ?_
      simp only [Function.comp_apply]
      split <;> rfl
    have hfil : Fil s (exec (.messageUpdateMany conversationId userId) e s).2 :=
      ⟨.refl _, List.prefix_rfl, by rw [exec, hmap]⟩
    exact ⟨hs.of_map hfil hs.attaches hmap, hfil⟩

/-- The row of a message. -/
def nouveau (conversationId : ConversationId) (senderId : UserId) (content : String) (clientSentAt : Time)
    (e : Env) : Message :=
  { conversationId, senderId, content, clientSentAt, createdAt := e.now }

/-- A message is stored, or not at all. -/
theorem message_exec (conversationId : ConversationId) (senderId : UserId) (content : String)
    (clientSentAt : Time) (e : Env) (s : Store) :
    exec (.messageCreate conversationId senderId content clientSentAt) e s =
        (.ok (s.messages.length, nouveau conversationId senderId content clientSentAt e),
          { s with messages := s.messages ++ [nouveau conversationId senderId content clientSentAt e] }) ∨
      exec (.messageCreate conversationId senderId content clientSentAt) e s = (.error "P2003", s) := by
  simp only [exec]
  split
  · exact .inl rfl
  · exact .inr rfl

/-- A message of somebody who opens the conversation. -/
theorem Ecrits.append (hs : Ecrits s) {m : Message} (hu : Ouvre s m.senderId m.conversationId) :
    Ecrits { s with messages := s.messages ++ [m] } ∧ Fil s { s with messages := s.messages ++ [m] } := by
  have hfil : Fil s { s with messages := s.messages ++ [m] } :=
    ⟨.refl _, List.prefix_rfl, (List.prefix_append _ _).map _⟩
  refine ⟨⟨hs.attaches, fun m' hm => ?_⟩, hfil⟩
  rcases List.mem_append.mp hm with hm | hm
  · exact (hs.messages m' hm).fil hfil
  · obtain rfl := List.mem_singleton.mp hm
    exact hu.fil hfil

/-- The other participant of a conversation. -/
theorem resolve_conserve {booking : BookingShape} (channel : MessagingChannel)
    (hg : ∀ i ∈ booking.groupId, s.groups.agenceDe i = some booking.agencyId) :
    Conserve (MessagingService.resolveParticipants booking channel) s fun r s' => Fil s s' ∧
      ∀ participants, r = .ok participants → participants.pilgrimId = booking.pilgrimId ∧
        Participant s' channel booking.pilgrimId booking.agencyId participants.otherId := by
  have hfail : ∀ x, Conserve (.fail x : Req Participants) s fun r s' => Fil s s' ∧
      ∀ participants, r = .ok participants → participants.pilgrimId = booking.pilgrimId ∧
        Participant s' channel booking.pilgrimId booking.agencyId participants.otherId :=
    fun x => ⟨.refl s, by rintro participants ⟨⟩⟩
  cases channel with
  | agency =>
    rintro s' e hi hle -
    refine ⟨hi, .refl s', ?_⟩
    rcases ha : s'.groups.app.agencies[booking.agencyId]? with _ | agency
    · simp only [backend, Groups.backend, Catalogue.backend, Catalogue.exec, ha]
      exact ⟨hle, by rintro participants ⟨⟩⟩
    · simp only [backend, Groups.backend, Catalogue.backend, Catalogue.exec, ha]
      refine ⟨hle, ?_⟩
      rintro participants ⟨⟩
      exact ⟨rfl, .inr (.inl ⟨rfl, congrArg (Option.map (·.ownerId)) ha⟩)⟩
  | guide =>
    simp only [MessagingService.resolveParticipants]
    rcases hgroup : booking.groupId with _ | groupId
    · exact hfail _
    refine .seq (read_conserve (find_keeps groupId)) ?_ fun x s' hle => ⟨hle, by rintro p ⟨⟩⟩
    intro group s₁ hle₁ hlu
    rcases hguide : group.guideId with _ | guideId
    · exact ⟨hle₁, by rintro p ⟨⟩⟩
    · refine ⟨hle₁, ?_⟩
      rintro participants ⟨⟩
      -- the agency of the group was read twice
      have hsame : group.agencyId = booking.agencyId := Option.some.inj
        (hlu.agence.symm.trans (hle₁.groups.agenceDe (hg groupId hgroup)))
      exact ⟨rfl, .inr (.inr ⟨rfl, hsame ▸ hlu.guide guideId hguide⟩)⟩

/-- Whoever is let through is a participant. -/
theorem participant_conserve {booking : BookingShape} {channel : MessagingChannel} {userId : UserId}
    (hg : ∀ i ∈ booking.groupId, s.groups.agenceDe i = some booking.agencyId) :
    Conserve (MessagingService.assertParticipant booking channel userId) s fun r s' => Fil s s' ∧
      ∀ participants, r = .ok participants →
        Participant s' channel booking.pilgrimId booking.agencyId userId := by
  refine .seq (resolve_conserve channel hg) ?_ fun x s' hle => ⟨hle, by rintro p ⟨⟩⟩
  rintro participants s₁ hle₁ ⟨hpilgrim, hother⟩
  by_cases hu : userId ≠ participants.pilgrimId ∧ userId ≠ participants.otherId
  · simp only [hu, ne_eq, not_false_eq_true, and_self, if_true]
    exact ⟨hle₁, by rintro p ⟨⟩⟩
  · rw [if_neg hu]
    refine ⟨hle₁, fun _ _ => ?_⟩
    by_cases hp : userId = participants.pilgrimId
    · exact .inl (hp.trans hpilgrim)
    · have ho : userId = participants.otherId := by
        by_contra hne
        exact hu ⟨hp, hne⟩
      exact ho ▸ hother

theorem conversation_conserve (id : ConversationId) :
    Conserve (MessagingService.findConversationOrFail id) s fun r s' => Fil s s' ∧
      ∀ c, r = .ok c → s'.conversations[id]? = some c := by
  rintro s' e hi hle -
  refine ⟨hi, .refl s', ?_⟩
  rcases hc : s'.conversations[id]? with _ | c
  · simp only [backend, exec, hc]
    exact ⟨hle, by rintro c ⟨⟩⟩
  · simp only [backend, exec, hc]
    refine ⟨hle, ?_⟩
    rintro _ ⟨⟩
    exact hc

/-- The conversation, its booking and its participants, and the rest. -/
theorem open_conserve {α : Type} {id : ConversationId} {userId : UserId}
    {f : Conversation → Participants → Req α} {Q : Except Erreur α → Store → Prop}
    (hf : ∀ c participants s', Fil s s' → Ouvre s' userId id → Conserve (f c participants) s' Q)
    (hx : ∀ x s', Fil s s' → Q (.error x) s') :
    Conserve (do
      let conversation ← MessagingService.findConversationOrFail id
      let booking ← app (BookingsService.findByIdOrFail conversation.bookingId)
      let participants ← MessagingService.assertParticipant booking conversation.channel userId
      f conversation participants) s Q := by
  refine .seq (conversation_conserve id) ?_ hx
  intro c s₁ hle₁ hc
  refine .seq (read_conserve (booking_keeps c.bookingId)) ?_ fun x s' hle => hx x s' (hle₁.trans hle)
  rintro booking s₂ hle₂ ⟨-, hb, hg⟩
  refine .seq (participant_conserve hg) ?_ fun x s' hle => hx x s' ((hle₁.trans hle₂).trans hle)
  intro participants s₃ hle₃ hp
  have hle : Fil s s₃ := (hle₁.trans hle₂).trans hle₃
  exact hf c participants s₃ hle ⟨c, get_of_grown (hle₂.trans hle₃).conversations hc, booking.pilgrimId,
    booking.agencyId, hle₃.groups.titulaires hb, hp⟩

/-- **Access.** Whoever is let into a conversation opens it. -/
theorem access_conserve (id : ConversationId) (userId : UserId) :
    Conserve (MessagingService.assertAccessToConversation id userId) s fun r s' => Fil s s' ∧
      ∀ c, r = .ok c → Ouvre s' userId id :=
  open_conserve (f := fun c _ => .ret c) (fun c _ s' hle hu => ⟨hle, fun _ _ => hu⟩)
    fun x s' hle => ⟨hle, by rintro c ⟨⟩⟩

/-- The message is stored, in the conversation. -/
def Enregistre (s : Store) (id : ConversationId) (message : MessageShape) : Prop :=
  message.conversationId = id ∧ (s.messages[message.id]?).map texte =
    some (id, message.senderId, message.content, message.clientSentAt, message.createdAt)

theorem Enregistre.fil {s' : Store} (h : Fil s s') {id : ConversationId} {message : MessageShape}
    (hm : Enregistre s id message) : Enregistre s' id message := by
  refine ⟨hm.1, ?_⟩
  have hget := hm.2
  rw [← List.getElem?_map] at hget ⊢
  exact get_of_grown h.messages hget

theorem envoyer_conserve (id : ConversationId) (senderId : UserId) (content : String) (clientSentAt : Time) :
    Conserve (MessagingService.envoyer id senderId content clientSentAt) s fun r s' => Fil s s' ∧
      ∀ message, r = .ok message → Enregistre s' id message := by
  refine open_conserve (fun c participants s₁ hle₁ hu => ?_) fun x s' hle => ⟨hle, by rintro m ⟨⟩⟩
  intro s₂ e hi hle₂ _
  have hs₂ : Fil s s₂ := hle₁.trans hle₂
  rcases message_exec id senderId content clientSentAt e s₂ with h | h
  · have hexec : backend.exec (.inr (.messageCreate id senderId content clientSentAt)) e s₂ = _ := h
    rw [hexec]
    obtain ⟨hinv, hle⟩ := hi.append (m := nouveau id senderId content clientSentAt e) (hu.fil hle₂)
    refine ⟨hinv, hle, ?_⟩
    change Conserve (Prog.bind (app _) _) _ _
    refine .bind ((groups_conserve (detache_keeps (app_detache _) _)).mono ?_)
    rintro (x | _) s₃ ⟨hle₃, -⟩
    · exact ⟨(hs₂.trans hle).trans hle₃, by rintro m ⟨⟩⟩
    · refine ⟨(hs₂.trans hle).trans hle₃, ?_⟩
      rintro _ ⟨⟩
      refine Enregistre.fil hle₃ ⟨rfl, ?_⟩
      show Option.map texte ((s₂.messages ++ [_])[s₂.messages.length]?) = _
      rw [Table.get_append, if_pos rfl]
      rfl
  · have hexec : backend.exec (.inr (.messageCreate id senderId content clientSentAt)) e s₂ = _ := h
    rw [hexec]
    exact ⟨hi, .refl s₂, hs₂, by rintro m ⟨⟩⟩

/-! ## Requests -/

/-- A handler that stores no message, of statements of its own. -/
theorem own_conserve {α : Type} {p : Req α}
    (hp : p.Uses fun c : sig.Stmt => ∃ q : Stmt, c = .inr q ∧ ∀ id u t d, q ≠ .messageCreate id u t d) :
    Conserve p s fun _ s' => Fil s s' := by
  refine .of_uses ?_ hp s
  rintro c ⟨q, rfl, hq⟩ s e hs -
  exact statement_conserve hq e hs

theorem access_bind {α : Type} {id : ConversationId} {userId : UserId} {f : Conversation → Req α}
    (hf : ∀ c s', Conserve (f c) s' fun _ _ => True) :
    Conserve ((MessagingService.assertAccessToConversation id userId).bind f) s fun _ _ => True :=
  .seq (access_conserve id userId) (fun c s' _ _ => hf c s') fun _ _ _ => trivial

/-- Every handler of the service. -/
theorem ecrits_conserve (q : Request) (s : Store) : Conserve (handler q) s fun _ _ => True := by
  cases q with
  | groups q => exact (groups_conserve (attaches_keeps q s.groups)).mono fun _ _ _ => trivial
  | getOrCreateConversation bookingId channel requesterId =>
    refine .void (.seq (read_conserve (booking_keeps bookingId)) ?_ fun _ _ _ => trivial)
    rintro booking s₁ - ⟨-, -, hg⟩
    refine .seq (participant_conserve hg) ?_ fun _ _ _ => trivial
    intro _ s₂ _ _
    refine .mono (fun _ _ _ => trivial) (own_conserve (s := s₂) ⟨⟨_, rfl, by rintro _ _ _ _ ⟨⟩⟩, fun r => ?_⟩)
    rcases r with code | ⟨id, conversation⟩ <;> trivial
  | joinConversation conversationId userId =>
    exact .void ((access_conserve conversationId userId).mono fun _ _ _ => trivial)
  | listMessages conversationId requesterId =>
    refine .void (access_bind fun _ s₁ => .mono (fun _ _ _ => trivial) (own_conserve (s := s₁) ?_))
    exact ⟨⟨_, rfl, by rintro _ _ _ _ ⟨⟩⟩, fun _ => trivial⟩
  | sendMessage conversationId senderId dto =>
    rw [handler, MessagingService.sendMessage_eq]
    exact .void ((envoyer_conserve conversationId senderId _ _).mono fun _ _ _ => trivial)
  | listInbox userId =>
    refine .mono (fun _ _ _ => trivial) (own_conserve (s := s) ?_)
    exact ⟨⟨_, rfl, by rintro _ _ _ _ ⟨⟩⟩, fun _ => trivial⟩
  | markAsRead conversationId userId =>
    exact access_bind fun _ s₁ => .mono (fun _ _ _ => trivial)
      (own_conserve (s := s₁) ⟨⟨_, rfl, by rintro _ _ _ _ ⟨⟩⟩, fun _ => trivial⟩)

end Handlers

end OumraHajj.Messaging
