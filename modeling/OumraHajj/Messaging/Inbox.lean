import OumraHajj.Groups.Assignment
import OumraHajj.Messaging.Service

/-!
# The inbox and the access to its conversations

`listInbox` lists the conversations of a user by a filter of the database, and `assertAccessToConversation`
decides by code who may open one. They agree but for one case, `Orpheline`: a pilgrim keeps in the inbox the
conversation with the guide of a booking that has no guide any more, and may not open it.
-/

namespace OumraHajj.Messaging

open Async

namespace Store

/-- The other participant of a conversation on a booking, beside its pilgrim. -/
def autre (s : Store) (channel : MessagingChannel) (b : Booking) : Option UserId :=
  match channel with
  | .agency => s.ownerDe b
  | .guide => s.guideDe b

end Store

section Groups

variable {α : Type}

/-- The rest of the database. -/
def groupsPortion : Portion Store Groups.Store where
  get s := s.groups
  set s groups := { s with groups }
  get_set _ _ := rfl
  set_get _ := rfl
  set_set _ _ _ := rfl

theorem actsOn_groups : Groups.backend.ActsOn groupsPortion backend id := fun _ _ _ => rfl

/-- A handler of the groups runs on the rest of the database. -/
theorem groups_runs {p : Groups.Req α} {s s' : Store} {r : Except Erreur α}
    (h : backend.Runs (ofGroups p) s r s') :
    Groups.backend.Runs p s.groups r s'.groups ∧ s' = { s with groups := s'.groups } :=
  runs_portion actsOn_groups h

/-- A group that is read. -/
theorem group_runs {id : Groups.GroupId} {s s' : Store} {r : Except Erreur Groups.GroupShape}
    (h : backend.Runs (ofGroups (Groups.GroupsService.findByIdOrFail id)) s r s') : s' = s ∧
      ((∃ g, s.groups.groups[id]? = some g ∧ r = .ok (Groups.toGroupShape (s.groups.record id g))) ∨
        (s.groups.groups[id]? = none ∧ ∃ x, r = .error x)) := by
  obtain ⟨hrun, hs'⟩ := groups_runs h
  obtain ⟨hsame, hr⟩ := Groups.find_runs hrun
  exact ⟨by rw [hs', hsame], hr⟩

/-- A booking that is read. -/
theorem bookingFind_runs {id : BookingId} {s s' : Store} {r : Except Erreur BookingShape}
    (h : backend.Runs (app (BookingsService.findByIdOrFail id)) s r s') : s' = s ∧
      ((∃ b, s.groups.app.bookings[id]? = some b ∧ r = .ok (toBookingShape id b)) ∨
        (s.groups.app.bookings[id]? = none ∧ ∃ x, r = .error x)) := by
  obtain ⟨hrun, hs'⟩ := groups_runs h
  obtain ⟨hrun, hsame⟩ := Groups.app_reads (Groups.booking_reads id) hrun
  exact ⟨by rw [hs', hsame], Groups.booking_runs hrun⟩

end Groups

/-- The user may open the conversation. -/
def Accessible (s : Store) (userId : UserId) (id : ConversationId) : Prop :=
  ∃ conversation s', backend.Runs (MessagingService.assertAccessToConversation id userId) s
    (.ok conversation) s'

/-- The inbox of the user has the conversation. -/
def Listee (s : Store) (userId : UserId) (id : ConversationId) : Prop :=
  ∃ liste s', backend.Runs (MessagingInboxService.listInbox userId) s (.ok liste) s' ∧
    ∃ x ∈ liste, x.id = id

/-- The user is the pilgrim of a conversation with messages for the guide, and there is no guide. -/
def Orpheline (s : Store) (userId : UserId) (id : ConversationId) : Prop :=
  s.AUnMessage id ∧ ∃ c ∈ s.conversations[id]?, c.channel = .guide ∧
    ∃ b ∈ s.groups.app.bookings[c.bookingId]?, b.pilgrimId = userId ∧ s.guideDe b = none

instance (s : Store) (userId : UserId) (id : ConversationId) : Decidable (Orpheline s userId id) :=
  inferInstanceAs (Decidable (_ ∧ ∃ _ ∈ _, _ ∧ ∃ _ ∈ _, _ ∧ _))

section Specs

variable {s s' : Store}

theorem concerne_iff {userId : UserId} {c : Conversation} {b : Booking} :
    s.Concerne userId c b ↔ b.pilgrimId = userId ∨ s.autre c.channel b = some userId := by
  unfold Store.Concerne Store.autre
  rcases c.channel <;> simp

theorem resolve_runs {id : BookingId} {b : Booking} {channel : MessagingChannel}
    {r : Except Erreur Participants}
    (h : backend.Runs (MessagingService.resolveParticipants (toBookingShape id b) channel) s r s') :
    s' = s ∧ ((∃ v, s.autre channel b = some v ∧ r = .ok ⟨b.pilgrimId, v⟩) ∨
      (s.autre channel b = none ∧ ∃ x, r = .error x)) := by
  cases channel with
  | agency =>
    obtain ⟨e, h⟩ := h
    rcases ha : s.groups.app.agencies[b.agencyId]? with _ | agency
    · have hautre : s.autre .agency b = none := by simp [Store.autre, Store.ownerDe, ha]
      simp only [backend, Groups.backend, Catalogue.backend, Catalogue.exec, toBookingShape, ha] at h
      exact ⟨h.2, .inr ⟨hautre, _, h.1⟩⟩
    · have hautre : s.autre .agency b = some agency.ownerId := by simp [Store.autre, Store.ownerDe, ha]
      simp only [backend, Groups.backend, Catalogue.backend, Catalogue.exec, toBookingShape, ha] at h
      exact ⟨h.2, .inl ⟨_, hautre, h.1⟩⟩
  | guide =>
    have hautre : s.autre .guide b = s.guideDe b := rfl
    rw [hautre, Store.guideDe]
    simp only [MessagingService.resolveParticipants, toBookingShape] at h
    rcases hb : b.groupId with _ | groupId
    · rw [hb] at h
      exact ⟨h.2, .inr ⟨rfl, _, h.1⟩⟩
    rw [hb] at h
    rcases Backend.runs_bind.mp h with ⟨group, s₁, hgroup, h⟩ | ⟨x, hgroup, hr⟩
    · obtain ⟨rfl, ⟨g, hg, hshape⟩ | ⟨-, x, hx⟩⟩ := group_runs hgroup
      swap
      · cases hx
      obtain rfl := Except.ok.inj hshape
      rw [Option.bind_some, hg, Option.bind_some]
      rcases hguide : g.guideId with _ | guideId
      · simp only [Groups.toGroupShape, Groups.Store.record, hguide] at h
        exact ⟨h.2, .inr ⟨rfl, _, h.1⟩⟩
      · simp only [Groups.toGroupShape, Groups.Store.record, hguide] at h
        exact ⟨h.2, .inl ⟨guideId, rfl, h.1⟩⟩
    · obtain ⟨rfl, ⟨g, -, hx⟩ | ⟨hnone, -⟩⟩ := group_runs hgroup
      · cases hx
      · rw [Option.bind_some, hnone]
        exact ⟨rfl, .inr ⟨rfl, x, hr⟩⟩

theorem participant_runs {id : BookingId} {b : Booking} {channel : MessagingChannel} {userId : UserId}
    {r : Except Erreur Participants}
    (h : backend.Runs (MessagingService.assertParticipant (toBookingShape id b) channel userId) s r s') :
    s' = s ∧ ((∃ p, r = .ok p) ↔ ∃ v ∈ s.autre channel b, userId = b.pilgrimId ∨ userId = v) := by
  rcases Backend.runs_bind.mp h with ⟨participants, s₁, hp, h⟩ | ⟨x, hp, hr⟩
  · obtain ⟨rfl, ⟨v, hv, hparticipants⟩ | ⟨-, x, hx⟩⟩ := resolve_runs hp
    swap
    · cases hx
    obtain rfl := Except.ok.inj hparticipants
    split at h
    · next hne =>
      obtain ⟨rfl, rfl⟩ := h
      refine ⟨rfl, by rintro ⟨p, ⟨⟩⟩, ?_⟩
      rintro ⟨v', hv', hu⟩
      obtain rfl := Option.some.inj (hv.symm.trans hv')
      exact absurd hu (not_or.mpr hne)
    · next heq =>
      obtain ⟨rfl, rfl⟩ := h
      refine ⟨rfl, fun _ => ⟨v, hv, ?_⟩, fun _ => ⟨_, rfl⟩⟩
      by_contra hne
      exact heq (not_or.mp hne)
  · obtain ⟨rfl, ⟨v, hv, hx⟩ | ⟨hnone, -⟩⟩ := resolve_runs hp
    · cases hx
    refine ⟨rfl, ?_, ?_⟩
    · rintro ⟨p, rfl⟩
      cases hr
    · rintro ⟨v, hv, -⟩
      rw [hnone] at hv
      cases hv

/-- The conversation exists, with its booking, and the user is one of the two participants. -/
def Participe (s : Store) (userId : UserId) (id : ConversationId) : Prop :=
  ∃ c ∈ s.conversations[id]?, ∃ b ∈ s.groups.app.bookings[c.bookingId]?, ∃ v ∈ s.autre c.channel b,
    userId = b.pilgrimId ∨ userId = v

theorem conversation_runs {id : ConversationId} {r : Except Erreur Conversation}
    (h : backend.Runs (MessagingService.findConversationOrFail id) s r s') : s' = s ∧
      ((∃ c, s.conversations[id]? = some c ∧ r = .ok c) ∨
        (s.conversations[id]? = none ∧ ∃ x, r = .error x)) := by
  obtain ⟨e, h⟩ := h
  rcases hc : s.conversations[id]? with _ | c
  · simp only [backend, exec, hc] at h
    exact ⟨h.2, .inr ⟨rfl, _, h.1⟩⟩
  · simp only [backend, exec, hc] at h
    exact ⟨h.2, .inl ⟨c, rfl, h.1⟩⟩

theorem access_runs {id : ConversationId} {userId : UserId} {r : Except Erreur Conversation}
    (h : backend.Runs (MessagingService.assertAccessToConversation id userId) s r s') :
    s' = s ∧ ((∃ c, r = .ok c) ↔ Participe s userId id) := by
  rcases Backend.runs_bind.mp h with ⟨c, s₁, hc, h₁⟩ | ⟨x, hc, rfl⟩
  swap
  · obtain ⟨rfl, ⟨c, -, hx⟩ | ⟨hnone, -⟩⟩ := conversation_runs hc
    · cases hx
    refine ⟨rfl, by rintro ⟨c, ⟨⟩⟩, ?_⟩
    rintro ⟨c, hc', -⟩
    rw [hnone] at hc'
    cases hc'
  obtain ⟨rfl, ⟨c, hc, hconversation⟩ | ⟨-, x, hx⟩⟩ := conversation_runs hc
  swap
  · cases hx
  obtain rfl := Except.ok.inj hconversation
  rcases Backend.runs_bind.mp h₁ with ⟨booking, s₂, hrun, h₂⟩ | ⟨x, hrun, rfl⟩
  swap
  · obtain ⟨rfl, ⟨b, -, hx⟩ | ⟨hnone, -⟩⟩ := bookingFind_runs hrun
    · cases hx
    refine ⟨rfl, by rintro ⟨c, ⟨⟩⟩, ?_⟩
    rintro ⟨c', hc', b, hb', -⟩
    obtain rfl := Option.some.inj (hc.symm.trans hc')
    rw [hnone] at hb'
    cases hb'
  obtain ⟨rfl, ⟨b, hb, hbooking⟩ | ⟨-, x, hx⟩⟩ := bookingFind_runs hrun
  swap
  · cases hx
  obtain rfl := Except.ok.inj hbooking
  have hiff : Participe s₂ userId id ↔
      ∃ v ∈ s₂.autre c.channel b, userId = b.pilgrimId ∨ userId = v := by
    constructor
    · rintro ⟨c', hc', b', hb', h⟩
      obtain rfl := Option.some.inj (hc.symm.trans hc')
      obtain rfl := Option.some.inj (hb.symm.trans hb')
      exact h
    · exact fun h => ⟨c, hc, b, hb, h⟩
  rcases Backend.runs_bind.mp h₂ with ⟨p, s₃, hp, rfl, rfl⟩ | ⟨x, hp, rfl⟩
  · obtain ⟨rfl, hok⟩ := participant_runs hp
    exact ⟨rfl, fun _ => hiff.mpr (hok.mp ⟨p, rfl⟩), fun _ => ⟨c, rfl⟩⟩
  · obtain ⟨rfl, hok⟩ := participant_runs hp
    refine ⟨rfl, by rintro ⟨c, ⟨⟩⟩, fun h => ?_⟩
    obtain ⟨p, ⟨⟩⟩ := hok.mpr (hiff.mp h)

theorem accessible_iff {userId : UserId} {id : ConversationId} :
    Accessible s userId id ↔ Participe s userId id := by
  constructor
  · rintro ⟨c, s', h⟩
    exact (access_runs h).2.mp ⟨c, rfl⟩
  · intro h
    have hrun := Backend.eval_runs (B := backend) {} (MessagingService.assertAccessToConversation id userId) s
    obtain ⟨c, hc⟩ := (access_runs hrun).2.mpr h
    exact ⟨c, _, hc ▸ hrun⟩

/-- The line of a conversation in an inbox. -/
theorem mem_toInbox {userId : UserId} {row : InboxRow} {x : InboxConversationShape}
    (h : x ∈ MessagingInboxService.toInboxConversation userId row) : x.id = row.id := by
  unfold MessagingInboxService.toInboxConversation at h
  split at h
  · cases h
  · obtain rfl := List.mem_singleton.mp h
    rfl

theorem toInbox_of_message {userId : UserId} {id : ConversationId} {c : Conversation} {b : Booking}
    (h : s.AUnMessage id) : ∃ x ∈ MessagingInboxService.toInboxConversation userId
      (s.inboxRow userId id c b), x.id = id := by
  obtain ⟨m, hm, hid⟩ := h
  -- the latest message is there
  have hne : (s.inboxRow userId id c b).messages ≠ [] := by
    have hmem : m ∈ ((s.messagesOf id).map Prod.snd).insertionSort fun x y => y.createdAt ≤ x.createdAt := by
      rw [List.mem_insertionSort]
      obtain ⟨k, hk⟩ := List.mem_iff_getElem?.mp hm
      exact List.mem_map.mpr ⟨(k, m), List.mem_filter.mpr
        ⟨Table.mem_withIds.mpr hk, decide_eq_true hid⟩, rfl⟩
    intro hnil
    rcases List.take_eq_nil_iff.mp hnil with h | h
    · cases h
    · rw [h] at hmem
      cases hmem
  unfold MessagingInboxService.toInboxConversation
  split
  · next hnil => exact absurd hnil hne
  · exact ⟨_, List.mem_singleton_self _, rfl⟩

theorem mem_inboxRows {userId : UserId} {row : InboxRow} : row ∈ s.inboxRows userId ↔ ∃ k c b,
    s.conversations[k]? = some c ∧ s.groups.app.bookings[c.bookingId]? = some b ∧
      (s.AUnMessage k ∧ s.Concerne userId c b) ∧ row = s.inboxRow userId k c b := by
  unfold Store.inboxRows
  rw [List.mem_filterMap]
  constructor
  · rintro ⟨⟨k, c⟩, hc, hrow⟩
    obtain ⟨b, hb, hrow⟩ := Option.bind_eq_some_iff.mp hrow
    obtain ⟨hcond, hrow⟩ := Option.ite_none_right_eq_some.mp hrow
    exact ⟨k, c, b, Table.mem_withIds.mp hc, hb, hcond, (Option.some.inj hrow).symm⟩
  · rintro ⟨k, c, b, hc, hb, hcond, rfl⟩
    refine ⟨(k, c), Table.mem_withIds.mpr hc, Option.bind_eq_some_iff.mpr ⟨b, hb, ?_⟩⟩
    exact if_pos hcond

theorem listee_iff {userId : UserId} {id : ConversationId} :
    Listee s userId id ↔ s.AUnMessage id ∧ ∃ c ∈ s.conversations[id]?,
      ∃ b ∈ s.groups.app.bookings[c.bookingId]?, s.Concerne userId c b := by
  constructor
  · rintro ⟨liste, s', ⟨e, hliste, -⟩, x, hx, rfl⟩
    obtain rfl := Except.ok.inj hliste
    obtain ⟨row, hmem, hx⟩ := List.mem_flatMap.mp (List.mem_mergeSort.mp hx)
    obtain ⟨k, c, b, hc, hb, ⟨hmessage, hconcerne⟩, rfl⟩ := mem_inboxRows.mp hmem
    obtain rfl : x.id = k := mem_toInbox hx
    exact ⟨hmessage, c, hc, b, hb, hconcerne⟩
  · rintro ⟨hmessage, c, hc, b, hb, hconcerne⟩
    obtain ⟨x, hx, hid⟩ := @toInbox_of_message s userId _ c b hmessage
    refine ⟨_, _, ⟨{}, rfl, rfl⟩, x, List.mem_mergeSort.mpr (List.mem_flatMap.mpr
      ⟨s.inboxRow userId id c b, ?_, hx⟩), hid⟩
    exact mem_inboxRows.mpr ⟨id, c, b, hc, hb, ⟨hmessage, hconcerne⟩, rfl⟩

end Specs

end OumraHajj.Messaging
