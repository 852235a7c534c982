import OumraHajj.Messaging.Inbox

/-!
# The inbox over whole runs

`Integre`: the foreign keys of the bookings and of the conversations. `Repond` is the condition on a
statement under which the conversations with the guide keep a guide, and `inbox_opens` the result: the inbox
lists what may be opened, but for the conversations that have lost their guide.
-/

namespace OumraHajj.Messaging

open Async

/-- The rows that others refer to exist. -/
structure Integre (s : Store) : Prop where
  packages : ∀ p ∈ s.groups.app.packages, p.agencyId < s.groups.app.agencies.length
  bookings : ∀ b ∈ s.groups.app.bookings, b.agencyId < s.groups.app.agencies.length
  conversations : ∀ c ∈ s.conversations, c.bookingId < s.groups.app.bookings.length
  messages : ∀ m ∈ s.messages, m.conversationId < s.conversations.length

/-- What the user sees in the inbox with messages is what the user may open. -/
def Accorde (s : Store) (userId : UserId) (id : ConversationId) : Prop :=
  Listee s userId id ↔ s.AUnMessage id ∧ Accessible s userId id

/-- The conversations with messages for a guide have one. -/
def SansOrphelin (s : Store) : Prop :=
  ∀ x ∈ s.conversations.withIds, s.AUnMessage x.1 → x.2.channel = .guide →
    ∀ b ∈ s.groups.app.bookings[x.2.bookingId]?, (s.guideDe b).isSome = true

section States

variable {s : Store} {userId : UserId} {id : ConversationId}

/-- The agency of a booking has its owner. -/
theorem Integre.owner (hs : Integre s) {k : BookingId} {b : Booking}
    (hb : s.groups.app.bookings[k]? = some b) : ∃ v, s.ownerDe b = some v := by
  obtain ⟨agency, ha⟩ : ∃ agency, s.groups.app.agencies[b.agencyId]? = some agency :=
    ⟨_, List.getElem?_eq_getElem (hs.bookings b (List.mem_iff_getElem?.mpr ⟨k, hb⟩))⟩
  refine ⟨agency.ownerId, ?_⟩
  rw [Store.ownerDe, ha, Option.map_some]

/-- **One state.** The filter and the code agree, but for a conversation that has lost its guide. -/
theorem Integre.accorde_iff (hs : Integre s) : Accorde s userId id ↔ ¬ Orpheline s userId id := by
  unfold Accorde
  rw [listee_iff, accessible_iff]
  constructor
  · rintro h ⟨hmessage, c, hc, hguide, b, hb, hpilgrim, hnone⟩
    obtain ⟨-, c', hc', b', hb', v, hv, -⟩ :=
      h.mp ⟨hmessage, c, hc, b, hb, concerne_iff.mpr (.inl hpilgrim)⟩
    obtain rfl := Option.some.inj (hc.symm.trans hc')
    obtain rfl := Option.some.inj (hb.symm.trans hb')
    rw [hguide, show s.autre .guide b = s.guideDe b from rfl, hnone] at hv
    cases hv
  · intro horpheline
    refine and_congr_right fun hmessage => ?_
    constructor
    · rintro ⟨c, hc, b, hb, hconcerne⟩
      refine ⟨c, hc, b, hb, ?_⟩
      rcases concerne_iff.mp hconcerne with hpilgrim | hautre
      · -- the pilgrim: there is another participant
        rcases hv : s.autre c.channel b with _ | v
        · rcases hchannel : c.channel with _ | _ <;> rw [hchannel] at hv
          · obtain ⟨v, howner⟩ := hs.owner hb
            rw [show s.autre .agency b = s.ownerDe b from rfl, howner] at hv
            cases hv
          · exact absurd ⟨hmessage, c, hc, hchannel, b, hb, hpilgrim, hv⟩ horpheline
        · exact ⟨v, rfl, .inl hpilgrim.symm⟩
      · exact ⟨userId, hautre, .inr rfl⟩
    · rintro ⟨c, hc, b, hb, v, hv, hu | rfl⟩
      · exact ⟨c, hc, b, hb, concerne_iff.mpr (.inl hu.symm)⟩
      · exact ⟨c, hc, b, hb, concerne_iff.mpr (.inr hv)⟩

theorem SansOrphelin.not_orpheline (h : SansOrphelin s) : ¬ Orpheline s userId id := by
  rintro ⟨hmessage, c, hc, hguide, b, hb, -, hnone⟩
  have := h (id, c) (Table.mem_withIds.mpr hc) hmessage hguide b hb
  rw [hnone] at this
  cases this

end States

/-! ## What a statement of the groups leaves -/

/-- Agencies, bookings and guides stay. -/
structure Suite (g g' : Groups.Store) : Prop where
  agencies : g.app.agencies <+: g'.app.agencies
  packages : (∀ p ∈ g.app.packages, p.agencyId < g.app.agencies.length) →
    ∀ p ∈ g'.app.packages, p.agencyId < g'.app.agencies.length
  bookings : g'.app.bookings.map Booking.terms = g.app.bookings.map Booking.terms
  guides : ∀ (i : Groups.GroupId) (x : Groups.Group), g.groups[i]? = some x → x.guideId.isSome = true →
    ∃ x' : Groups.Group, g'.groups[i]? = some x' ∧ x'.guideId.isSome = true

section Statements

variable {g g' : Groups.Store}

/-- The agencies of the packages stay. -/
theorem packages_of_agences (ha : g.app.agencies <+: g'.app.agencies)
    (hp : g'.app.packages.map (·.agencyId) = g.app.packages.map (·.agencyId))
    (h : ∀ p ∈ g.app.packages, p.agencyId < g.app.agencies.length) :
    ∀ p ∈ g'.app.packages, p.agencyId < g'.app.agencies.length := by
  intro p hmem
  have hmap : p.agencyId ∈ g.app.packages.map (·.agencyId) := hp ▸ List.mem_map_of_mem hmem
  obtain ⟨q, hq, heq⟩ := List.mem_map.mp hmap
  exact heq ▸ lt_of_lt_of_le (h q hq) ha.length_le

theorem Suite.refl (g : Groups.Store) : Suite g g :=
  ⟨List.prefix_rfl, fun h => h, rfl, fun _ x hx hsome => ⟨x, hx, hsome⟩⟩

theorem suite_prisma {c : OumraHajj.Stmt} (hc : NoBooking c) (e : Env) (g : Groups.Store) :
    Suite g (Groups.backend.exec (.inl (.inl c)) e g).2 := by
  have hagences := exec_agencies c e g.app
  have hoffer := congrArg (List.map Package.agencyId) (exec_offer c e g.app)
  rw [List.map_map, List.map_map] at hoffer
  exact ⟨hagences, packages_of_agences hagences hoffer, exec_terms hc e g.app,
    fun _ x hx hsome => ⟨x, hx, hsome⟩⟩

theorem suite_catalogue (c : Catalogue.Stmt) (e : Env) (g : Groups.Store) :
    Suite g (Groups.backend.exec (.inl (.inr c)) e g).2 := by
  cases c with
  | agencyFindUnique id => exact .refl g
  | packageCreate data =>
    simp only [Groups.backend, Catalogue.backend, Catalogue.exec]
    split
    · next agency ha =>
      refine ⟨List.prefix_rfl, fun h p hp => ?_, rfl, fun _ x hx hsome => ⟨x, hx, hsome⟩⟩
      rcases List.mem_append.mp hp with hp | hp
      · exact h p hp
      · obtain rfl := List.mem_singleton.mp hp
        exact Table.lt_of_get ha
    · exact .refl g
  | packageUpdate id data =>
    simp only [Groups.backend, Catalogue.backend, Catalogue.exec]
    split
    · next p hp =>
      refine ⟨List.prefix_rfl, ?_, rfl, fun _ x hx hsome => ⟨x, hx, hsome⟩⟩
      exact packages_of_agences List.prefix_rfl (map_set_of_eq hp rfl)
    · exact .refl g
  | refundPolicyTierReplace agencyId data =>
    simp only [Groups.backend, Catalogue.backend, Catalogue.exec, Catalogue.replaceTiers]
    split <;> exact ⟨List.prefix_rfl, fun h => h, rfl, fun _ x hx hsome => ⟨x, hx, hsome⟩⟩

/-- The booking and the group that a statement puts it in. -/
def deplacee : Groups.Stmt → Option (BookingId × Groups.GroupId)
  | .bookingUpdate id groupId => some (id, groupId)
  | _ => none

theorem suite_groups {c : Groups.Stmt} (hc : deplacee c = none) (e : Env) (g : Groups.Store) :
    Suite g (Groups.backend.exec (.inr c) e g).2 := by
  have hdb : ∀ g' : Groups.Store, g'.app = g.app → g'.groups = g.groups → Suite g g' := by
    intro g' happ hgroups
    refine ⟨?_, ?_, ?_, fun _ x hx hsome => ⟨x, hgroups ▸ hx, hsome⟩⟩
    · rw [happ]
    · rw [happ]
      exact fun h => h
    · rw [happ]
  cases c
  case bookingUpdate => cases hc
  case groupCreate packageId agencyId title =>
    simp only [Groups.backend, Groups.exec]
    split
    · exact ⟨List.prefix_rfl, fun h => h, rfl,
        fun _ x hx hsome => ⟨x, Table.get_append_of_get hx _, hsome⟩⟩
    · exact hdb _ rfl rfl
  case groupUpdate id guideId =>
    simp only [Groups.backend, Groups.exec]
    split
    · next x hx _ =>
      refine ⟨List.prefix_rfl, fun h => h, rfl, fun i y hy hsome => ?_⟩
      simp only [Table.get_set hx]
      split
      · exact ⟨_, rfl, rfl⟩
      · exact ⟨y, hy, hsome⟩
    · exact hdb _ rfl rfl
    · exact hdb _ rfl rfl
  case groupMemberCreate groupId userId =>
    simp only [Groups.backend, Groups.exec]
    split
    · split <;> exact hdb _ rfl rfl
    · exact hdb _ rfl rfl
  all_goals first
    | exact hdb _ rfl rfl
    | simp only [Groups.backend, Groups.exec]
      split <;> exact hdb _ rfl rfl

end Statements

/-! ## What keeps the invariants -/

section Steps

variable {s : Store}

theorem length_of_terms {d d' : Db} (h : d'.bookings.map Booking.terms = d.bookings.map Booking.terms) :
    d'.bookings.length = d.bookings.length := by
  have hlength := congrArg List.length h
  rwa [List.length_map, List.length_map] at hlength

/-- A booking has the terms that it had. -/
theorem row_of_terms {d d' : Db} (h : d'.bookings.map Booking.terms = d.bookings.map Booking.terms)
    {id : BookingId} {b' : Booking} (hb : d'.bookings[id]? = some b') :
    ∃ b : Booking, d.bookings[id]? = some b ∧ b.terms = b'.terms :=
  Table.get_of_map_prefix (h ▸ List.prefix_rfl) hb

theorem Integre.suite (hs : Integre s) {g : Groups.Store} (h : Suite s.groups g) :
    Integre { s with groups := g } := by
  refine ⟨h.packages hs.packages, fun b' hb' => ?_, fun c hc => ?_, hs.messages⟩
  · obtain ⟨k, hk⟩ := List.mem_iff_getElem?.mp hb'
    obtain ⟨b, hb, hterms⟩ := row_of_terms h.bookings hk
    have hagency : b.agencyId = b'.agencyId := congrArg Terms.agencyId hterms
    rw [← hagency]
    exact lt_of_lt_of_le (hs.bookings b (List.mem_iff_getElem?.mpr ⟨k, hb⟩)) h.agencies.length_le
  · show c.bookingId < g.app.bookings.length
    rw [length_of_terms h.bookings]
    exact hs.conversations c hc

/-- The guide of a booking is one of its group. -/
theorem guide_of_some {b : Booking} (h : (s.guideDe b).isSome = true) :
    ∃ i x, b.groupId = some i ∧ s.groups.groups[i]? = some x ∧ x.guideId.isSome = true := by
  obtain ⟨u, hu⟩ := Option.isSome_iff_exists.mp h
  obtain ⟨x, hx, hguide⟩ := Option.bind_eq_some_iff.mp hu
  obtain ⟨i, hi, hx⟩ := Option.bind_eq_some_iff.mp hx
  exact ⟨i, x, hi, hx, by rw [hguide]; rfl⟩

theorem some_of_guide {b : Booking} {i : Groups.GroupId} {x : Groups.Group} (hi : b.groupId = some i)
    (hx : s.groups.groups[i]? = some x) (h : x.guideId.isSome = true) :
    (s.guideDe b).isSome = true := by
  rw [Store.guideDe, hi, Option.bind_some, hx, Option.bind_some]
  exact h

theorem SansOrphelin.suite (hs : SansOrphelin s) {g : Groups.Store} (h : Suite s.groups g) :
    SansOrphelin { s with groups := g } := by
  intro x hx hmessage hguide b' hb'
  obtain ⟨b, hb, hterms⟩ := row_of_terms h.bookings hb'
  have hgroup : b.groupId = b'.groupId := congrArg Terms.groupId hterms
  obtain ⟨i, y, hi, hy, hsome⟩ := guide_of_some (hs x hx hmessage hguide b hb)
  obtain ⟨y', hy', hsome'⟩ := h.guides i y hy hsome
  exact some_of_guide (hgroup ▸ hi) hy' hsome'

/-- A booking with the agency of its package. -/
theorem Integre.bookingCreate (hs : Integre s) {b : Booking}
    (ha : b.agencyId < s.groups.app.agencies.length) :
    Integre { s with groups := { s.groups with app := { s.groups.app with
      bookings := s.groups.app.bookings ++ [b] } } } := by
  refine ⟨hs.packages, fun b' hb' => ?_, fun c hc => ?_, hs.messages⟩
  · rcases List.mem_append.mp hb' with hb' | hb'
    · exact hs.bookings b' hb'
    · obtain rfl := List.mem_singleton.mp hb'
      exact ha
  · show c.bookingId < (s.groups.app.bookings ++ [b]).length
    rw [List.length_append]
    exact Nat.lt_add_right _ (hs.conversations c hc)

theorem SansOrphelin.bookingCreate (hs : SansOrphelin s) (hi : Integre s) (b : Booking) :
    SansOrphelin { s with groups := { s.groups with app := { s.groups.app with
      bookings := s.groups.app.bookings ++ [b] } } } := by
  intro x hx hmessage hguide b' hb'
  have hlt := hi.conversations x.2 (List.mem_iff_getElem?.mpr ⟨x.1, Table.mem_withIds.mp hx⟩)
  have hb : (s.groups.app.bookings ++ [b])[x.2.bookingId]? = some b' := hb'
  rw [List.getElem?_append_left hlt] at hb
  exact hs x hx hmessage hguide b' hb

/-- A booking is put in a group. -/
theorem Integre.bookingUpdate (hs : Integre s) {id : BookingId} {b b' : Booking}
    (hb : s.groups.app.bookings[id]? = some b) (hagency : b'.agencyId = b.agencyId) :
    Integre { s with groups := { s.groups with app := { s.groups.app with
      bookings := s.groups.app.bookings.set id b' } } } := by
  refine ⟨hs.packages, fun x hx => ?_, fun c hc => ?_, hs.messages⟩
  · rcases List.mem_or_eq_of_mem_set hx with hx | rfl
    · exact hs.bookings x hx
    · rw [hagency]
      exact hs.bookings b (List.mem_iff_getElem?.mpr ⟨id, hb⟩)
  · show c.bookingId < (s.groups.app.bookings.set id b').length
    rw [List.length_set]
    exact hs.conversations c hc

theorem SansOrphelin.bookingUpdate (hs : SansOrphelin s) {id : BookingId} {groupId : Groups.GroupId}
    {b : Booking} {g : Groups.Group} (hb : s.groups.app.bookings[id]? = some b)
    (hg : s.groups.groups[groupId]? = some g)
    (ho : (∃ x ∈ s.conversations.withIds, x.2.bookingId = id ∧ x.2.channel = .guide ∧
      s.AUnMessage x.1) → g.guideId.isSome = true) :
    SansOrphelin { s with groups := { s.groups with app := { s.groups.app with
      bookings := s.groups.app.bookings.set id { b with groupId := some groupId } } } } := by
  intro x hx hmessage hguide b' hb'
  have hrow := (Table.get_set hb _ x.2.bookingId).symm.trans hb'
  split at hrow
  · next hid =>
    obtain rfl := Option.some.inj hrow
    exact some_of_guide rfl hg (ho ⟨x, hx, hid.symm, hguide, hmessage⟩)
  · exact hs x hx hmessage hguide b' hrow

/-- The conversation that a statement writes a message to. -/
def ecrite : Stmt → Option ConversationId
  | .messageCreate conversationId _ _ _ => some conversationId
  | _ => none

/-- A booking with messages for the guide goes to a group with a guide, and a message for the guide of a
booking is written while there is one. -/
def Repond : sig.Stmt → Store → Env → Prop
  | .inl (.inl _), _, _ => True
  | .inl (.inr c), s, _ =>
    ∀ d ∈ deplacee c, (∃ x ∈ s.conversations.withIds, x.2.bookingId = d.1 ∧ x.2.channel = .guide ∧
      s.AUnMessage x.1) → ∀ g ∈ s.groups.groups[d.2]?, g.guideId.isSome = true
  | .inr c, s, _ =>
    ∀ id ∈ ecrite c, ∀ conversation ∈ s.conversations[id]?, conversation.channel = .guide →
      ∀ b ∈ s.groups.app.bookings[conversation.bookingId]?, (s.guideDe b).isSome = true

instance : (c : sig.Stmt) → (s : Store) → (e : Env) → Decidable (Repond c s e)
  | .inl (.inl _), _, _ => isTrue trivial
  | .inl (.inr c), s, _ =>
    inferInstanceAs (Decidable (∀ d ∈ deplacee c, (∃ x ∈ s.conversations.withIds, x.2.bookingId = d.1 ∧
      x.2.channel = .guide ∧ s.AUnMessage x.1) → ∀ g ∈ s.groups.groups[d.2]?, g.guideId.isSome = true))
  | .inr c, s, _ =>
    inferInstanceAs (Decidable (∀ id ∈ ecrite c, ∀ conversation ∈ s.conversations[id]?,
      conversation.channel = .guide → ∀ b ∈ s.groups.app.bookings[conversation.bookingId]?,
        (s.guideDe b).isSome = true))

theorem Integre.messaging (hs : Integre s) (c : Stmt) (e : Env) : Integre (exec c e s).2 := by
  cases c
  case conversationUpsert bookingId channel =>
    simp only [exec]
    split
    · exact hs
    · split
      · next b hb =>
        refine ⟨hs.packages, hs.bookings, fun c hc => ?_, fun m hm => ?_⟩
        · rcases List.mem_append.mp hc with hc | hc
          · exact hs.conversations c hc
          · obtain rfl := List.mem_singleton.mp hc
            exact Table.lt_of_get hb
        · show m.conversationId < (s.conversations ++ [_]).length
          rw [List.length_append]
          exact Nat.lt_add_right _ (hs.messages m hm)
      · exact hs
  case messageCreate conversationId senderId content clientSentAt =>
    simp only [exec]
    split
    · next c _ hc _ =>
      refine ⟨hs.packages, hs.bookings, hs.conversations, fun m hm => ?_⟩
      rcases List.mem_append.mp hm with hm | hm
      · exact hs.messages m hm
      · obtain rfl := List.mem_singleton.mp hm
        exact Table.lt_of_get hc
    · exact hs
  case messageUpdateMany conversationId userId =>
    refine ⟨hs.packages, hs.bookings, hs.conversations, fun m hm => ?_⟩
    obtain ⟨m', hm', rfl⟩ := List.mem_map.mp hm
    split
    · exact hs.messages m' hm'
    · exact hs.messages m' hm'
  all_goals exact hs

theorem SansOrphelin.messaging (hs : SansOrphelin s) (hi : Integre s) {c : Stmt} {e : Env}
    (ho : Repond (.inr c) s e) : SansOrphelin (exec c e s).2 := by
  cases c
  case conversationUpsert bookingId channel =>
    simp only [exec]
    split
    · exact hs
    · split
      · rintro ⟨k, c⟩ hx hmessage
        -- a new conversation has no message
        have hk : k < s.conversations.length := by
          obtain ⟨m, hm, rfl⟩ := hmessage
          exact hi.messages m hm
        have hc := Table.mem_withIds.mp hx
        rw [List.getElem?_append_left hk] at hc
        exact hs (k, c) (Table.mem_withIds.mpr hc) hmessage
      · exact hs
  case messageCreate conversationId senderId content clientSentAt =>
    simp only [exec]
    split
    · rintro ⟨k, c⟩ hx ⟨m, hm, hid⟩ hguide
      rcases List.mem_append.mp hm with hm | hm
      · exact hs (k, c) hx ⟨m, hm, hid⟩ hguide
      · obtain rfl := List.mem_singleton.mp hm
        obtain rfl : conversationId = k := hid
        exact ho conversationId rfl c (Table.mem_withIds.mp hx) hguide
    · exact hs
  case messageUpdateMany conversationId userId =>
    rintro ⟨k, c⟩ hx ⟨m, hm, hid⟩ hguide
    obtain ⟨m', hm', rfl⟩ := List.mem_map.mp hm
    refine hs (k, c) hx ⟨m', hm', ?_⟩ hguide
    split at hid
    · exact hid
    · exact hid
  all_goals exact hs

end Steps

/-! ## Every run -/

/-- The foreign keys and `P`; agencies stay. -/
def filRely (P : Store → Prop) : Rely Store where
  inv s := Integre s ∧ P s
  le s s' := s.groups.app.agencies <+: s'.groups.app.agencies
  refl _ := List.prefix_rfl
  trans _ _ _ := List.IsPrefix.trans

/-- The statement creates no booking. -/
def Regulier : sig.Stmt → Prop
  | .inl c => Groups.SansReservation c
  | .inr _ => True

/-- The statements that satisfy `ok` keep `P`. -/
def Tient (P : Store → Prop) (ok : sig.Stmt → Store → Env → Prop) : Prop :=
  ∀ c s e, Integre s → P s → ok c s e → P (backend.exec c e s).2

section Handlers

variable {P : Store → Prop} {ok : sig.Stmt → Store → Env → Prop} {s : Store}

theorem messaging_groups (c : Stmt) (e : Env) (s : Store) : (exec c e s).2.groups = s.groups := by
  cases c
  case conversationUpsert bookingId channel =>
    simp only [exec]
    split
    · rfl
    · split <;> rfl
  all_goals first
    | rfl
    | simp only [exec]
      split <;> rfl

theorem regulier_step (ht : Tient P ok) {c : sig.Stmt} (hc : Regulier c) :
    (filRely P).Step backend ok c := by
  rintro s e ⟨hi, hP⟩ ho
  have hP' := ht c s e hi hP ho
  suffices h : Integre (backend.exec c e s).2 ∧
      s.groups.app.agencies <+: (backend.exec c e s).2.groups.app.agencies from ⟨⟨h.1, hP'⟩, h.2⟩
  rcases c with ((c | c) | c) | c
  · have h := suite_prisma hc e s.groups
    exact ⟨hi.suite h, h.agencies⟩
  · have h := suite_catalogue c e s.groups
    exact ⟨hi.suite h, h.agencies⟩
  · rcases hd : deplacee c with _ | ⟨id, groupId⟩
    · have h := suite_groups hd e s.groups
      exact ⟨hi.suite h, h.agencies⟩
    · cases c
      case bookingUpdate id groupId =>
        simp only [backend, Groups.backend, Groups.exec]
        split
        · next b _ hb _ => exact ⟨hi.bookingUpdate hb rfl, List.prefix_rfl⟩
        · exact ⟨hi, List.prefix_rfl⟩
        · exact ⟨hi, List.prefix_rfl⟩
      all_goals cases hd
  · refine ⟨hi.messaging c e, ?_⟩
    show s.groups.app.agencies <+: (exec c e s).2.groups.app.agencies
    rw [messaging_groups]

theorem regulier_keeps (ht : Tient P ok) {α : Type} {p : Req α} (hp : p.Uses Regulier) (s : Store) :
    (filRely P).Keeps backend ok p s fun _ s' => (filRely P).le s s' :=
  .of_uses (fun _ hc => regulier_step ht hc) hp s

theorem regulier_bind (ht : Tient P ok) {α β : Type} {p : Req α} {f : α → Req β} (hp : p.Uses Regulier)
    (hf : ∀ a s', (filRely P).le s s' → (filRely P).Keeps backend ok (f a) s' fun _ _ => True) :
    (filRely P).Keeps backend ok (p.bind f) s fun _ _ => True := by
  refine .bind ((regulier_keeps ht hp s).mono ?_)
  rintro (x | a) s' hle
  · trivial
  · exact hf a s' hle

theorem app_bind {α β : Type} (p : OumraHajj.Req α) (f : α → OumraHajj.Req β) :
    app (p.bind f) = (app p).bind fun a => app (f a) := by
  simp only [app, ofGroups, Groups.app, Prog.left_bind]

theorem app_regulier {α : Type} {p : OumraHajj.Req α} (hp : p.Uses NoBooking) :
    (app p).Uses Regulier := (Groups.app_sansReservation hp).left fun _ h => h

/-- The agency of a package that was found exists from then on. -/
theorem package_keeps (packageId : PackageId) (s : Store) :
    (filRely P).Keeps backend ok (app (PackagesService.findByIdOrFail packageId)) s
      fun r s' => (filRely P).le s s' ∧ ∀ pkg, r = .ok pkg →
        pkg.agencyId < s'.groups.app.agencies.length := by
  rintro s' e ⟨hi, hP⟩ hle -
  refine ⟨⟨hi, hP⟩, List.prefix_rfl, ?_⟩
  show (filRely P).Keeps backend ok (Prog.left (Prog.left (Prog.left (Prog.bind
    (.ret s'.groups.app.packages[packageId]?) _)))) s' _
  rcases hp : s'.groups.app.packages[packageId]? with _ | p
  · exact ⟨hle, by rintro pkg ⟨⟩⟩
  · refine ⟨hle, ?_⟩
    rintro pkg ⟨⟩
    exact hi.packages p (List.mem_iff_getElem?.mpr ⟨packageId, hp⟩)

theorem createBooking_keeps (ht : Tient P ok) (pilgrimId : UserId) (packageId : PackageId) (s : Store) :
    (filRely P).Keeps backend ok (app (BookingsService.create pilgrimId packageId)) s
      fun _ _ => True := by
  rw [BookingsService.create, Prog.bind_eq, app_bind]
  refine .seq (package_keeps packageId s) ?_ fun _ _ _ => trivial
  intro pkg s₁ _ hagency
  rw [Prog.bind_eq, app_bind]
  refine regulier_bind ht (app_regulier (Prog.uses_exec rfl)) fun paliers s₂ hle₂ => ?_
  rw [Prog.bind_eq, app_bind]
  refine regulier_bind ht (app_regulier (noBooking_of (courante_reserveSeat packageId)))
    fun _ s₃ hle₃ => ?_
  rintro s₄ e ⟨hi, hP⟩ hle₄ ho
  have hlt : pkg.agencyId < s₄.groups.app.agencies.length :=
    lt_of_lt_of_le hagency (hle₂.trans (hle₃.trans hle₄)).length_le
  exact ⟨⟨hi.bookingCreate hlt, ht _ s₄ e hi hP ho⟩, List.prefix_rfl, trivial⟩

theorem findBooking_regulier (id : BookingId) : (app (BookingsService.findByIdOrFail id)).Uses Regulier :=
  app_regulier (noBooking_of (courante_find id))

theorem findConversation_regulier (id : ConversationId) :
    (MessagingService.findConversationOrFail id).Uses Regulier := by
  refine ⟨trivial, fun r => ?_⟩
  cases r <;> trivial

theorem findGroup_regulier (id : Groups.GroupId) :
    (ofGroups (Groups.GroupsService.findByIdOrFail id)).Uses Regulier :=
  ((Groups.find_courante id).mono fun _ => Groups.Courante.sansReservation).left fun _ h => h

theorem participant_regulier (booking : BookingShape) (channel : MessagingChannel) (userId : UserId) :
    (MessagingService.assertParticipant booking channel userId).Uses Regulier := by
  refine Prog.Uses.bind ?_ fun participants => ?_
  · unfold MessagingService.resolveParticipants
    simp only
    split
    · refine ⟨trivial, fun r => ?_⟩
      cases r <;> trivial
    · split
      · trivial
      · refine Prog.Uses.bind (findGroup_regulier _) fun group => ?_
        split <;> trivial
  · split <;> trivial

theorem access_regulier (conversationId : ConversationId) (userId : UserId) :
    (MessagingService.assertAccessToConversation conversationId userId).Uses Regulier :=
  (findConversation_regulier conversationId).bind fun conversation =>
    (findBooking_regulier conversation.bookingId).bind fun booking =>
      (participant_regulier booking conversation.channel userId).bind fun _ => trivial

theorem sendMessage_regulier (conversationId : ConversationId) (senderId : UserId)
    (dto : SendMessageDto) :
    (MessagingService.sendMessage conversationId senderId dto).Uses Regulier := by
  refine (findConversation_regulier conversationId).bind fun conversation =>
    (findBooking_regulier conversation.bookingId).bind fun booking =>
      (participant_regulier booking conversation.channel senderId).bind fun participants =>
        ⟨trivial, fun r => ?_⟩
  rcases r with code | ⟨id, message⟩
  · trivial
  · exact (app_regulier (noBooking_of (uses_send informs_courante _))).bind fun _ => trivial

theorem handler_keeps (ht : Tient P ok) (q : Request) (s : Store) :
    (filRely P).Keeps backend ok (handler q) s fun _ _ => True := by
  have hregulier : ∀ {p : Req Unit}, p.Uses Regulier →
      (filRely P).Keeps backend ok p s fun _ _ => True :=
    fun hp => (regulier_keeps ht hp s).mono fun _ _ _ => trivial
  cases q with
  | groups q =>
    rcases Groups.handler_sansReservation q with ⟨pilgrimId, packageId, rfl⟩ | hq
    · show (filRely P).Keeps backend ok (app (BookingsService.create pilgrimId packageId).void) s _
      rw [Prog.void, app_bind]
      refine .bind ((createBooking_keeps ht pilgrimId packageId s).mono ?_)
      rintro (x | shape) s' - <;> trivial
    · exact hregulier (hq.left fun _ h => h)
  | getOrCreateConversation bookingId channel requesterId =>
    refine hregulier (Prog.Uses.void ((findBooking_regulier bookingId).bind fun booking =>
      (participant_regulier booking channel requesterId).bind fun _ => ⟨trivial, fun r => ?_⟩))
    rcases r with code | ⟨id, conversation⟩ <;> trivial
  | joinConversation conversationId userId =>
    exact hregulier (access_regulier conversationId userId).void
  | listMessages conversationId requesterId =>
    exact hregulier (Prog.Uses.void ((access_regulier conversationId requesterId).bind fun _ =>
      ⟨trivial, fun _ => trivial⟩))
  | sendMessage conversationId senderId dto =>
    exact hregulier (sendMessage_regulier conversationId senderId dto).void
  | listInbox userId => exact hregulier ⟨trivial, fun _ => trivial⟩
  | markAsRead conversationId userId =>
    exact hregulier ((access_regulier conversationId userId).bind fun _ => ⟨trivial, fun _ => trivial⟩)

theorem repond_tient : Tient SansOrphelin Repond := by
  intro c s e hi hs ho
  rcases c with ((c | c) | c) | c
  · by_cases hc : NoBooking c
    · exact hs.suite (suite_prisma hc e s.groups)
    · cases c
      case bookingCreate => exact hs.bookingCreate hi _
      all_goals exact absurd rfl hc
  · exact hs.suite (suite_catalogue c e s.groups)
  · rcases hd : deplacee c with _ | ⟨id, groupId⟩
    · exact hs.suite (suite_groups hd e s.groups)
    · cases c
      case bookingUpdate id groupId =>
        simp only [backend, Groups.backend, Groups.exec]
        split
        · next b g hb hg => exact hs.bookingUpdate hb hg fun h => ho (id, groupId) rfl h g hg
        · exact hs
        · exact hs
      all_goals cases hd
  · exact hs.messaging hi ho

end Handlers

/-- **The inbox.** In every state that the requests reach, the inbox of a user lists a conversation exactly if
it has a message and the user may open it, but for the pilgrim of a conversation that has lost its guide;
and exactly if, for all, where no conversation loses its guide. -/
theorem inbox_opens {ι : Type} [DecidableEq ι] (requests : ι → Request) {s : Store} (hs : Integre s)
    {c : Pool sig ι Store Erreur Unit} (hr : Pool.Reach backend Pool.anyStep (poolOf requests s) c) :
    (∀ userId id, Accorde c.st userId id ↔ ¬ Orpheline c.st userId id) ∧
      (SansOrphelin s → Pool.Reach backend (Rely.cond Repond) (poolOf requests s) c →
        ∀ userId id, Accorde c.st userId id) := by
  have hintegre : Integre c.st := by
    have h₀ : (filRely fun _ => True).inv (poolOf requests s).st := ⟨hs, trivial⟩
    have ht : Tient (fun _ => True) fun _ _ _ => True := fun _ _ _ _ _ _ => trivial
    have hr' : Pool.Reach backend (Rely.cond fun _ _ _ => True) (poolOf requests s) c :=
      hr.mono fun _ _ _ _ _ _ _ => trivial
    exact (Rely.reach h₀ (fun t => handler_keeps ht (requests t) s) hr').1.1
  refine ⟨fun userId id => hintegre.accorde_iff, fun h₁ hr' userId id => ?_⟩
  have h₀ : (filRely SansOrphelin).inv (poolOf requests s).st := ⟨hs, h₁⟩
  have hinv := (Rely.reach h₀ (fun t => handler_keeps repond_tient (requests t) s) hr').1
  exact hintegre.accorde_iff.mpr hinv.2.not_orpheline

/-! ## Runs on fixed inputs -/

private theorem salam_length : 1 ≤ "Salam".length := by decide

/-- The pilgrim is in the group of a guide, and there is a group without one. -/
private def deuxGroupes : Store where
  groups :=
    { app := { Db.exemple with
        users := [{ fullName := "Pèlerin" }, { fullName := "Gérante" }, { fullName := "Guide" }]
        bookings := [{ Booking.exemple with groupId := some 0 }] }
      groups :=
        [{ packageId := 0, agencyId := 0, title := "Avec guide", guideId := some 2 },
          { packageId := 0, agencyId := 0, title := "Sans guide" }] }
  conversations := [{ bookingId := 0, channel := .guide, createdAt := 0 }]

private theorem deuxGroupes_integre : Integre deuxGroupes := by
  refine ⟨?_, ?_, ?_, ?_⟩ <;> decide +kernel

private theorem deuxGroupes_sansOrphelin : SansOrphelin deuxGroupes := by
  rintro x - ⟨m, ⟨⟩, -⟩

/-- The pilgrim writes to the guide, and the agency puts the booking in a group. -/
private def ecrireDeplacer (groupId : Groups.GroupId) : Fin 2 → Request
  | 0 => .sendMessage 0 0 ⟨"Salam", 0, salam_length⟩
  | 1 => .groups (.assignGroup 1 0 groupId)

private def ecritPuisDeplace : List (Fin 2 × Env) := turns [0, 0, 0, 0, 0, 1, 1, 1, 1, 1, 1, 1, 1]

private def deplacement (groupId : Groups.GroupId) : Pool sig (Fin 2) Store Erreur Unit :=
  Pool.run backend ecritPuisDeplace (poolOf (ecrireDeplacer groupId) deuxGroupes)

/-- The booking goes to the group with the guide. -/
theorem inbox_opens_guide :
    SansOrphelin deuxGroupes ∧ ∀ userId id, Accorde (deplacement 0).st userId id := by
  have hallowed : Pool.Allowed backend (Rely.cond Repond) (poolOf (ecrireDeplacer 0) deuxGroupes)
      ecritPuisDeplace := by decide +kernel
  have hr := hallowed.reach .refl
  have hopens := inbox_opens (ecrireDeplacer 0) deuxGroupes_integre (hr.mono fun _ _ _ _ _ => trivial)
  exact ⟨deuxGroupes_sansOrphelin, hopens.2 deuxGroupes_sansOrphelin hr⟩

/-- The booking goes to the group without a guide. -/
theorem inbox_without_guide :
    ¬ ∀ (requests : Fin 2 → Request) (s : Store) (c : Pool sig (Fin 2) Store Erreur Unit), Integre s →
      SansOrphelin s → Pool.Reach backend Pool.anyStep (poolOf requests s) c →
      ∀ userId id, Accorde c.st userId id := by
  intro h
  have hr : Pool.Reach backend Pool.anyStep (poolOf (ecrireDeplacer 1) deuxGroupes) (deplacement 1) :=
    Pool.Reach.run .refl _
  have hintegre : Integre (deplacement 1).st := by
    refine ⟨?_, ?_, ?_, ?_⟩ <;> decide +kernel
  have horpheline : Orpheline (deplacement 1).st 0 0 := by decide +kernel
  exact hintegre.accorde_iff.mp
    (h (ecrireDeplacer 1) deuxGroupes _ deuxGroupes_integre deuxGroupes_sansOrphelin hr 0 0) horpheline

end OumraHajj.Messaging
