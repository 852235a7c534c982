import OumraHajj.Groups.Roster

/-!
# Groups stay with their agency

`Attaches` is the invariant: the guide of a group is a guide of the agency of the group, and the group of a
booking is one of the agency of the booking. The handlers `assignGuide` and `assignGroup` check it in statements
before the one that writes, and what they have read stays true: `Constant` is the order of the states, and
`Lu` what stays true of a group that was read. So the invariant holds whatever requests run at once
(`groups_attached`).
-/

namespace OumraHajj.Groups

open Async

/-- The pilgrim and the agency of a booking. -/
def titulaires (b : Booking) : UserId × AgencyId := (b.pilgrimId, b.agencyId)

/-- Users, agencies and members stay; a booking stays the pilgrim's and a group the agency's. -/
structure Constant (s s' : Store) : Prop where
  users : s.app.users <+: s'.app.users
  agencies : s.app.agencies <+: s'.app.agencies
  bookings : s.app.bookings.map titulaires <+: s'.app.bookings.map titulaires
  groups : s.groups.map (·.agencyId) <+: s'.groups.map (·.agencyId)
  members : s.groupMembers ⊆ s'.groupMembers

/-- The user is a guide of the agency. -/
def Store.GuideDe (s : Store) (userId : UserId) (agencyId : AgencyId) : Prop :=
  ∃ u, s.app.users[userId]? = some u ∧ u.role = .guide ∧ u.agencyId = some agencyId

/-- The invariant (module doc). -/
structure Attaches (s : Store) : Prop where
  guides : ∀ g ∈ s.groups, ∀ u ∈ g.guideId, s.GuideDe u g.agencyId
  bookings : ∀ b ∈ s.app.bookings, ∀ i ∈ b.groupId, s.agenceDe i = some b.agencyId

section States

variable {s s' s₁ : Store}

theorem Constant.refl (s : Store) : Constant s s :=
  ⟨List.prefix_rfl, List.prefix_rfl, List.prefix_rfl, List.prefix_rfl, fun _ h => h⟩

theorem Constant.trans (h : Constant s s₁) (h' : Constant s₁ s') : Constant s s' :=
  ⟨h.users.trans h'.users, h.agencies.trans h'.agencies, h.bookings.trans h'.bookings,
    h.groups.trans h'.groups, fun _ hm => h'.members (h.members hm)⟩

/-- A row of a table that only grows. -/
theorem get_of_grown {α : Type} {t t' : List α} (h : t <+: t') {i : Nat} {x : α}
    (hx : t[i]? = some x) : t'[i]? = some x := by
  obtain ⟨l, rfl⟩ := h
  rw [List.getElem?_append_left (Table.lt_of_get hx), hx]

theorem Constant.agenceDe (h : Constant s s') {i : GroupId} {a : AgencyId}
    (ha : s.agenceDe i = some a) : s'.agenceDe i = some a := by
  rw [Store.agenceDe, ← List.getElem?_map] at ha ⊢
  exact get_of_grown h.groups ha

theorem Constant.guideDe (h : Constant s s') {u : UserId} {a : AgencyId} (hu : s.GuideDe u a) :
    s'.GuideDe u a := by
  obtain ⟨x, hx, hrole, hagency⟩ := hu
  exact ⟨x, get_of_grown h.users hx, hrole, hagency⟩

theorem Constant.agencyOf (h : Constant s s') {ownerId : UserId} {x : AgencyId × Agency}
    (hx : s.app.agencyOf ownerId = some x) : s'.app.agencyOf ownerId = some x :=
  Db.agencyOf_of_prefix h.agencies hx

/-- A booking that was read stays the pilgrim's and the agency's. -/
theorem Constant.titulaires (h : Constant s s') {id : BookingId} {x : UserId × AgencyId}
    (hx : (s.app.bookings[id]?).map titulaires = some x) :
    (s'.app.bookings[id]?).map Groups.titulaires = some x := by
  rw [← List.getElem?_map] at hx ⊢
  exact get_of_grown h.bookings hx

/-- What stays true of a group that was read. -/
structure Lu (s : Store) (id : GroupId) (group : GroupShape) : Prop where
  id_eq : group.id = id
  agence : s.agenceDe id = some group.agencyId
  guide : ∀ u ∈ group.guideId, s.GuideDe u group.agencyId
  members : ∀ u ∈ group.memberIds, ⟨id, u⟩ ∈ s.groupMembers

theorem Lu.constant {id : GroupId} {group : GroupShape} (h : Lu s id group) (hc : Constant s s') :
    Lu s' id group :=
  ⟨h.id_eq, hc.agenceDe h.agence, fun u hu => hc.guideDe (h.guide u hu),
    fun u hu => hc.members (h.members u hu)⟩

theorem Attaches.lu (hs : Attaches s) {id : GroupId} {g : Group} (hg : s.groups[id]? = some g) :
    Lu s id (toGroupShape (s.record id g)) :=
  ⟨rfl, by rw [Store.agenceDe, hg]; rfl,
    fun u hu => hs.guides g (List.mem_iff_getElem?.mpr ⟨id, hg⟩) u hu,
    fun _ hu => mem_memberIds.mp hu⟩

/-- What an ordinary statement does: what it adds is not attached to anything. -/
structure Evolue (s s' : Store) : Prop where
  constant : Constant s s'
  groups : ∀ g' ∈ s'.groups, g'.guideId = none ∨
    ∃ g ∈ s.groups, g.agencyId = g'.agencyId ∧ g.guideId = g'.guideId
  bookings : ∀ b' ∈ s'.app.bookings, b'.groupId = none ∨
    ∃ b ∈ s.app.bookings, b.agencyId = b'.agencyId ∧ b.groupId = b'.groupId

theorem Evolue.of_app (hu : s.app.users <+: s'.app.users) (ha : s.app.agencies <+: s'.app.agencies)
    (hb : s'.app.bookings.map Booking.terms = s.app.bookings.map Booking.terms)
    (hg : s'.groups = s.groups) (hm : s'.groupMembers = s.groupMembers) : Evolue s s' := by
  have htitulaires : s'.app.bookings.map titulaires = s.app.bookings.map titulaires := by
    have h := congrArg (List.map fun t : Terms => (t.pilgrimId, t.agencyId)) hb
    rwa [List.map_map, List.map_map] at h
  refine ⟨⟨hu, ha, ?_, ?_, ?_⟩, ?_, ?_⟩
  · rw [htitulaires]
  · rw [hg]
  · rw [hm]
    exact fun _ h => h
  · rw [hg]
    exact fun g h => .inr ⟨g, h, rfl, rfl⟩
  · intro b' hb'
    have hmem : b'.terms ∈ s.app.bookings.map Booking.terms := hb ▸ List.mem_map_of_mem hb'
    obtain ⟨b, hb, heq⟩ := List.mem_map.mp hmem
    exact .inr ⟨b, hb, congrArg Terms.agencyId heq, congrArg Terms.groupId heq⟩

/-- Another part of the store. -/
theorem Evolue.of_eq (happ : s'.app = s.app) (hg : s'.groups = s.groups)
    (hm : s'.groupMembers = s.groupMembers) : Evolue s s' :=
  .of_app (happ ▸ List.prefix_rfl) (happ ▸ List.prefix_rfl) (by rw [happ]) hg hm

theorem Attaches.evolue (hs : Attaches s) (h : Evolue s s') : Attaches s' := by
  refine ⟨fun g' hg' u hu => ?_, fun b' hb' i hi => ?_⟩
  · rcases h.groups g' hg' with hnone | ⟨g, hg, hagency, hguide⟩
    · rw [hnone] at hu
      cases hu
    · rw [← hagency]
      exact h.constant.guideDe (hs.guides g hg u (hguide ▸ hu))
  · rcases h.bookings b' hb' with hnone | ⟨b, hb, hagency, hgroup⟩
    · rw [hnone] at hi
      cases hi
    · rw [← hagency]
      exact h.constant.agenceDe (hs.bookings b hb i (hgroup ▸ hi))

end States

/-! ## The ordinary statements -/

section Statements

variable {s : Store}

/-- The statement gives no guide to a group, and no group to a booking. -/
def Detache : sig.Stmt → Prop
  | .inr (.groupUpdate _ _) => False
  | .inr (.bookingUpdate _ _) => False
  | _ => True

/-- The statement reads the groups, or is one of the other services. -/
def Consulte : sig.Stmt → Prop
  | .inl _ => True
  | .inr (.groupFindUnique _) => True
  | .inr (.groupFindFirst _ _ _ _) => True
  | .inr (.guideUnavailabilityFindFirst _ _ _) => True
  | .inr (.bookingFindMany _) => True
  | .inr (.userFindMany _) => True
  | .inr _ => False

/-- Users are only added. -/
theorem users_grow (c : OumraHajj.Stmt) (e : Env) (d : Db) :
    d.users <+: (OumraHajj.exec c e d).2.users := by
  cases c
  case userCreate data =>
    simp only [OumraHajj.exec]
    split
    · exact List.prefix_rfl
    · exact List.prefix_append _ _
  all_goals first
    | exact List.prefix_rfl
    | simp only [OumraHajj.exec]
      split <;> exact List.prefix_rfl

theorem evolue_prisma (c : OumraHajj.Stmt) (e : Env) (s : Store) :
    Evolue s (backend.exec (.inl (.inl c)) e s).2 := by
  by_cases hc : NoBooking c
  · exact .of_app (users_grow c e s.app) (exec_agencies c e s.app) (exec_terms hc e s.app) rfl rfl
  · cases c
    case bookingCreate pilgrimId packageId agencyId snapshot =>
      refine ⟨⟨List.prefix_rfl, List.prefix_rfl, ?_, List.prefix_rfl, fun _ h => h⟩,
        fun g h => .inr ⟨g, h, rfl, rfl⟩, fun b hb => ?_⟩
      · exact (List.prefix_append _ _).map _
      · rcases List.mem_append.mp hb with hb | hb
        · exact .inr ⟨b, hb, rfl, rfl⟩
        · obtain rfl := List.mem_singleton.mp hb
          exact .inl rfl
    all_goals exact absurd rfl hc

theorem evolue_catalogue (c : Catalogue.Stmt) (e : Env) (s : Store) :
    Evolue s (backend.exec (.inl (.inr c)) e s).2 := by
  have h : (Catalogue.exec c s.app).2.users = s.app.users ∧
      (Catalogue.exec c s.app).2.agencies = s.app.agencies ∧
      (Catalogue.exec c s.app).2.bookings = s.app.bookings := by
    cases c
    case refundPolicyTierReplace agencyId data =>
      rw [Catalogue.exec, Catalogue.replaceTiers]
      split <;> exact ⟨rfl, rfl, rfl⟩
    all_goals first
      | exact ⟨rfl, rfl, rfl⟩
      | simp only [Catalogue.exec]
        split <;> exact ⟨rfl, rfl, rfl⟩
  obtain ⟨husers, hagencies, hbookings⟩ := h
  refine .of_app ?_ ?_ ?_ rfl rfl
  · exact husers ▸ List.prefix_rfl
  · exact hagencies ▸ List.prefix_rfl
  · exact congrArg _ hbookings

theorem evolue_groups {c : Stmt} (hc : Detache (.inr c)) (e : Env) (s : Store) :
    Evolue s (exec c e s).2 := by
  cases c
  case groupCreate packageId agencyId title =>
    simp only [exec]
    split
    · refine ⟨⟨List.prefix_rfl, List.prefix_rfl, List.prefix_rfl, ?_, fun _ h => h⟩, fun g hg => ?_,
        fun b h => .inr ⟨b, h, rfl, rfl⟩⟩
      · exact (List.prefix_append _ _).map _
      · rcases List.mem_append.mp hg with hg | hg
        · exact .inr ⟨g, hg, rfl, rfl⟩
        · obtain rfl := List.mem_singleton.mp hg
          exact .inl rfl
    · exact .of_eq rfl rfl rfl
  case groupMemberCreate groupId userId =>
    have hrefl : Evolue s s := .of_eq rfl rfl rfl
    simp only [exec]
    split
    · split
      · exact hrefl
      · exact ⟨⟨List.prefix_rfl, List.prefix_rfl, List.prefix_rfl, List.prefix_rfl,
          fun _ h => List.mem_append_left _ h⟩, hrefl.groups, hrefl.bookings⟩
    · exact hrefl
  case groupUpdate => exact hc.elim
  case bookingUpdate => exact hc.elim
  all_goals first
    | exact .of_eq rfl rfl rfl
    | simp only [exec]
      split <;> exact .of_eq rfl rfl rfl

/-- Every ordinary statement. -/
theorem evolue_of_detache {c : sig.Stmt} (hc : Detache c) (e : Env) (s : Store) :
    Evolue s (backend.exec c e s).2 := by
  rcases c with (c | c) | c
  · exact evolue_prisma c e s
  · exact evolue_catalogue c e s
  · exact evolue_groups hc e s

/-- A guide of the agency gets the group. -/
theorem Attaches.groupUpdate (hs : Attaches s) {id : GroupId} {u : UserId} {a : AgencyId}
    (ha : s.agenceDe id = some a) (hu : s.GuideDe u a) (e : Env) :
    Attaches (exec (.groupUpdate id u) e s).2 ∧ Constant s (exec (.groupUpdate id u) e s).2 := by
  simp only [exec]
  split
  · next g x hg hx =>
    have hga : g.agencyId = a := by
      rw [Store.agenceDe, hg] at ha
      exact Option.some.inj ha
    have hmap : (s.groups.set id { g with guideId := some u }).map (·.agencyId) =
        s.groups.map (·.agencyId) := map_set_of_eq hg rfl
    have hconstant : Constant s { s with groups := s.groups.set id { g with guideId := some u } } :=
      ⟨List.prefix_rfl, List.prefix_rfl, List.prefix_rfl, hmap ▸ List.prefix_rfl, fun _ h => h⟩
    refine ⟨⟨fun g' hg' v hv => ?_, fun b hb i hi => hconstant.agenceDe (hs.bookings b hb i hi)⟩,
      hconstant⟩
    rcases List.mem_or_eq_of_mem_set hg' with hmem | rfl
    · exact hs.guides g' hmem v hv
    · obtain rfl := Option.some.inj hv
      exact hga ▸ hu
  · exact ⟨hs, .refl s⟩
  · exact ⟨hs, .refl s⟩

/-- The booking gets a group of its agency. -/
theorem Attaches.bookingUpdate (hs : Attaches s) {id : BookingId} {i : GroupId} {a : AgencyId}
    (hb : (s.app.bookings[id]?).map (·.agencyId) = some a) (ha : s.agenceDe i = some a) (e : Env) :
    Attaches (exec (.bookingUpdate id i) e s).2 ∧ Constant s (exec (.bookingUpdate id i) e s).2 := by
  simp only [exec]
  split
  · next b g hget hg =>
    have hba : b.agencyId = a := by
      rw [hget] at hb
      exact Option.some.inj hb
    have hmap : (s.app.bookings.set id { b with groupId := some i }).map titulaires =
        s.app.bookings.map titulaires := map_set_of_eq hget rfl
    refine ⟨⟨hs.guides, fun b' hb' j hj => ?_⟩, ?_⟩
    · rcases List.mem_or_eq_of_mem_set hb' with hmem | rfl
      · exact hs.bookings b' hmem j hj
      · obtain rfl := Option.some.inj hj
        exact hba ▸ ha
    · exact ⟨List.prefix_rfl, List.prefix_rfl, hmap ▸ List.prefix_rfl, List.prefix_rfl, fun _ h => h⟩
  · exact ⟨hs, .refl s⟩
  · exact ⟨hs, .refl s⟩

end Statements

/-! ## The handlers -/

/-- The position that a request shares: of whom, in which group, and where. -/
def Request.position : Request → Option (GroupId × UserId × ℚ × ℚ)
  | .updateLocation userId groupId lat lng => some (groupId, userId, lat, lng)
  | .triggerLostAlert pilgrimUserId groupId lat lng => some (groupId, pilgrimUserId, lat, lng)
  | _ => none

/-- Only one request gives a guide to a group, one gives a group to a booking, and a position that is shared or
erased is that of the user of the request. -/
def Ecrit (q : Request) : sig.Stmt → Prop
  | .inr (.groupUpdate _ _) => ∃ ownerId groupId guideUserId, q = .assignGuide ownerId groupId guideUserId
  | .inr (.bookingUpdate _ _) => ∃ ownerId bookingId groupId, q = .assignGroup ownerId bookingId groupId
  | .inr (.groupMemberLocationUpsert _ userId lat lng) =>
    ∃ groupId, q.position = some (groupId, userId, lat, lng)
  | .inr (.groupMemberLocationDeleteMany groupId userId) => q = .clearLocation userId groupId
  | _ => True

/-- The invariant, and what does not change. -/
def attachesRely : Rely Store where
  inv := Attaches
  le := Constant
  refl := Constant.refl
  trans _ _ _ := Constant.trans

/-- The handler keeps the invariant, whatever its statements are answered. -/
abbrev Maintient {α : Type} (p : Req α) (s : Store) (Q : Except Erreur α → Store → Prop) : Prop :=
  attachesRely.Keeps backend (fun _ _ _ => True) p s Q

section Detache

theorem app_detache {α : Type} (p : OumraHajj.Req α) : (app p).Uses Detache :=
  Prog.uses_left (fun _ => trivial) _

theorem app_consulte {α : Type} (p : OumraHajj.Req α) : (app p).Uses Consulte :=
  Prog.uses_left (fun _ => trivial) _

theorem find_consulte (id : GroupId) : (GroupsService.findByIdOrFail id).Uses Consulte := by
  refine ⟨trivial, fun r => ?_⟩
  cases r <;> trivial

theorem ownership_consulte (ownerId : UserId) (group : GroupShape) :
    (GroupsService.assertAgencyOwnership ownerId group).Uses Consulte := by
  refine (app_consulte _).bind fun agency => ?_
  split <;> trivial

theorem available_consulte (guideId : UserId) (group : GroupShape) :
    (GroupsService.assertGuideAvailable guideId group).Uses Consulte := by
  refine (app_consulte _).bind fun forfait => ?_
  rcases forfait with _ | forfait
  · trivial
  refine ⟨trivial, fun autre => ?_⟩
  rcases autre with _ | title
  · refine ⟨trivial, fun absence => ?_⟩
    cases absence <;> trivial
  · trivial

theorem alerter_consulte (group : GroupShape) (type : NotificationType) (title content : Texte)
    (isCritical : Bool) : (GroupsService.alerter group type title content isCritical).Uses Consulte := by
  unfold GroupsService.alerter
  split
  · exact app_consulte _
  · trivial

theorem triggerSos_consulte (pilgrimUserId : UserId) (groupId : GroupId) :
    (GroupsService.triggerSos pilgrimUserId groupId).Uses Consulte := by
  refine (find_consulte groupId).bind fun group => ?_
  split
  · trivial
  refine (app_consulte _).bind fun pilgrim => (alerter_consulte group _ _ _ _).bind fun _ => ?_
  split
  · split
    · trivial
    · exact app_consulte _
  · trivial

theorem Consulte.detache {c : sig.Stmt} (hc : Consulte c) : Detache c := by
  rcases c with c | c
  · trivial
  · cases c <;> first | exact hc.elim | trivial

theorem Consulte.ecrit {q : Request} {c : sig.Stmt} (hc : Consulte c) : Ecrit q c := by
  rcases c with c | c
  · trivial
  · cases c <;> first | exact hc.elim | trivial

theorem find_detache (id : GroupId) : (GroupsService.findByIdOrFail id).Uses Detache :=
  (find_consulte id).mono fun _ => Consulte.detache

theorem find_ecrit (q : Request) (id : GroupId) : (GroupsService.findByIdOrFail id).Uses (Ecrit q) :=
  (find_consulte id).mono fun _ => Consulte.ecrit

theorem ownership_ecrit (q : Request) (ownerId : UserId) (group : GroupShape) :
    (GroupsService.assertAgencyOwnership ownerId group).Uses (Ecrit q) :=
  (ownership_consulte ownerId group).mono fun _ => Consulte.ecrit

theorem addMember_ecrit (q : Request) (ownerId : UserId) (groupId : GroupId) (userId : UserId) :
    (GroupsService.addMember ownerId groupId userId).Uses (Ecrit q) := by
  refine (find_ecrit q groupId).bind fun group => (ownership_ecrit q ownerId group).bind fun _ => ?_
  split
  · exact find_ecrit q groupId
  · refine ⟨trivial, fun r => ?_⟩
    cases r with
    | error code => trivial
    | ok _ => exact find_ecrit q groupId

theorem updateLocation_ecrit {q : Request} {userId : UserId} {groupId : GroupId} {lat lng : ℚ}
    (hq : q.position = some (groupId, userId, lat, lng)) :
    (GroupsService.updateLocation userId groupId lat lng).Uses (Ecrit q) := by
  refine (find_ecrit q groupId).bind fun group => ?_
  split
  · trivial
  · refine ⟨⟨groupId, hq⟩, fun r => ?_⟩
    cases r with
    | error code => trivial
    | ok _ => exact find_ecrit q groupId

theorem handler_ecrit (q : Request) : (handler q).Uses (Ecrit q) := by
  cases q with
  | catalogue q => exact Prog.uses_left (fun _ => trivial) _
  | createGroup ownerId dto =>
    refine Prog.Uses.void (((app_consulte _).mono fun _ => Consulte.ecrit).bind fun agency =>
      ⟨trivial, fun r => ?_⟩)
    cases r <;> trivial
  | assignGuide ownerId groupId guideUserId =>
    refine Prog.Uses.void ((find_ecrit _ groupId).bind fun group => (ownership_ecrit _ ownerId group).bind
      fun _ => ((app_consulte _).mono fun _ => Consulte.ecrit).bind fun guide => ?_)
    split
    · trivial
    split
    · trivial
    refine ((available_consulte guide.id group).mono fun _ => Consulte.ecrit).bind fun _ =>
      ⟨⟨_, _, _, rfl⟩, fun r => ?_⟩
    cases r <;> trivial
  | assignGroup ownerId bookingId groupId =>
    refine Prog.Uses.void (((app_consulte _).mono fun _ => Consulte.ecrit).bind fun booking =>
      ((app_consulte _).mono fun _ => Consulte.ecrit).bind fun _ =>
        (addMember_ecrit _ ownerId groupId _).bind fun _ => ⟨⟨_, _, _, rfl⟩, fun r => ?_⟩)
    cases r <;> trivial
  | addItineraryStep ownerId groupId dto =>
    refine Prog.Uses.void ((find_ecrit _ groupId).bind fun group =>
      (ownership_ecrit _ ownerId group).bind fun _ => ⟨trivial, fun r => ?_⟩)
    cases r with
    | error code => trivial
    | ok _ => exact find_ecrit _ groupId
  | updateLocation userId groupId lat lng => exact (updateLocation_ecrit rfl).void
  | clearLocation userId groupId => exact ⟨rfl, fun _ => trivial⟩
  | triggerSos pilgrimUserId groupId =>
    exact (triggerSos_consulte pilgrimUserId groupId).mono fun _ => Consulte.ecrit
  | triggerLostAlert pilgrimUserId groupId lat lng =>
    refine (find_ecrit _ groupId).bind fun group => ?_
    split
    · trivial
    · exact (updateLocation_ecrit rfl).bind fun _ =>
        ((app_consulte _).mono fun _ => Consulte.ecrit).bind fun pilgrim =>
          (alerter_consulte group _ _ _ _).mono fun _ => Consulte.ecrit
  | replaceSpecialNeeds userId dto =>
    refine Prog.Uses.void ⟨trivial, fun r => ?_⟩
    cases r <;> trivial

/-- Every request but the two that attach. -/
theorem handler_detache (q : Request) :
    (∃ ownerId groupId guideUserId, q = .assignGuide ownerId groupId guideUserId) ∨
      (∃ ownerId bookingId groupId, q = .assignGroup ownerId bookingId groupId) ∨
        (handler q).Uses Detache := by
  by_cases hguide : ∃ ownerId groupId guideUserId, q = .assignGuide ownerId groupId guideUserId
  · exact .inl hguide
  by_cases hgroup : ∃ ownerId bookingId groupId, q = .assignGroup ownerId bookingId groupId
  · exact .inr (.inl hgroup)
  refine .inr (.inr ((handler_ecrit q).mono fun c hc => ?_))
  rcases c with c | c
  · trivial
  · cases c
    case groupUpdate => exact hguide hc
    case bookingUpdate => exact hgroup hc
    all_goals trivial

end Detache

section Handlers

variable {s : Store}

theorem detache_keeps {α : Type} {p : Req α} (hp : p.Uses Detache) (s : Store) :
    Maintient p s fun _ s' => Constant s s' :=
  .of_uses (fun _ hc s e hs _ =>
    ⟨Attaches.evolue hs (evolue_of_detache hc e s), (evolue_of_detache hc e s).constant⟩) hp s

theorem detache_bind {α β : Type} {p : Req α} {f : α → Req β} (hp : p.Uses Detache)
    (hf : ∀ a s', Constant s s' → Maintient (f a) s' fun _ _ => True) :
    Maintient (p.bind f) s fun _ _ => True := by
  refine .bind ((detache_keeps hp s).mono ?_)
  rintro (x | a) s' hle
  · trivial
  · exact hf a s' hle

/-- What has been read of a group. -/
theorem find_keeps (id : GroupId) : Maintient (GroupsService.findByIdOrFail id) s
    fun r s' => Constant s s' ∧ ∀ group, r = .ok group → Lu s' id group := by
  rintro s' e hi hle -
  refine ⟨hi, .refl s', ?_⟩
  rcases hg : s'.groups[id]? with _ | g
  · simp only [backend, exec, hg]
    exact ⟨hle, by rintro group ⟨⟩⟩
  · simp only [backend, exec, hg]
    refine ⟨hle, ?_⟩
    rintro group ⟨⟩
    exact Attaches.lu hi hg

/-- The agency of an owner. -/
theorem owner_keeps (ownerId : UserId) : Maintient (app (AgenciesService.findByOwnerOrFail ownerId)) s
    fun r s' => Constant s s' ∧ ∀ agency, r = .ok agency →
      ∃ row, s'.app.agencyOf ownerId = some (agency.id, row) := by
  rintro s' e hi hle -
  refine ⟨hi, .refl s', ?_⟩
  rcases ha : s'.app.agencyOf ownerId with _ | ⟨id, row⟩
  · simp only [backend, Catalogue.backend, prisma, OumraHajj.exec, ha]
    exact ⟨hle, by rintro agency ⟨⟩⟩
  · simp only [backend, Catalogue.backend, prisma, OumraHajj.exec, ha]
    refine ⟨hle, ?_⟩
    rintro agency ⟨⟩
    exact ⟨row, ha⟩

/-- The group is the owner's. -/
theorem ownership_keeps (ownerId : UserId) (group : GroupShape) :
    Maintient (GroupsService.assertAgencyOwnership ownerId group) s fun r s' => Constant s s' ∧
      ∀ u : Unit, r = .ok u → ∃ row, s'.app.agencyOf ownerId = some (group.agencyId, row) := by
  refine .bind ((owner_keeps ownerId).mono ?_)
  rintro (x | agency) s' ⟨hle, ha⟩
  · exact ⟨hle, by rintro u ⟨⟩⟩
  · show Maintient (if group.agencyId ≠ agency.id then _ else _) s' _
    split
    · exact ⟨hle, by rintro u ⟨⟩⟩
    · next heq =>
      obtain ⟨row, hrow⟩ := ha agency rfl
      exact ⟨hle, fun _ _ => ⟨row, not_not.mp heq ▸ hrow⟩⟩

/-- The booking is the owner's. -/
theorem bookingOwnership_keeps (ownerId : UserId) (booking : BookingShape) :
    Maintient (app (OumraHajj.BookingsService.assertAgencyOwnership ownerId booking)) s
      fun r s' => Constant s s' ∧
        ∀ u : Unit, r = .ok u → ∃ row, s'.app.agencyOf ownerId = some (booking.agencyId, row) := by
  rw [OumraHajj.BookingsService.assertAgencyOwnership, Prog.bind_eq, app, Prog.left_bind, Prog.left_bind]
  refine .bind ((owner_keeps ownerId).mono ?_)
  rintro (x | agency) s' ⟨hle, ha⟩
  · exact ⟨hle, by rintro u ⟨⟩⟩
  · by_cases heq : booking.agencyId = agency.id
    · obtain ⟨row, hrow⟩ := ha agency rfl
      simp only [heq, ne_eq, not_true_eq_false, if_false]
      exact ⟨hle, fun _ _ => ⟨row, hrow⟩⟩
    · simp only [ne_eq, heq, not_false_eq_true, if_true]
      exact ⟨hle, by rintro u ⟨⟩⟩

/-- What has been read of a booking. -/
theorem booking_keeps (id : BookingId) :
    Maintient (app (OumraHajj.BookingsService.findByIdOrFail id)) s fun r s' => Constant s s' ∧
      ∀ booking, r = .ok booking → booking.id = id ∧
        (s'.app.bookings[id]?).map titulaires = some (booking.pilgrimId, booking.agencyId) ∧
        ∀ i ∈ booking.groupId, s'.agenceDe i = some booking.agencyId := by
  rintro s' e hi hle -
  refine ⟨hi, .refl s', ?_⟩
  rcases hb : s'.app.bookings[id]? with _ | b
  · simp only [backend, Catalogue.backend, prisma, OumraHajj.exec, hb]
    exact ⟨hle, by rintro booking ⟨⟩⟩
  · simp only [backend, Catalogue.backend, prisma, OumraHajj.exec, hb]
    refine ⟨hle, ?_⟩
    rintro booking ⟨⟩
    exact ⟨rfl, congrArg (Option.map titulaires) hb,
      hi.bookings b (List.mem_iff_getElem?.mpr ⟨id, hb⟩)⟩

/-- What has been read of a user. -/
theorem user_keeps (id : UserId) : Maintient (app (OumraHajj.UsersService.findByIdOrFail id)) s
    fun r s' => Constant s s' ∧ ∀ shape, r = .ok shape → shape.id = id ∧
      ∃ u, s'.app.users[id]? = some u ∧ u.role = shape.role ∧ u.agencyId = shape.agencyId := by
  rintro s' e hi hle -
  refine ⟨hi, .refl s', ?_⟩
  rcases hu : s'.app.users[id]? with _ | u
  · simp only [backend, Catalogue.backend, prisma, OumraHajj.exec, hu]
    exact ⟨hle, by rintro shape ⟨⟩⟩
  · simp only [backend, Catalogue.backend, prisma, OumraHajj.exec, hu]
    refine ⟨hle, ?_⟩
    rintro shape ⟨⟩
    exact ⟨rfl, u, hu, rfl, rfl⟩

theorem assignGuide_keeps (ownerId : UserId) (groupId : GroupId) (guideUserId : UserId) (s : Store) :
    Maintient (GroupsService.assignGuide ownerId groupId guideUserId) s fun _ _ => True := by
  refine .seq (find_keeps groupId) ?_ fun _ _ _ => trivial
  intro group s₁ _ hlu
  refine detache_bind ((ownership_consulte ownerId group).mono fun _ => Consulte.detache) fun _ s₂ hle₂ => ?_
  refine .seq (user_keeps guideUserId) ?_ fun _ _ _ => trivial
  rintro guide s₃ hle₃ ⟨hid, u, hu, hrole, hagency⟩
  show Maintient (if guide.role ≠ .guide then _ else _) s₃ _
  split
  · trivial
  next hguide =>
  split
  · trivial
  next hatt =>
  refine detache_bind ((available_consulte guide.id group).mono fun _ => Consulte.detache) fun _ s₄ hle₄ => ?_
  rintro s₅ e hi hle₅ -
  have hlu₅ : Lu s₅ groupId group := hlu.constant (((hle₂.trans hle₃).trans hle₄).trans hle₅)
  have hguide₃ : s₃.GuideDe guideUserId group.agencyId :=
    ⟨u, hu, hrole.trans (not_not.mp hguide), hagency.trans (not_not.mp hatt)⟩
  have hguide₅ : s₅.GuideDe guideUserId group.agencyId := (hle₄.trans hle₅).guideDe hguide₃
  rw [hid, hlu₅.id_eq]
  obtain ⟨hinv, hle⟩ := Attaches.groupUpdate hi hlu₅.agence hguide₅ e
  refine ⟨hinv, hle, ?_⟩
  rcases (backend.exec (.inr (.groupUpdate groupId guideUserId)) e s₅).1 with code | updated <;> trivial

/-- The group belongs to the owner, if the member is added. -/
theorem addMember_keeps (ownerId : UserId) (groupId : GroupId) (userId : UserId) :
    Maintient (GroupsService.addMember ownerId groupId userId) s fun r s' => Constant s s' ∧
      ∀ shape, r = .ok shape → ∃ a row, s'.agenceDe groupId = some a ∧
        s'.app.agencyOf ownerId = some (a, row) := by
  refine .seq (find_keeps groupId) ?_ fun x s' hle => ⟨hle, by rintro shape ⟨⟩⟩
  intro group s₁ hle₁ hlu
  refine .seq (ownership_keeps ownerId group) ?_ fun x s' hle => ⟨hle₁.trans hle, by rintro shape ⟨⟩⟩
  rintro ⟨⟩ s₂ hle₂ ⟨row, hrow⟩
  have hrest : ∀ s₃, Constant s₂ s₃ → ∀ r : Except Erreur GroupShape, Constant s s₃ ∧
      ∀ shape, r = .ok shape → ∃ a row, s₃.agenceDe groupId = some a ∧
        s₃.app.agencyOf ownerId = some (a, row) := fun s₃ hle₃ r =>
    ⟨(hle₁.trans hle₂).trans hle₃, fun _ _ => ⟨group.agencyId, row,
      (hlu.constant (hle₂.trans hle₃)).agence, hle₃.agencyOf hrow⟩⟩
  have hfind : ∀ s₃, Constant s₂ s₃ → Maintient (GroupsService.findByIdOrFail groupId) s₃
      fun r s' => Constant s s' ∧ ∀ shape, r = .ok shape → ∃ a row, s'.agenceDe groupId = some a ∧
        s'.app.agencyOf ownerId = some (a, row) := fun s₃ hle₃ =>
    (detache_keeps (find_detache groupId) s₃).mono fun r s' hle => hrest s' (hle₃.trans hle) r
  split
  · exact hfind s₂ (.refl s₂)
  · intro s₃ e hi hle₃ _
    have h := evolue_of_detache (c := .inr (.groupMemberCreate group.id userId)) trivial e s₃
    refine ⟨Attaches.evolue hi h, h.constant, ?_⟩
    rcases (backend.exec (.inr (.groupMemberCreate group.id userId)) e s₃).1 with code | _
    · exact hrest _ (hle₃.trans h.constant) _
    · exact hfind _ (hle₃.trans h.constant)

theorem assignGroup_keeps (ownerId : UserId) (bookingId : BookingId) (groupId : GroupId) (s : Store) :
    Maintient (BookingsService.assignGroup ownerId bookingId groupId) s fun _ _ => True := by
  refine .seq (booking_keeps bookingId) ?_ fun _ _ _ => trivial
  rintro booking s₁ _ ⟨hid, htitulaires, -⟩
  refine .seq (bookingOwnership_keeps ownerId booking) ?_ fun _ _ _ => trivial
  rintro ⟨⟩ s₂ hle₂ ⟨row, hrow⟩
  refine .seq (addMember_keeps ownerId groupId booking.pilgrimId) ?_ fun _ _ _ => trivial
  rintro _ s₃ hle₃ ⟨a, row', hagence, hrow'⟩
  rintro s₄ e hi hle₄ -
  -- the agency of the owner was read twice
  have hsame : booking.agencyId = a :=
    congrArg Prod.fst (Option.some.inj ((hle₃.agencyOf hrow).symm.trans hrow'))
  have hbooking : (s₄.app.bookings[booking.id]?).map (·.agencyId) = some a := by
    have h := congrArg (Option.map Prod.snd) (((hle₂.trans hle₃).trans hle₄).titulaires htitulaires)
    rw [Option.map_map] at h
    rw [hid, ← hsame]
    exact h
  obtain ⟨hinv, hle⟩ := Attaches.bookingUpdate hi hbooking (hle₄.agenceDe hagence) e
  refine ⟨hinv, hle, ?_⟩
  rcases (backend.exec (.inr (.bookingUpdate booking.id groupId)) e s₄).1 with code | updated <;> trivial

/-- Every handler. -/
theorem attaches_keeps (q : Request) (s : Store) : Maintient (handler q) s fun _ _ => True := by
  rcases handler_detache q with
    ⟨ownerId, groupId, guideUserId, rfl⟩ | ⟨ownerId, bookingId, groupId, rfl⟩ | hq
  · exact (assignGuide_keeps ownerId groupId guideUserId s).void
  · exact (assignGroup_keeps ownerId bookingId groupId s).void
  · exact (detache_keeps hq s).mono fun _ _ _ => trivial

end Handlers

/-- **Groups stay with their agency.** Whatever requests run at once, the guide of a group is a guide of
the agency of the group, and the group of a booking is one of the agency of the booking; users, agencies and
members stay, a booking stays with its pilgrim and its agency, and a group with its agency. -/
theorem groups_attached {ι : Type} [DecidableEq ι] (requests : ι → Request) {s : Store} (hs : Attaches s)
    {c : Pool sig ι Store Erreur Unit} (hr : Pool.Reach backend Pool.anyStep (poolOf requests s) c) :
    Attaches c.st ∧ Constant s c.st := by
  have h₀ : attachesRely.inv (poolOf requests s).st := hs
  have hr' : Pool.Reach backend (Rely.cond fun _ _ _ => True) (poolOf requests s) c :=
    hr.mono fun _ _ _ _ _ _ _ => trivial
  exact Rely.reach h₀ (fun t => attaches_keeps (requests t) s) hr'

/-- The guide of the agency and the guide of another one, and a group of the agency. -/
private def deuxGuides : Store where
  app := { Db.exemple with
    users :=
      [{ fullName := "Pèlerin" }, { fullName := "Gérante" },
        { fullName := "Guide", role := .guide, agencyId := some 0 },
        { fullName := "Autre guide", role := .guide, agencyId := some 1 }]
    bookings := [Booking.exemple] }
  groups := [{ packageId := 0, agencyId := 0, title := "Groupe" }]

/-- The owner gives the group to both guides, and the booking to the group. -/
private def attribuer : Fin 3 → Request
  | 0 => .assignGuide 1 0 2
  | 1 => .assignGuide 1 0 3
  | 2 => .assignGroup 1 0 0

private def attribution : Pool sig (Fin 3) Store Erreur Unit :=
  Pool.run backend (turns (List.replicate 7 [0, 1, 2]).flatten) (poolOf attribuer deuxGuides)

/-- The three requests at once. -/
theorem groups_attached_deux :
    (attribution.st.groups.map (·.guideId) = [some 2] ∧
      attribution.st.app.bookings.map (·.groupId) = [some 0]) ∧
        Attaches attribution.st ∧ Constant deuxGuides attribution.st := by
  have hs : Attaches deuxGuides := by
    refine ⟨?_, ?_⟩
    · rintro g hg u hu
      obtain rfl := List.mem_singleton.mp hg
      cases hu
    · rintro b hb i hi
      obtain rfl := List.mem_singleton.mp hb
      cases hi
  exact ⟨by decide +kernel, groups_attached attribuer hs (Pool.Reach.run .refl _)⟩

end OumraHajj.Groups
