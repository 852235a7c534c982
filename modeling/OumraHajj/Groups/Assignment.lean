import OumraHajj.Groups.Handlers
import OumraHajj.Spec.Packages

/-!
# What the requests on groups do

`assignGroup_runs`: a booking is put in a group together with its pilgrim, or nothing is done. `Laisse`:
the other requests but a cancellation keep the members and the bookings that are not cancelled.
-/

namespace OumraHajj.Groups

open Async

section App

variable {α : Type}

/-- The rest of the database. -/
def appPortion : Portion Store Db where
  get s := s.app
  set s app := { s with app }
  get_set _ _ := rfl
  set_get _ := rfl
  set_set _ _ _ := rfl

theorem actsOn_app : Catalogue.backend.ActsOn appPortion backend id := fun _ _ _ => rfl

/-- A handler of the other services runs on the rest of the database. -/
theorem app_runs {p : OumraHajj.Req α} {s s' : Store} {r : Except Erreur α}
    (h : backend.Runs (app p) s r s') : prisma.Runs p s.app r s'.app ∧ s' = { s with app := s'.app } :=
  (runs_portion actsOn_app h).imp_left Catalogue.runs_left

/-- A handler that only reads. -/
theorem app_reads {p : OumraHajj.Req α} {s s' : Store} {r : Except Erreur α}
    (hp : p.Uses ReadOnly) (h : backend.Runs (app p) s r s') : prisma.Runs p s.app r s.app ∧ s' = s := by
  obtain ⟨hrun, hs'⟩ := app_runs h
  have hsame := state_of_uses hp hrun
  rw [hsame] at hrun hs'
  exact ⟨hrun, hs'⟩

end App

variable {s s' : Store}

theorem owner_reads (ownerId : UserId) :
    (AgenciesService.findByOwnerOrFail ownerId).Uses ReadOnly := by
  refine ⟨fun _ _ => rfl, fun r => ?_⟩
  rcases r with _ | ⟨id, agency⟩ <;> trivial

/-- The agency that is found is the one of the owner, if the owner has one. -/
theorem owner_id_iff {ownerId : UserId} {d d' : Db} {r : Except Erreur AgencyShape}
    (h : prisma.Runs (AgenciesService.findByOwnerOrFail ownerId) d r d') :
    (∃ shape, r = .ok shape ∧ ∀ agencyId,
      agencyId = shape.id ↔ ∃ agency, d.agencyOf ownerId = some (agencyId, agency)) ∨
    ((∀ agencyId agency, d.agencyOf ownerId ≠ some (agencyId, agency)) ∧ ∃ x, r = .error x) := by
  rcases (owner_runs h).2 with ⟨id, agency, hagency, rfl⟩ | ⟨hnone, x, rfl⟩
  · refine .inl ⟨_, rfl, fun agencyId => ⟨?_, ?_⟩⟩
    · rintro rfl
      exact ⟨agency, hagency⟩
    · rintro ⟨agency', hagency'⟩
      rw [hagency] at hagency'
      exact (congrArg Prod.fst (Option.some.inj hagency')).symm
  · refine .inr ⟨fun agencyId agency hagency => ?_, x, rfl⟩
    rw [hnone] at hagency
    cases hagency

/-- The group belongs to the agency of the owner, or the request is refused. -/
theorem ownership_runs {ownerId : UserId} {group : GroupShape} {r : Except Erreur Unit}
    (h : backend.Runs (GroupsService.assertAgencyOwnership ownerId group) s r s') : s' = s ∧
      ((∃ agency, s.app.agencyOf ownerId = some (group.agencyId, agency)) ∧ r = .ok () ∨
        (∀ agency, s.app.agencyOf ownerId ≠ some (group.agencyId, agency)) ∧ ∃ x, r = .error x) := by
  rcases Backend.runs_bind.mp h with ⟨shape, s₁, hown, h₁⟩ | ⟨x, hown, hr⟩
  · obtain ⟨hown, rfl⟩ := app_reads (owner_reads ownerId) hown
    rcases owner_id_iff hown with ⟨_, hshape, hid⟩ | ⟨-, x, hx⟩
    · obtain rfl := Except.ok.inj hshape
      split at h₁
      · next hne =>
        obtain ⟨rfl, rfl⟩ := h₁
        exact ⟨rfl, .inr ⟨fun agency hagency => hne ((hid _).mpr ⟨agency, hagency⟩), _, rfl⟩⟩
      · next heq =>
        obtain ⟨rfl, rfl⟩ := h₁
        exact ⟨rfl, .inl ⟨(hid _).mp (not_not.mp heq), rfl⟩⟩
    · cases hx
  · obtain ⟨hown, rfl⟩ := app_reads (owner_reads ownerId) hown
    rcases owner_id_iff hown with ⟨_, hshape, -⟩ | ⟨hnone, -⟩
    · cases hshape
    · exact ⟨rfl, .inr ⟨hnone _, x, hr⟩⟩

theorem find_runs {id : GroupId} {r : Except Erreur GroupShape}
    (h : backend.Runs (GroupsService.findByIdOrFail id) s r s') : s' = s ∧
      ((∃ g, s.groups[id]? = some g ∧ r = .ok (toGroupShape (s.record id g))) ∨
        (s.groups[id]? = none ∧ ∃ x, r = .error x)) := by
  obtain ⟨e, h⟩ := h
  rcases hg : s.groups[id]? with _ | g
  · simp only [backend, exec, hg] at h
    exact ⟨h.2, .inr ⟨rfl, _, h.1⟩⟩
  · simp only [backend, exec, hg] at h
    exact ⟨h.2, .inl ⟨g, rfl, h.1⟩⟩

/-- A group that is there is found. -/
theorem find_ok {id : GroupId} {g : Group} (hg : s.groups[id]? = some g)
    {r : Except Erreur GroupShape} (h : backend.Runs (GroupsService.findByIdOrFail id) s r s') :
    s' = s ∧ ∃ shape, r = .ok shape := by
  obtain ⟨rfl, ⟨g', -, hr⟩ | ⟨hnone, -⟩⟩ := find_runs h
  · exact ⟨rfl, _, hr⟩
  · rw [hg] at hnone
    cases hnone

/-- `group.memberIds.includes(userId)`. -/
theorem mem_memberIds {id : GroupId} {g : Group} {userId : UserId} :
    userId ∈ (toGroupShape (s.record id g)).memberIds ↔ ⟨id, userId⟩ ∈ s.groupMembers := by
  constructor
  · intro h
    obtain ⟨m, hm, rfl⟩ := List.mem_map.mp h
    obtain ⟨hm, hid⟩ := List.mem_filter.mp hm
    exact (of_decide_eq_true hid) ▸ hm
  · exact fun h => List.mem_map.mpr ⟨⟨id, userId⟩, List.mem_filter.mpr ⟨h, decide_eq_true rfl⟩, rfl⟩

/-- The member is added, unless it is one already. -/
def Store.ajoute (s : Store) (m : GroupMember) : Store :=
  if m ∈ s.groupMembers then s else { s with groupMembers := s.groupMembers ++ [m] }

@[simp] theorem ajoute_groups (s : Store) (m : GroupMember) : (s.ajoute m).groups = s.groups := by
  unfold Store.ajoute
  split <;> rfl

@[simp] theorem ajoute_app (s : Store) (m : GroupMember) : (s.ajoute m).app = s.app := by
  unfold Store.ajoute
  split <;> rfl

theorem mem_ajoute {m x : GroupMember} :
    x ∈ (s.ajoute m).groupMembers ↔ x = m ∨ x ∈ s.groupMembers := by
  unfold Store.ajoute
  split
  · next hm => exact ⟨.inr, fun h => h.elim (fun h => h ▸ hm) id⟩
  · rw [List.mem_append, List.mem_singleton, or_comm]

/-- The owner can add the member: the group is of the agency of the owner, and the user exists. -/
def Store.Ajoutable (s : Store) (ownerId : UserId) (m : GroupMember) : Prop :=
  ∃ g agency, s.groups[m.groupId]? = some g ∧ s.app.agencyOf ownerId = some (g.agencyId, agency) ∧
    (m ∈ s.groupMembers ∨ ∃ u, s.app.users[m.userId]? = some u)

theorem creerMembre_refuse {e : Env} {groupId : GroupId} {userId : UserId} {g : Group}
    (hg : s.groups[groupId]? = some g) (hu : s.app.users[userId]? = none) :
    backend.exec (.inr (.groupMemberCreate groupId userId)) e s = (.error "P2003", s) := by
  simp only [backend, exec, hg, hu]
  rfl

theorem creerMembre_ajoute {e : Env} {groupId : GroupId} {userId : UserId} {g : Group} {u : User}
    (hg : s.groups[groupId]? = some g) (hm : ⟨groupId, userId⟩ ∉ s.groupMembers)
    (hu : s.app.users[userId]? = some u) :
    backend.exec (.inr (.groupMemberCreate groupId userId)) e s =
      (.ok (), s.ajoute ⟨groupId, userId⟩) := by
  simp only [backend, exec, hg, hu, if_neg hm, Store.ajoute]
  rfl

theorem addMember_runs {ownerId : UserId} {groupId : GroupId} {userId : UserId}
    {r : Except Erreur GroupShape}
    (h : backend.Runs (GroupsService.addMember ownerId groupId userId) s r s') :
    (s.Ajoutable ownerId ⟨groupId, userId⟩ ∧ s' = s.ajoute ⟨groupId, userId⟩ ∧ ∃ shape, r = .ok shape) ∨
      (¬ s.Ajoutable ownerId ⟨groupId, userId⟩ ∧ s' = s ∧ ∃ x, r = .error x) := by
  rcases Backend.runs_bind.mp h with ⟨group, s₁, hfind, h⟩ | ⟨x, hfind, hr⟩
  swap
  · obtain ⟨rfl, ⟨g, -, hg⟩ | ⟨hnone, -⟩⟩ := find_runs hfind
    · cases hg
    · refine .inr ⟨?_, rfl, x, hr⟩
      rintro ⟨g, -, hg, -⟩
      rw [hnone] at hg
      cases hg
  obtain ⟨rfl, ⟨g, hg, hgroup⟩ | ⟨-, x, hx⟩⟩ := find_runs hfind
  swap
  · cases hx
  obtain rfl := Except.ok.inj hgroup
  rcases Backend.runs_bind.mp h with ⟨_, s₂, hown, h⟩ | ⟨x, hown, hr⟩
  swap
  · obtain ⟨rfl, ⟨-, hx⟩ | ⟨hnot, -⟩⟩ := ownership_runs hown
    · cases hx
    · refine .inr ⟨?_, rfl, x, hr⟩
      rintro ⟨g', agency, hg', hagency, -⟩
      obtain rfl := Option.some.inj (hg.symm.trans hg')
      exact hnot agency hagency
  obtain ⟨rfl, ⟨⟨agency, hagency⟩, -⟩ | ⟨-, x, hx⟩⟩ := ownership_runs hown
  swap
  · cases hx
  -- what remains is the member: one already, or a new one
  split at h
  · next hmem =>
    have hm := mem_memberIds.mp hmem
    obtain ⟨rfl, hr⟩ := find_ok hg h
    exact .inl ⟨⟨g, agency, hg, hagency, .inl hm⟩, (if_pos hm).symm, hr⟩
  · next hmem =>
    have hm : ⟨groupId, userId⟩ ∉ s₂.groupMembers := fun hm => hmem (mem_memberIds.mpr hm)
    obtain ⟨e, h⟩ := h
    rcases hu : s₂.app.users[userId]? with _ | u
    · have hexec : backend.exec (.inr (.groupMemberCreate (toGroupShape (s₂.record groupId g)).id
          userId)) e s₂ = (.error "P2003", s₂) := creerMembre_refuse hg hu
      rw [hexec] at h
      refine .inr ⟨?_, h.2, _, h.1⟩
      rintro ⟨-, -, -, -, hm' | ⟨u, hu'⟩⟩
      · exact hm hm'
      · rw [hu] at hu'
        cases hu'
    · have hexec : backend.exec (.inr (.groupMemberCreate (toGroupShape (s₂.record groupId g)).id
          userId)) e s₂ = (.ok (), s₂.ajoute ⟨groupId, userId⟩) := creerMembre_ajoute hg hm hu
      rw [hexec] at h
      have hg' : (s₂.ajoute ⟨groupId, userId⟩).groups[groupId]? = some g := by rw [ajoute_groups, hg]
      obtain ⟨rfl, hr⟩ := find_ok hg' h
      exact .inl ⟨⟨g, agency, hg, hagency, .inr ⟨u, hu⟩⟩, rfl, hr⟩

/-- The booking that a call of `assignGroup` puts in the group: it is of the agency of the owner, and its
pilgrim can be added. -/
def Store.Affectee (s : Store) (ownerId : UserId) (bookingId : BookingId) (groupId : GroupId)
    (b : Booking) : Prop :=
  s.app.bookings[bookingId]? = some b ∧ (∃ agency, s.app.agencyOf ownerId = some (b.agencyId, agency)) ∧
    s.Ajoutable ownerId ⟨groupId, b.pilgrimId⟩

/-- The booking is in the group, and its pilgrim is a member of it. -/
def Store.affecter (s : Store) (bookingId : BookingId) (groupId : GroupId) (b : Booking) : Store :=
  { s.ajoute ⟨groupId, b.pilgrimId⟩ with
    app := s.app.putBooking bookingId { b with groupId := some groupId } }

@[simp] theorem affecter_bookings (s : Store) (bookingId : BookingId) (groupId : GroupId) (b : Booking) :
    (s.affecter bookingId groupId b).app.bookings =
      s.app.bookings.set bookingId { b with groupId := some groupId } := rfl

@[simp] theorem affecter_groupMembers (s : Store) (bookingId : BookingId) (groupId : GroupId)
    (b : Booking) : (s.affecter bookingId groupId b).groupMembers =
      (s.ajoute ⟨groupId, b.pilgrimId⟩).groupMembers := rfl

theorem booking_reads (id : BookingId) :
    (OumraHajj.BookingsService.findByIdOrFail id).Uses ReadOnly := by
  refine ⟨fun _ _ => rfl, fun r => ?_⟩
  cases r <;> trivial

theorem bookingOwnership_reads (ownerId : UserId) (booking : BookingShape) :
    (OumraHajj.BookingsService.assertAgencyOwnership ownerId booking).Uses ReadOnly := by
  refine (owner_reads ownerId).bind fun agency => ?_
  split <;> trivial

theorem booking_runs {id : BookingId} {d d' : Db} {r : Except Erreur BookingShape}
    (h : prisma.Runs (OumraHajj.BookingsService.findByIdOrFail id) d r d') :
    (∃ b, d.bookings[id]? = some b ∧ r = .ok (toBookingShape id b)) ∨
      (d.bookings[id]? = none ∧ ∃ x, r = .error x) := by
  obtain ⟨e, h⟩ := h
  rcases hb : d.bookings[id]? with _ | b
  · simp only [prisma_exec, OumraHajj.exec, hb] at h
    exact .inr ⟨rfl, _, h.1⟩
  · simp only [prisma_exec, OumraHajj.exec, hb] at h
    exact .inl ⟨b, rfl, h.1⟩

theorem bookingOwnership_runs {ownerId : UserId} {booking : BookingShape} {d d' : Db}
    {r : Except Erreur Unit}
    (h : prisma.Runs (OumraHajj.BookingsService.assertAgencyOwnership ownerId booking) d r d') :
    (∃ agency, d.agencyOf ownerId = some (booking.agencyId, agency)) ∧ r = .ok () ∨
      (∀ agency, d.agencyOf ownerId ≠ some (booking.agencyId, agency)) ∧ ∃ x, r = .error x := by
  rcases Backend.runs_bind.mp h with ⟨shape, s₁, hown, h⟩ | ⟨x, hown, hr⟩
  · rcases owner_id_iff hown with ⟨_, hshape, hid⟩ | ⟨-, x, hx⟩
    · obtain rfl := Except.ok.inj hshape
      split at h
      · next hne => exact .inr ⟨fun agency hagency => hne ((hid _).mpr ⟨agency, hagency⟩), _, h.1⟩
      · next heq => exact .inl ⟨(hid _).mp (not_not.mp heq), h.1⟩
    · cases hx
  · rcases owner_id_iff hown with ⟨_, hshape, -⟩ | ⟨hnone, -⟩
    · cases hshape
    · exact .inr ⟨hnone _, x, hr⟩

/-- A booking is put in a group with its pilgrim, or nothing is done. -/
theorem assignGroup_runs {ownerId : UserId} {bookingId : BookingId} {groupId : GroupId}
    {r : Except Erreur BookingShape}
    (h : backend.Runs (BookingsService.assignGroup ownerId bookingId groupId) s r s') :
    (∃ b, s.Affectee ownerId bookingId groupId b ∧ s' = s.affecter bookingId groupId b) ∨
      ((∀ b, ¬ s.Affectee ownerId bookingId groupId b) ∧ s' = s) := by
  rcases Backend.runs_bind.mp h with ⟨booking, s₁, hfind, h₁⟩ | ⟨x, hfind, -⟩
  swap
  · obtain ⟨hfind, rfl⟩ := app_reads (booking_reads bookingId) hfind
    rcases booking_runs hfind with ⟨b, -, hb⟩ | ⟨hnone, -⟩
    · cases hb
    · refine .inr ⟨fun b hb => ?_, rfl⟩
      rw [hb.1] at hnone
      cases hnone
  obtain ⟨hfind, rfl⟩ := app_reads (booking_reads bookingId) hfind
  rcases booking_runs hfind with ⟨b, hb, hbooking⟩ | ⟨-, x, hx⟩
  swap
  · cases hx
  obtain rfl := Except.ok.inj hbooking
  have hsame : ∀ {b'}, s₁.Affectee ownerId bookingId groupId b' → b' = b := fun hb' =>
    Option.some.inj (hb'.1.symm.trans hb)
  rcases Backend.runs_bind.mp h₁ with ⟨_, s₂, hown, h₂⟩ | ⟨x, hown, -⟩
  swap
  · obtain ⟨hown, rfl⟩ := app_reads (bookingOwnership_reads ownerId _) hown
    rcases bookingOwnership_runs hown with ⟨-, hx⟩ | ⟨hnot, -⟩
    · cases hx
    · refine .inr ⟨fun b' hb' => ?_, rfl⟩
      obtain rfl := hsame hb'
      obtain ⟨agency, hagency⟩ := hb'.2.1
      exact hnot agency hagency
  obtain ⟨hown, rfl⟩ := app_reads (bookingOwnership_reads ownerId _) hown
  rcases bookingOwnership_runs hown with ⟨hagency, -⟩ | ⟨-, x, hx⟩
  swap
  · cases hx
  rcases Backend.runs_bind.mp h₂ with ⟨_, s₃, hadd, h₃⟩ | ⟨x, hadd, -⟩
  swap
  · rcases addMember_runs hadd with ⟨-, -, shape, hx⟩ | ⟨hnot, rfl, -⟩
    · cases hx
    · refine .inr ⟨fun b' hb' => ?_, rfl⟩
      obtain rfl := hsame hb'
      exact hnot hb'.2.2
  rcases addMember_runs hadd with ⟨hajout, rfl, -⟩ | ⟨-, -, x, hx⟩
  swap
  · cases hx
  -- the booking and the group are there, so the update is not rejected
  have hg := hajout
  obtain ⟨g, -, hg, -⟩ := hg
  have hb' : (s₂.ajoute ⟨groupId, b.pilgrimId⟩).app.bookings[bookingId]? = some b := by
    rw [ajoute_app, hb]
  have hg' : (s₂.ajoute ⟨groupId, b.pilgrimId⟩).groups[groupId]? = some g := by
    rw [ajoute_groups, hg]
  obtain ⟨e, h₃⟩ := h₃
  simp only [backend, exec, toBookingShape, hb', hg'] at h₃
  refine .inl ⟨b, ⟨hb, hagency, hajout⟩, ?_⟩
  rw [h₃.2, ajoute_app]
  rfl

/-! ## The other requests -/

/-- The members stay, and so do the bookings that are not cancelled. -/
def Store.Laisse (s s' : Store) : Prop := s'.groupMembers = s.groupMembers ∧ s.app.Laisse s'.app

theorem exec_conserve {c : sig.Stmt} (hc : Conserve c) (e : Env) (s : Store) :
    s.Laisse (backend.exec c e s).2 := by
  rcases c with (c | c) | c
  · exact ⟨rfl, exec_laisse hc e s.app⟩
  · refine ⟨rfl, laisse_of_eq ?_⟩
    show (Catalogue.exec c s.app).2.bookings = s.app.bookings
    cases c
    case refundPolicyTierReplace agencyId data =>
      rw [Catalogue.exec, Catalogue.replaceTiers]
      split <;> rfl
    all_goals first
      | rfl
      | simp only [Catalogue.exec]
        split <;> rfl
  · show s.Laisse (exec c e s).2
    have hrefl : s.Laisse s := ⟨rfl, laisse_of_eq rfl⟩
    cases c
    case groupMemberCreate => exact hc.elim
    case bookingUpdate => exact hc.elim
    all_goals first
      | exact hrefl
      | simp only [exec]
        split <;> exact hrefl

/-- A request that cancels nothing and puts nobody in a group. -/
theorem conserve_runs {α : Type} {p : Req α} (hp : p.Uses Conserve) {r : Except Erreur α}
    (h : backend.Runs p s r s') : s.Laisse s' :=
  Backend.Runs.frame (fun _ => ⟨rfl, laisse_of_eq rfl⟩)
    (fun _ _ _ h h' => ⟨h'.1.trans h.1, h.2.trans h'.2⟩) (fun _ hc e s => exec_conserve hc e s) hp h

/-- A cancellation changes one booking, or nothing. -/
theorem cancelBooking_runs {pilgrimId : UserId} {id : BookingId} {r : Except Erreur Unit}
    (h : backend.Runs (handler (.catalogue (.app (.cancelBooking pilgrimId id)))) s r s') :
    (s.app.cancelled pilgrimId id = none ∧ s' = s) ∨
      ∃ b p, s.app.cancelled pilgrimId id = some (b, p) ∧ s'.groupMembers = s.groupMembers ∧
        s'.app.bookings = s.app.bookings.set id { b with status := .cancelled } := by
  obtain ⟨hrun, hs'⟩ := app_runs (p := (OumraHajj.BookingsService.cancel pilgrimId id).void) h
  obtain ⟨r', hcancel⟩ := Backend.runs_void hrun
  rcases cancel_runs hcancel with ⟨hnone, happ⟩ | ⟨b, p, hsome, happ⟩
  · exact .inl ⟨hnone, by rw [hs', happ]⟩
  · refine .inr ⟨b, p, hsome, by rw [hs'], ?_⟩
    rw [happ]
    rfl

end OumraHajj.Groups
