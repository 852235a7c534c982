import OumraHajj.Groups.Assignment
import OumraHajj.Services.Requests

/-!
# The members of a group

A pilgrim becomes a member of a group when the agency puts one of their bookings in it, and stays one:
nothing removes a member. `Suivi s`: each member has a booking in the group that is not cancelled, as
long as no request ends the last one (`Garde`).
-/

namespace OumraHajj.Groups

open Async

/-- The booking is of the member, in the group, and not cancelled. -/
def Porte (b : Booking) (m : GroupMember) : Prop :=
  b.pilgrimId = m.userId ∧ b.groupId = some m.groupId ∧ b.status ≠ .cancelled

instance (b : Booking) (m : GroupMember) : Decidable (Porte b m) := inferInstanceAs (Decidable (_ ∧ _))

/-- Each member has such a booking. -/
def Suivi (s : Store) : Prop :=
  ∀ m ∈ s.groupMembers, ∃ b ∈ s.app.bookings, Porte b m

/-- The member has such a booking besides the booking `id`. -/
def Store.Autre (s : Store) (id : BookingId) (m : GroupMember) : Prop :=
  ∃ x ∈ s.app.bookings.withIds, x.1 ≠ id ∧ Porte x.2 m

section Rows

variable {s s' : Store} {id : BookingId} {b b' : Booking}

/-- One booking is replaced. -/
theorem suivie_set (hb : s.app.bookings[id]? = some b)
    (hs' : s'.app.bookings = s.app.bookings.set id b') (m : GroupMember) :
    (∃ x ∈ s'.app.bookings, Porte x m) ↔ Porte b' m ∨ s.Autre id m := by
  rw [hs']
  constructor
  · rintro ⟨x, hx, hm⟩
    obtain ⟨k, hx⟩ := List.mem_iff_getElem?.mp hx
    rw [Table.get_set hb] at hx
    split at hx
    · obtain rfl := Option.some.inj hx
      exact .inl hm
    · next hk => exact .inr ⟨(k, x), Table.mem_withIds.mpr hx, Ne.symm hk, hm⟩
  · rintro (hm | ⟨⟨k, x⟩, hx, hk, hm⟩)
    · refine ⟨b', List.mem_iff_getElem?.mpr ⟨id, ?_⟩, hm⟩
      rw [Table.get_set hb, if_pos rfl]
    · refine ⟨x, List.mem_iff_getElem?.mpr ⟨k, ?_⟩, hm⟩
      rw [Table.get_set hb, if_neg (Ne.symm hk)]
      exact Table.mem_withIds.mp hx

/-- The bookings of the members, one of which is `b`. -/
theorem Suivi.porte (hs : Suivi s) (hb : s.app.bookings[id]? = some b) {m : GroupMember}
    (hm : m ∈ s.groupMembers) : Porte b m ∨ s.Autre id m :=
  (suivie_set hb (Table.set_self hb).symm m).mp (hs m hm)

/-- What is left of the bookings keeps the members. -/
theorem Suivi.laisse (hs : Suivi s) (h : s.Laisse s') : Suivi s' := by
  intro m hm
  rw [h.1] at hm
  obtain ⟨b, hb, hpilgrim, hgroup, hst⟩ := hs m hm
  obtain ⟨id, hb⟩ := List.mem_iff_getElem?.mp hb
  obtain ⟨b', hb', hterms, hst'⟩ := h.2 id b hb hst
  have hpilgrim' : b'.pilgrimId = b.pilgrimId := congrArg Terms.pilgrimId hterms
  have hgroup' : b'.groupId = b.groupId := congrArg Terms.groupId hterms
  exact ⟨b', List.mem_iff_getElem?.mpr ⟨id, hb'⟩, hpilgrim'.trans hpilgrim, hgroup'.trans hgroup, hst'⟩

end Rows

instance (s : Store) : Decidable (Suivi s) :=
  inferInstanceAs (Decidable (∀ m ∈ s.groupMembers, ∃ b ∈ s.app.bookings, Porte b m))

/-! ## One request -/

/-- The request leaves each member a booking: a booking of a member that is cancelled, or that is put
in another group, is not the only one, and neither is a cancelled booking that is put in a group. -/
def Garde (s : Store) : Request → Prop
  | .catalogue (.app (.cancelBooking pilgrimId bookingId)) =>
    ∀ x, s.app.cancelled pilgrimId bookingId = some x → ∀ m ∈ s.groupMembers, Porte x.1 m →
      s.Autre bookingId m
  | .assignGroup ownerId bookingId groupId =>
    ∀ b, s.Affectee ownerId bookingId groupId b →
      (b.status = .cancelled → s.Autre bookingId ⟨groupId, b.pilgrimId⟩) ∧
        ∀ m ∈ s.groupMembers, Porte b m → m.groupId ≠ groupId → s.Autre bookingId m
  | _ => True

theorem garde_of_conserve {s : Store} {q : Request}
    (hcancel : ∀ pilgrimId bookingId, q ≠ .catalogue (.app (.cancelBooking pilgrimId bookingId)))
    (hassign : ∀ ownerId bookingId groupId, q ≠ .assignGroup ownerId bookingId groupId) :
    Garde s q := by
  cases q with
  | catalogue q =>
    cases q with
    | app q =>
      cases q with
      | cancelBooking pilgrimId bookingId => exact absurd rfl (hcancel pilgrimId bookingId)
      | _ => trivial
    | _ => trivial
  | assignGroup ownerId bookingId groupId => exact absurd rfl (hassign ownerId bookingId groupId)
  | _ => trivial

section Steps

variable {s s' : Store}

theorem suivi_cancel {pilgrimId : UserId} {id : BookingId} {b : Booking} {p : Package} (hs : Suivi s)
    (hc : s.app.cancelled pilgrimId id = some (b, p)) (hmembers : s'.groupMembers = s.groupMembers)
    (hbookings : s'.app.bookings = s.app.bookings.set id { b with status := .cancelled }) :
    Suivi s' ↔ Garde s (.catalogue (.app (.cancelBooking pilgrimId id))) := by
  have hb := (Db.cancelled_eq_some.mp hc).1
  have hgone : ∀ m, ¬ Porte { b with status := .cancelled } m := fun m hm => hm.2.2 rfl
  unfold Suivi
  rw [hmembers]
  constructor
  · intro h x hx m hm _
    exact ((suivie_set hb hbookings m).mp (h m hm)).resolve_left (hgone m)
  · intro h m hm
    refine (suivie_set hb hbookings m).mpr (.inr ?_)
    rcases hs.porte hb hm with hp | hother
    · exact h _ hc m hm hp
    · exact hother

theorem suivi_assign {ownerId : UserId} {id : BookingId} {groupId : GroupId} {b : Booking}
    (hs : Suivi s) (ha : s.Affectee ownerId id groupId b) :
    Suivi (s.affecter id groupId b) ↔ Garde s (.assignGroup ownerId id groupId) := by
  have hb := ha.1
  have hsuivie := suivie_set hb (affecter_bookings s id groupId b)
  constructor
  · intro h b' ha'
    obtain rfl := Option.some.inj (hb.symm.trans ha'.1)
    refine ⟨fun hst => ?_, fun m hm hp hne => ?_⟩
    · exact ((hsuivie _).mp (h _ (mem_ajoute.mpr (.inl rfl)))).resolve_left fun hp => hp.2.2 hst
    · refine ((hsuivie m).mp (h m (mem_ajoute.mpr (.inr hm)))).resolve_left fun hp' => hne ?_
      exact (Option.some.inj hp'.2.1).symm
  · intro h m hm
    refine (hsuivie m).mpr ?_
    rcases mem_ajoute.mp hm with rfl | hm
    · by_cases hst : b.status = .cancelled
      · exact .inr ((h b ha).1 hst)
      · exact .inl ⟨rfl, rfl, hst⟩
    · rcases hs.porte hb hm with hp | hother
      · by_cases hg : m.groupId = groupId
        · exact .inl ⟨hp.1, congrArg some hg.symm, hp.2.2⟩
        · exact .inr ((h b ha).2 m hm hp hg)
      · exact .inr hother

/-- One request of a run. -/
theorem suivi_request {q : Request} {r : Except Erreur Unit} (hs : Suivi s)
    (h : backend.Runs (handler q) s r s') : Suivi s' ↔ Garde s q := by
  by_cases hcancel : ∃ pilgrimId bookingId, q = .catalogue (.app (.cancelBooking pilgrimId bookingId))
  · obtain ⟨pilgrimId, bookingId, rfl⟩ := hcancel
    rcases cancelBooking_runs h with ⟨hnone, rfl⟩ | ⟨b, p, hc, hmembers, hbookings⟩
    · refine iff_of_true hs fun x hx => ?_
      rw [hnone] at hx
      cases hx
    · exact suivi_cancel hs hc hmembers hbookings
  by_cases hassign : ∃ ownerId bookingId groupId, q = .assignGroup ownerId bookingId groupId
  · obtain ⟨ownerId, bookingId, groupId, rfl⟩ := hassign
    obtain ⟨r', h⟩ := Backend.runs_void h
    rcases assignGroup_runs h with ⟨b, ha, rfl⟩ | ⟨hnone, rfl⟩
    · exact suivi_assign hs ha
    · exact iff_of_true hs fun b hb => absurd hb (hnone b)
  · have hq := ((handler_conserve q).resolve_left hcancel).resolve_left hassign
    refine iff_of_true (hs.laisse (conserve_runs hq h)) (garde_of_conserve ?_ ?_)
    · exact fun pilgrimId bookingId hq => hcancel ⟨pilgrimId, bookingId, hq⟩
    · exact fun ownerId bookingId groupId hq => hassign ⟨ownerId, bookingId, groupId, hq⟩

end Steps

/-! ## Who becomes a member -/

/-- The request has put a booking of the member in the group. -/
def Entree (x : Request × Store) (m : GroupMember) : Prop :=
  ∃ ownerId bookingId b, x.1 = .assignGroup ownerId bookingId m.groupId ∧
    x.2.app.bookings[bookingId]? = some b ∧ b.pilgrimId = m.userId ∧ b.groupId = some m.groupId

/-- A request keeps the members, and adds at most the one whose booking it puts in a group. -/
theorem members_request {s s' : Store} {q : Request} {r : Except Erreur Unit}
    (h : backend.Runs (handler q) s r s') {m : GroupMember} (hm : m ∈ s'.groupMembers) :
    m ∈ s.groupMembers ∨ Entree (q, s') m := by
  rcases handler_conserve q with ⟨pilgrimId, bookingId, rfl⟩ | ⟨ownerId, bookingId, groupId, rfl⟩ | hq
  · rcases cancelBooking_runs h with ⟨-, rfl⟩ | ⟨b, p, -, hmembers, -⟩
    · exact .inl hm
    · exact .inl (hmembers ▸ hm)
  · obtain ⟨r', h⟩ := Backend.runs_void h
    rcases assignGroup_runs h with ⟨b, ha, rfl⟩ | ⟨-, rfl⟩
    · rcases mem_ajoute.mp hm with rfl | hm
      · refine .inr ⟨ownerId, bookingId, { b with groupId := some groupId }, rfl, ?_, rfl, rfl⟩
        rw [affecter_bookings, Table.get_set ha.1, if_pos rfl]
      · exact .inl hm
    · exact .inl hm
  · exact .inl ((conserve_runs hq h).1 ▸ hm)

theorem members_run {s : Store} {tr : Trace Request Store} (hr : backend.Run handler s tr)
    {m : GroupMember} (hm : m ∈ (Trace.last s tr).groupMembers) :
    m ∈ s.groupMembers ∨ ∃ x ∈ tr, Entree x m := by
  induction tr generalizing s with
  | nil => exact .inl hm
  | cons x tr ih =>
    obtain ⟨⟨r, hx⟩, hr⟩ := hr
    rcases ih hr hm with hm | ⟨y, hy, hentree⟩
    · rcases members_request hx hm with hm | hentree
      · exact .inl hm
      · exact .inr ⟨x, List.mem_cons_self, hentree⟩
    · exact .inr ⟨y, List.mem_cons_of_mem _ hy, hentree⟩

/-! ## Who reads the positions -/

/-- A pilgrim reads the positions of the groups of which they are a member, and of no other one that
they do not lead. -/
theorem pilgrim_reads {s s' : Store} {userId : UserId} {groupId : GroupId} {g : Group}
    {r : Except Erreur GroupShape} (hg : s.groups[groupId]? = some g) (hguide : g.guideId ≠ some userId)
    (h : backend.Runs (GroupsService.findAuthorizedOrFail userId .pilgrim groupId) s r s') :
    (∃ shape, r = .ok shape) ↔ ⟨groupId, userId⟩ ∈ s.groupMembers := by
  rcases Backend.runs_bind.mp h with ⟨group, s₁, hfind, h₁⟩ | ⟨x, hfind, -⟩
  swap
  · obtain ⟨rfl, ⟨g', -, hx⟩ | ⟨hnone, -⟩⟩ := find_runs hfind
    · cases hx
    · rw [hg] at hnone
      cases hnone
  obtain ⟨rfl, ⟨g', hg', hgroup⟩ | ⟨-, x, hx⟩⟩ := find_runs hfind
  swap
  · cases hx
  obtain rfl := Option.some.inj (hg.symm.trans hg')
  obtain rfl := Except.ok.inj hgroup
  rw [if_neg (by decide)] at h₁
  split at h₁
  · next hread =>
    exact iff_of_true ⟨_, h₁.1⟩ (mem_memberIds.mp (hread.resolve_right hguide))
  · next hread =>
    rw [if_neg (by decide)] at h₁
    refine iff_of_false ?_ fun hm => hread (.inl (mem_memberIds.mpr hm))
    rintro ⟨shape, rfl⟩
    cases h₁.1

/-- **Members.** In a sequential run from a store without members, each member is one whose booking the
agency has put in the group, and reads its positions. Each of them has a booking in the group that is
not cancelled, after every request, if and only if no request ends the last one of a member. -/
theorem members_assigned {s : Store} (h₀ : s.groupMembers = []) {tr : Trace Request Store}
    (hr : backend.Run handler s tr) :
    (∀ m ∈ (Trace.last s tr).groupMembers, ∃ x ∈ tr, Entree x m) ∧
      (∀ (userId : UserId) (groupId : GroupId) (g : Group) (r : Except Erreur GroupShape) (s' : Store),
        (Trace.last s tr).groups[groupId]? = some g → g.guideId ≠ some userId →
          backend.Runs (GroupsService.findAuthorizedOrFail userId .pilgrim groupId) (Trace.last s tr)
            r s' → ((∃ shape, r = .ok shape) ↔ ⟨groupId, userId⟩ ∈ (Trace.last s tr).groupMembers)) ∧
        ((∀ x ∈ tr, Suivi x.2) ↔ Trace.Steps (fun s q _ => Garde s q) s tr) := by
  refine ⟨fun m hm => ?_, fun _ _ _ _ _ hg hguide h => pilgrim_reads hg hguide h, ?_⟩
  · rcases members_run hr hm with hm | hentree
    · rw [h₀] at hm
      cases hm
    · exact hentree
  have hs : Suivi s := by
    intro m hm
    rw [h₀] at hm
    cases hm
  rw [← Trace.steps_after (P := Suivi) (s := s)]
  refine hr.steps_iff (I := Suivi) (A := fun _ => True) ?_ ?_ (fun _ _ => trivial) hs
  · intro s q r s' hs _ h hq
    have hs' := (suivi_request hs h).mpr hq
    exact ⟨hs', hs'⟩
  · exact fun s q r s' hs _ h hq hs' => hq ((suivi_request hs h).mp hs')

/-! ## Runs on fixed inputs -/

private theorem title_length : 2 ≤ "Groupe".length := by decide

/-- The pilgrim books, and the agency puts the booking in a group. -/
private def affectation : List Request :=
  [.catalogue (.app (.createBooking 0 0)), .createGroup 1 ⟨0, "Groupe", title_length⟩,
    .assignGroup 1 0 0]

private def suiteDe (qs : List Request) : Trace Request Store :=
  backend.evalAll handler {} { app := .exemple } qs

theorem members_assigned_affectation :
    (∃ x ∈ suiteDe affectation, Entree x ⟨0, 0⟩) ∧
      Trace.Steps (fun s q _ => Garde s q) { app := .exemple } (suiteDe affectation) := by
  have hrun : backend.Run handler { app := .exemple } (suiteDe affectation) :=
    Backend.evalAll_run _ _ _
  obtain ⟨hentree, -, hiff⟩ := members_assigned rfl hrun
  exact ⟨hentree _ (by decide +kernel), hiff.mp (by decide +kernel)⟩

/-- The pilgrim cancels the booking and stays a member. -/
theorem member_without_booking : ¬ ∀ (s : Store) (tr : Trace Request Store), s.groupMembers = [] →
    backend.Run handler s tr → ∀ x ∈ tr, Suivi x.2 := by
  intro h
  have hrun : backend.Run handler { app := .exemple }
      (suiteDe (affectation ++ [.catalogue (.app (.cancelBooking 0 0))])) :=
    Backend.evalAll_run _ _ _
  exact absurd (h _ _ rfl hrun) (by decide +kernel)

end OumraHajj.Groups
