import OumraHajj.Async.Rely
import OumraHajj.Groups.Members

/-!
# The booking that a roster shows

A roster shows one booking of each member: the last row of the pilgrim among the bookings of the group, in the
order in which the database returns them (`desordre`: any one). A cancelled booking keeps its group, so a
pilgrim may have a cancelled booking and another one in the same group.
`live_shown`: the members who have a booking that is not cancelled are shown with one (`Vivante`), where no
statement leaves both kinds of bookings of one pilgrim in one group (`Franc`). `vivante_iff`: no other
condition would do.
-/

namespace OumraHajj.Groups

open Async

/-! ## The order of the rows -/

/-- The order in which the database returns the rows of a roster. -/
structure Ordre where
  members : List GroupMember → List GroupMember
  users : List (UserId × User × Option SpecialNeeds) → List (UserId × User × Option SpecialNeeds)
  bookings : List (BookingId × Booking) → List (BookingId × Booking)
  members_perm : ∀ rows, (members rows).Perm rows
  users_perm : ∀ rows, (users rows).Perm rows
  bookings_perm : ∀ rows, (bookings rows).Perm rows

/-- The answer of a statement, its rows in this order. -/
def Ordre.range (o : Ordre) : (c : sig.Stmt) → sig.Resp c → sig.Resp c
  | .inr (.groupFindUnique _), r =>
    Option.map (fun g : GroupRecord => { g with members := o.members g.members }) r
  | .inr (.userFindMany _), rows => o.users rows
  | .inr (.bookingFindMany _), rows => o.bookings rows
  | .inl _, r => r
  | .inr _, r => r

/-- The database that returns rows in any order. -/
def desordre : Backend sig Store (Env × Ordre) where
  exec c x s := (x.2.range c (backend.exec c x.1 s).1, (backend.exec c x.1 s).2)

section Read

variable {localeCompare : String → String → Bool} {s s' : Store} {requesterId : UserId} {role : Role}
  {groupId : GroupId}

/-- The statement reads. -/
def Lit (c : sig.Stmt) : Prop := ∀ x s, (desordre.exec c x s).2 = s

theorem lit_runs {α : Type} {p : Req α} (hp : p.Uses Lit) {r : Except Erreur α}
    (h : desordre.Runs p s r s') : s' = s :=
  h.frame (R := fun s s' => s' = s) (fun _ => rfl) (fun _ _ _ h₁ h₂ => h₂.trans h₁)
    (fun _ hc x s => hc x s) hp

theorem app_lit {α : Type} {p : OumraHajj.Req α} (hp : p.Uses ReadOnly) : (app p).Uses Lit := by
  have hcatalogue : (Prog.left p : Catalogue.Req α).Uses fun c => Lit (.inl c) := by
    refine hp.left fun c hc x s => ?_
    show ({ s with app := (OumraHajj.exec c x.1 s.app).2 } : Store) = s
    rw [hc]
  exact hcatalogue.left fun _ h => h

theorem canRead_lit (requesterId : UserId) (role : Role) (group : GroupShape) :
    (GroupRosterService.assertCanReadRoster requesterId role group).Uses Lit := by
  unfold GroupRosterService.assertCanReadRoster
  split
  · trivial
  split
  · refine (app_lit (owner_reads requesterId)).bind fun agency => ?_
    split <;> trivial
  · trivial

/-- The group with its members, in any order. -/
theorem find_desordre {r : Except Erreur GroupShape}
    (h : desordre.Runs (GroupsService.findByIdOrFail groupId) s r s') : s' = s ∧
      ((∃ group, r = .ok group ∧ group.id = groupId ∧
        ∀ userId, userId ∈ group.memberIds ↔ ⟨groupId, userId⟩ ∈ s.groupMembers) ∨ ∃ x, r = .error x) := by
  obtain ⟨⟨e, o⟩, h⟩ := h
  rcases hg : s.groups[groupId]? with _ | g
  · simp only [desordre, backend, exec, hg, Ordre.range] at h
    exact ⟨h.2, .inr ⟨_, h.1⟩⟩
  · simp only [desordre, backend, exec, hg, Ordre.range] at h
    refine ⟨h.2, .inl ⟨_, h.1, rfl, fun userId => ?_⟩⟩
    have hperm := (o.members_perm (s.record groupId g).members).map (·.userId)
    exact hperm.mem_iff.trans (mem_memberIds (s := s) (g := g))

/-- What a roster is made of: the bookings of the group and its members, in any order. -/
theorem getRoster_desordre {liste : GroupRosterShape}
    (h : desordre.Runs (GroupRosterService.getRoster localeCompare requesterId role groupId) s
      (.ok liste) s') :
    ∃ rows, rows.Perm (s.app.bookings.findMany (·.groupId = some groupId)) ∧
      (∀ m ∈ liste.members, ∃ membre besoins,
        m = GroupRosterService.toMember rows (m.userId, membre, besoins)) ∧
      ∀ userId u, ⟨groupId, userId⟩ ∈ s.groupMembers → s.app.users[userId]? = some u →
        ∃ m ∈ liste.members, m.userId = userId := by
  rcases Backend.runs_bind.mp h with ⟨group, s₁, hfind, h₁⟩ | ⟨x, -, hx⟩
  swap
  · cases hx
  obtain ⟨rfl, ⟨_, hgroup, hid, hmembers⟩ | ⟨x, hx⟩⟩ := find_desordre hfind
  swap
  · cases hx
  obtain rfl := Except.ok.inj hgroup
  rcases Backend.runs_bind.mp h₁ with ⟨_, s₂, hcan, h₂⟩ | ⟨x, -, hx⟩
  swap
  · cases hx
  obtain rfl := lit_runs (canRead_lit requesterId role group) hcan
  obtain ⟨⟨e₁, o₁⟩, ⟨e₂, o₂⟩, _, hliste, -⟩ := h₂
  have hliste := Except.ok.inj hliste
  subst hliste
  refine ⟨o₂.bookings (s₂.app.bookings.findMany (·.groupId = some group.id)), ?_, fun m hm => ?_,
    fun userId u hmember hu => ?_⟩
  · rw [hid]
    exact o₂.bookings_perm _
  · obtain ⟨⟨userId, membre, besoins⟩, -, rfl⟩ := List.mem_map.mp (List.mem_mergeSort.mp hm)
    exact ⟨membre, besoins, rfl⟩
  · have hrow : (userId, u) ∈ s₂.app.users.withIds.filter fun x => group.memberIds.contains x.1 :=
      List.mem_filter.mpr ⟨Table.mem_withIds.mpr hu,
        List.contains_iff_mem.mpr ((hmembers userId).mpr hmember)⟩
    have hread := List.mem_map.mpr
      (⟨_, hrow, rfl⟩ : ∃ x ∈ _, (x.1, x.2, s₂.needsOf x.1) = (userId, u, s₂.needsOf userId))
    exact ⟨_, List.mem_mergeSort.mpr (List.mem_map.mpr ⟨_, (o₁.users_perm _).mem_iff.mpr hread, rfl⟩), rfl⟩

end Read

/-! ## The bookings of one pilgrim in one group -/

/-- Both bookings are of one pilgrim, in one group. -/
def MemePlace (x y : Booking) : Prop := x.pilgrimId = y.pilgrimId ∧ x.groupId = y.groupId ∧ x.groupId ≠ none

instance (x y : Booking) : Decidable (MemePlace x y) := inferInstanceAs (Decidable (_ ∧ _))

theorem MemePlace.symm {x y : Booking} (h : MemePlace x y) : MemePlace y x :=
  ⟨h.1.symm, h.2.1.symm, h.2.1 ▸ h.2.2⟩

/-- The bookings of one pilgrim in one group are all cancelled, or none is. -/
def Franche (t : Table Booking) : Prop :=
  ∀ x ∈ t, ∀ y ∈ t, MemePlace x y → (x.status = .cancelled ↔ y.status = .cancelled)

/-- The booking `id` may become `b`. -/
def Accorde (t : Table Booking) (id : BookingId) (b : Booking) : Prop :=
  ∀ x ∈ t.withIds, x.1 ≠ id → MemePlace x.2 b → (x.2.status = .cancelled ↔ b.status = .cancelled)

/-- The booking whose status or group a statement writes, and the row that it becomes. -/
def ecrit : sig.Stmt → Option (BookingId × (Booking → Booking))
  | .inl (.inl (.bookingUpdate id status)) => some (id, fun b => { b with status })
  | .inr (.bookingUpdate id groupId) => some (id, fun b => { b with groupId := some groupId })
  | _ => none

/-- The statement leaves no cancelled booking beside another one of the pilgrim in a group. -/
def Franc (c : sig.Stmt) (s : Store) (_ : Env) : Prop :=
  ∀ w ∈ ecrit c, ∀ b ∈ s.app.bookings[w.1]?, Accorde s.app.bookings w.1 (w.2 b)

instance (t : Table Booking) (id : BookingId) (b : Booking) : Decidable (Accorde t id b) :=
  inferInstanceAs (Decidable (∀ x ∈ t.withIds, _ → _ → _))

instance (c : sig.Stmt) (s : Store) (e : Env) : Decidable (Franc c s e) :=
  inferInstanceAs (Decidable (∀ w ∈ ecrit c, ∀ b ∈ s.app.bookings[w.1]?, _))

section Bookings

variable {t : Table Booking} {id : BookingId} {b b' : Booking}

theorem Franche.accorde (ht : Franche t) (hb : t[id]? = some b) : Accorde t id b :=
  fun x hx _ => ht x.2 (List.mem_iff_getElem?.mpr ⟨x.1, Table.mem_withIds.mp hx⟩) b
    (List.mem_iff_getElem?.mpr ⟨id, hb⟩)

/-- One booking is replaced. -/
theorem franche_set (ht : Franche t) (hb : t[id]? = some b) :
    Franche (t.set id b') ↔ Accorde t id b' := by
  constructor
  · rintro h ⟨k, x⟩ hx hne hplace
    refine h x (List.mem_iff_getElem?.mpr ⟨k, ?_⟩) b' (List.mem_iff_getElem?.mpr ⟨id, ?_⟩) hplace
    · rw [Table.get_set hb, if_neg (Ne.symm hne)]
      exact Table.mem_withIds.mp hx
    · rw [Table.get_set hb, if_pos rfl]
  · intro h x hx y hy hplace
    -- a row is the new one, or another one that was there
    have hrow : ∀ z ∈ t.set id b', z = b' ∨ ∃ k, (k, z) ∈ t.withIds ∧ k ≠ id := by
      intro z hz
      obtain ⟨k, hk⟩ := List.mem_iff_getElem?.mp hz
      rw [Table.get_set hb] at hk
      split at hk
      · exact .inl (Option.some.inj hk).symm
      · next hne => exact .inr ⟨k, Table.mem_withIds.mpr hk, Ne.symm hne⟩
    rcases hrow x hx with rfl | ⟨k, hk, hne⟩
    · rcases hrow y hy with rfl | ⟨k, hk, hne⟩
      · rfl
      · exact (h (k, y) hk hne hplace.symm).symm
    · rcases hrow y hy with rfl | ⟨k', hk', -⟩
      · exact h (k, x) hk hne hplace
      · exact ht x (List.mem_iff_getElem?.mpr ⟨k, Table.mem_withIds.mp hk⟩) y
          (List.mem_iff_getElem?.mpr ⟨k', Table.mem_withIds.mp hk'⟩) hplace

/-- A booking is created, in no group. -/
theorem Franche.append (ht : Franche t) (hnone : b.groupId = none) : Franche (t ++ [b]) := by
  intro x hx y hy hplace
  rcases List.mem_append.mp hx with hx | hx
  · rcases List.mem_append.mp hy with hy | hy
    · exact ht x hx y hy hplace
    · obtain rfl := List.mem_singleton.mp hy
      exact absurd (hplace.2.1.trans hnone) hplace.2.2
  · obtain rfl := List.mem_singleton.mp hx
    exact absurd hnone hplace.2.2

end Bookings

/-! ## The statements -/

/-- The members are users, and no pilgrim has a cancelled booking beside another one in a group. -/
structure Net (s : Store) : Prop where
  members : ∀ m ∈ s.groupMembers, m.userId < s.app.users.length
  franche : Franche s.app.bookings

section Steps

variable {s : Store}

/-- Users are only added. -/
theorem exec_users (c : OumraHajj.Stmt) (e : Env) (s : Db) :
    s.users.length ≤ (OumraHajj.exec c e s).2.users.length := by
  cases c
  case userCreate data =>
    simp only [OumraHajj.exec]
    split
    · exact Nat.le_refl _
    · exact List.length_append ▸ Nat.le_add_right _ _
  all_goals first
    | exact Nat.le_refl _
    | simp only [OumraHajj.exec]
      split <;> exact Nat.le_refl _

theorem exec_franche {c : OumraHajj.Stmt} {e : Env} (hs : Franche s.app.bookings)
    (hc : Franc (.inl (.inl c)) s e) : Franche (OumraHajj.exec c e s.app).2.bookings := by
  cases c
  case bookingCreate pilgrimId packageId agencyId snapshot => exact hs.append rfl
  case bookingUpdate id status =>
    simp only [OumraHajj.exec]
    split
    · next b hb => exact (franche_set hs hb).mpr (hc _ rfl b hb)
    · exact hs
  case bookingStepUpdate id key status =>
    simp only [OumraHajj.exec]
    split
    · next b hb => exact (franche_set hs hb).mpr fun x hx hne hplace => hs.accorde hb x hx hne hplace
    · exact hs
  all_goals first
    | exact hs
    | simp only [OumraHajj.exec]
      split <;> exact hs

/-- The users and the bookings stay. -/
theorem catalogue_app (c : Catalogue.Stmt) (s : Db) :
    (Catalogue.exec c s).2.users = s.users ∧ (Catalogue.exec c s).2.bookings = s.bookings := by
  cases c
  case refundPolicyTierReplace agencyId data =>
    rw [Catalogue.exec, Catalogue.replaceTiers]
    split <;> exact ⟨rfl, rfl⟩
  all_goals first
    | exact ⟨rfl, rfl⟩
    | simp only [Catalogue.exec]
      split <;> exact ⟨rfl, rfl⟩

theorem Net.exec_groups (hs : Net s) {c : Stmt} {e : Env} (hc : Franc (.inr c) s e) :
    Net (exec c e s).2 := by
  cases c
  case groupMemberCreate groupId userId =>
    simp only [exec]
    split
    · next u _ hu =>
      split
      · exact hs
      · refine ⟨fun m hm => ?_, hs.franche⟩
        rcases List.mem_append.mp hm with hm | hm
        · exact hs.members m hm
        · obtain rfl := List.mem_singleton.mp hm
          exact Table.lt_of_get hu
    · exact hs
  case bookingUpdate id groupId =>
    simp only [exec]
    split
    · next b _ hb _ => exact ⟨hs.members, (franche_set hs.franche hb).mpr (hc _ rfl b hb)⟩
    · exact hs
    · exact hs
  all_goals first
    | exact hs
    | exact ⟨hs.members, hs.franche⟩
    | simp only [exec]
      split <;> first | exact hs | exact ⟨hs.members, hs.franche⟩

theorem Net.step (hs : Net s) {c : sig.Stmt} {e : Env} (hc : Franc c s e) :
    Net (backend.exec c e s).2 := by
  rcases c with (c | c) | c
  · exact ⟨fun m hm => Nat.lt_of_lt_of_le (hs.members m hm) (exec_users c e s.app),
      exec_franche hs.franche hc⟩
  · obtain ⟨husers, hbookings⟩ := catalogue_app c s.app
    refine ⟨fun m hm => ?_, ?_⟩
    · show m.userId < (Catalogue.exec c s.app).2.users.length
      rw [husers]
      exact hs.members m hm
    · show Franche (Catalogue.exec c s.app).2.bookings
      rw [hbookings]
      exact hs.franche
  · exact hs.exec_groups hc

/-- The invariant, whatever the other handlers do. -/
def liveRely : Rely Store where
  inv := Net
  le _ _ := True
  refl _ := trivial
  trans _ _ _ _ _ := trivial

theorem live_step (c : sig.Stmt) : liveRely.Step backend Franc c :=
  fun _ _ hs hc => ⟨hs.step hc, trivial⟩

end Steps

/-! ## What the roster shows -/

/-- In whatever order the rows come, the roster has a line for a member who has a booking in the group that is
not cancelled, and shows such a booking. -/
def Vivante (localeCompare : String → String → Bool) (s : Store) : Prop :=
  ∀ requesterId role groupId liste s',
    desordre.Runs (GroupRosterService.getRoster localeCompare requesterId role groupId) s (.ok liste) s' →
      ∀ userId, ⟨groupId, userId⟩ ∈ s.groupMembers →
        (∃ b ∈ s.app.bookings, Porte b ⟨groupId, userId⟩) →
          (∃ m ∈ liste.members, m.userId = userId) ∧ ∀ m ∈ liste.members, m.userId = userId →
            ∃ id b, s.app.bookings[id]? = some b ∧ Porte b ⟨groupId, userId⟩ ∧ m.bookingId = some id ∧
              m.bookingStatus = some b.status

section Shown

variable {localeCompare : String → String → Bool} {s : Store}

/-- The map has a booking of the pilgrim, if one of the rows is. -/
theorem reservationDe_some {rows : List (BookingId × Booking)} {x : BookingId × Booking} (hx : x ∈ rows)
    {userId : UserId} (huser : x.2.pilgrimId = userId) :
    ∃ y ∈ rows, GroupRosterService.reservationDe rows userId = some y ∧ y.2.pilgrimId = userId := by
  rcases h : GroupRosterService.reservationDe rows userId with _ | y
  · exact absurd (decide_eq_true huser) (List.find?_eq_none.mp h x (List.mem_reverse.mpr hx))
  · have hfound : rows.reverse.find? (·.2.pilgrimId = userId) = some y := h
    have huser := List.find?_some hfound
    exact ⟨y, List.mem_reverse.mp (List.mem_of_find?_eq_some h), rfl, of_decide_eq_true huser⟩

/-- The rows of the group. -/
theorem mem_rows {rows : List (BookingId × Booking)} {groupId : GroupId}
    (hrows : rows.Perm (s.app.bookings.findMany (·.groupId = some groupId))) {x : BookingId × Booking} :
    x ∈ rows ↔ s.app.bookings[x.1]? = some x.2 ∧ x.2.groupId = some groupId := by
  rw [hrows.mem_iff, Table.findMany, List.mem_filter, Table.mem_withIds, decide_eq_true_iff]

theorem Net.vivante (hs : Net s) : Vivante localeCompare s := by
  rintro requesterId role groupId liste s' h userId hmember ⟨b, hb, hporte⟩
  obtain ⟨rows, hrows, hlignes, hmembers⟩ := getRoster_desordre h
  have hlt : userId < s.app.users.length := hs.members _ hmember
  refine ⟨hmembers userId _ hmember (List.getElem?_eq_getElem hlt), fun m hm huser => ?_⟩
  obtain ⟨membre, besoins, hligne⟩ := hlignes m hm
  rw [huser] at hligne
  obtain ⟨id, hid⟩ := List.mem_iff_getElem?.mp hb
  have hrow : (id, b) ∈ rows := (mem_rows hrows).mpr ⟨hid, hporte.2.1⟩
  obtain ⟨⟨k, x⟩, hx, hreservation, hpilgrim⟩ := reservationDe_some hrow hporte.1
  obtain ⟨hk, hgroup⟩ := (mem_rows hrows).mp hx
  -- the booking that is shown and the one that is not cancelled are of one kind
  have hplace : MemePlace x b :=
    ⟨hpilgrim.trans hporte.1.symm, hgroup.trans hporte.2.1.symm, fun hnone => nomatch hgroup.symm.trans hnone⟩
  have hst := hs.franche x (List.mem_iff_getElem?.mpr ⟨k, hk⟩) b hb hplace
  refine ⟨k, x, hk, ⟨hpilgrim, hgroup, mt hst.mp hporte.2.2⟩, ?_, ?_⟩
  · rw [hligne, GroupRosterService.toMember, hreservation]
    rfl
  · rw [hligne, GroupRosterService.toMember, hreservation]
    rfl

/-! ## No other condition would do -/

/-- The group has a guide, or its agency an owner: somebody may read its roster. -/
def Lisible (s : Store) (groupId : GroupId) : Prop :=
  ∃ g, s.groups[groupId]? = some g ∧ ((∃ guideId, g.guideId = some guideId) ∨
    ∃ ownerId agency, s.app.agencyOf ownerId = some (g.agencyId, agency))

theorem canRead_ok (o : Ordre) (group : GroupShape)
    (h : (∃ guideId, group.guideId = some guideId) ∨
      ∃ ownerId agency, s.app.agencyOf ownerId = some (group.agencyId, agency)) :
    ∃ requesterId role, desordre.Runs
      (GroupRosterService.assertCanReadRoster requesterId role group) s (.ok ()) s := by
  rcases h with ⟨guideId, hguide⟩ | ⟨ownerId, agency, hagency⟩
  · refine ⟨guideId, .guide, ?_⟩
    rw [GroupRosterService.assertCanReadRoster, if_pos ⟨rfl, hguide⟩]
    exact ⟨rfl, rfl⟩
  · refine ⟨ownerId, .agency, ?_⟩
    rw [GroupRosterService.assertCanReadRoster, if_neg (fun h => nomatch h.1), if_pos rfl]
    have hexec : desordre.exec (.inl (.inl (.agencyFindUnique ownerId))) ({}, o) s =
        (some (group.agencyId, agency), s) := congrArg (Prod.mk · s) hagency
    refine Backend.runs_bind.mpr (.inl ⟨toAgencyShape group.agencyId agency, s, ⟨({}, o), ?_⟩, ?_⟩)
    · rw [hexec]
      exact ⟨rfl, rfl⟩
    · have hid : (toAgencyShape group.agencyId agency).id = group.agencyId := rfl
      rw [if_pos hid]
      exact ⟨rfl, rfl⟩

/-- The roster that is read with the rows in the order `o`. -/
theorem getRoster_ordre (localeCompare : String → String → Bool) (o : Ordre) {groupId : GroupId}
    (h : Lisible s groupId) :
    ∃ requesterId role liste,
      desordre.Runs (GroupRosterService.getRoster localeCompare requesterId role groupId) s (.ok liste) s ∧
        ∀ m ∈ liste.members, m.bookingStatus = (GroupRosterService.reservationDe
          (o.bookings (s.app.bookings.findMany (·.groupId = some groupId))) m.userId).map (·.2.status) := by
  obtain ⟨g, hg, hreader⟩ := h
  let group := toGroupShape { s.record groupId g with members := o.members (s.record groupId g).members }
  obtain ⟨requesterId, role, hcan⟩ := canRead_ok o group hreader
  have hfind : desordre.Runs (GroupsService.findByIdOrFail groupId) s (.ok group) s := by
    refine ⟨({}, o), ?_⟩
    simp only [desordre, backend, exec, hg, Ordre.range]
    exact ⟨rfl, rfl⟩
  refine ⟨requesterId, role, _, Backend.runs_bind.mpr (.inl ⟨group, s, hfind,
    Backend.runs_bind.mpr (.inl ⟨(), s, hcan, ({}, o), ({}, o), ({}, o), rfl, rfl⟩)⟩), fun m hm => ?_⟩
  obtain ⟨⟨userId, membre, besoins⟩, -, rfl⟩ := List.mem_map.mp (List.mem_mergeSort.mp hm)
  rfl

/-- The rows of one booking come last. -/
def dernier (id : BookingId) : Ordre where
  members rows := rows
  users rows := rows
  bookings rows := rows.filter (fun x => x.1 ≠ id) ++ rows.filter (fun x => !decide (x.1 ≠ id))
  members_perm _ := .refl _
  users_perm _ := .refl _
  bookings_perm rows := List.filter_append_perm _ rows

/-- This booking is the one that the map keeps. -/
theorem reservationDe_dernier {rows : List (BookingId × Booking)} {id : BookingId} {b : Booking}
    (hb : (id, b) ∈ rows) (hid : ∀ x, (id, x) ∈ rows → x = b) :
    GroupRosterService.reservationDe ((dernier id).bookings rows) b.pilgrimId = some (id, b) := by
  have hlast : ∀ y ∈ rows.filter (fun x => !decide (x.1 ≠ id)), y = (id, b) := by
    rintro ⟨k, x⟩ hy
    obtain ⟨hrow, hk⟩ := List.mem_filter.mp hy
    obtain rfl : k = id := not_not.mp (of_decide_eq_false ((Bool.not_eq_true' _).mp hk))
    rw [hid x hrow]
  have hmem : (id, b) ∈ rows.filter (fun x => !decide (x.1 ≠ id)) :=
    List.mem_filter.mpr ⟨hb, by simp⟩
  unfold GroupRosterService.reservationDe
  rw [show (dernier id).bookings rows = _ ++ _ from rfl, List.reverse_append, List.find?_append]
  rcases hfind : (rows.filter fun x => !decide (x.1 ≠ id)).reverse.find?
      (·.2.pilgrimId = b.pilgrimId) with _ | y
  · exact absurd (decide_eq_true rfl) (List.find?_eq_none.mp hfind _ (List.mem_reverse.mpr hmem))
  · rw [hfind, hlast y (List.mem_reverse.mp (List.mem_of_find?_eq_some hfind))]
    rfl

/-- **Exactly where it is right.** Where somebody may read each group, and the pilgrims of its bookings are its
members, the roster is right in every order of the rows if and only if no pilgrim has a cancelled booking
beside another one in a group. -/
theorem vivante_iff (hmembers : ∀ m ∈ s.groupMembers, m.userId < s.app.users.length)
    (hgroups : ∀ b ∈ s.app.bookings, ∀ groupId, b.groupId = some groupId →
      ⟨groupId, b.pilgrimId⟩ ∈ s.groupMembers ∧ Lisible s groupId) :
    Vivante localeCompare s ↔ Franche s.app.bookings := by
  refine ⟨fun h => ?_, fun h => Net.vivante ⟨hmembers, h⟩⟩
  suffices hlive : ∀ x ∈ s.app.bookings, ∀ y ∈ s.app.bookings, MemePlace x y →
      y.status ≠ .cancelled → x.status ≠ .cancelled by
    exact fun x hx y hy hplace => not_iff_not.mp
      ⟨hlive y hy x hx hplace.symm, hlive x hx y hy hplace⟩
  intro x hx y hy hplace hst
  obtain ⟨groupId, hgroup⟩ := Option.ne_none_iff_exists'.mp hplace.2.2
  obtain ⟨hmember, hread⟩ := hgroups x hx groupId hgroup
  obtain ⟨id, hid⟩ := List.mem_iff_getElem?.mp hx
  -- the roster whose last row is the booking `x`
  obtain ⟨requesterId, role, liste, hrun, hshown⟩ := getRoster_ordre localeCompare (dernier id) hread
  have hporte : Porte y ⟨groupId, x.pilgrimId⟩ := ⟨hplace.1.symm, hplace.2.1.symm.trans hgroup, hst⟩
  obtain ⟨⟨m, hm, huser⟩, hlive⟩ := h _ _ _ _ _ hrun x.pilgrimId hmember ⟨y, hy, hporte⟩
  obtain ⟨k, b, -, hb, -, hstatus⟩ := hlive m hm huser
  have hrows : ∀ z, z ∈ s.app.bookings.findMany (·.groupId = some groupId) ↔
      s.app.bookings[z.1]? = some z.2 ∧ z.2.groupId = some groupId := fun z => mem_rows (.refl _)
  have hlast := reservationDe_dernier ((hrows (id, x)).mpr ⟨hid, hgroup⟩)
    fun z hz => (Option.some.inj (hid.symm.trans ((hrows (id, z)).mp hz).1)).symm
  have hsame := hshown m hm
  rw [huser, hlast, hstatus] at hsame
  exact fun hcancelled => hb.2.2 ((Option.some.inj hsame).trans hcancelled)

end Shown

/-! ## Runs -/

/-- **The roster.** In every state that the requests on bookings and groups reach, in whatever order the
database returns the rows, a member with a booking in the group that is not cancelled is shown with one, where
no statement leaves a pilgrim a cancelled booking beside another one in a group. -/
theorem live_shown (localeCompare : String → String → Bool) {ι : Type} [DecidableEq ι]
    (requests : ι → Request) {s : Store} (hs : Net s) {c : Pool sig ι Store Erreur Unit}
    (hr : Pool.Reach backend (Rely.cond Franc) (poolOf requests s) c) : Vivante localeCompare c.st := by
  have h₀ : liveRely.inv (poolOf requests s).st := hs
  exact Net.vivante (Rely.reach_of_step h₀ live_step hr).1

private theorem groupe_title : 2 ≤ "Groupe".length := by decide

/-- The package has two seats. -/
private def deuxPlaces : Store :=
  { app := { Db.exemple with packages := Db.exemple.packages.map fun p => { p with capacity := 2 } } }

private theorem deuxPlaces_net : Net deuxPlaces := by
  refine ⟨?_, ?_⟩
  · rintro m ⟨⟩
  · rintro x ⟨⟩

/-- The pilgrim books twice, the agency puts both bookings in a group, and the pilgrim cancels the second
one. -/
private def doublon : Fin 6 → Request
  | 0 => .catalogue (.app (.createBooking 0 0))
  | 1 => .catalogue (.app (.createBooking 0 0))
  | 2 => .createGroup 1 ⟨0, "Groupe", groupe_title⟩
  | 3 => .assignGroup 1 0 0
  | 4 => .assignGroup 1 1 0
  | 5 => .catalogue (.app (.cancelBooking 0 1))

private def doublonApres (l : List Nat) : Pool sig (Fin 6) Store Erreur Unit :=
  Pool.run backend (turns (n := 5) l) (poolOf doublon deuxPlaces)

/-- Both bookings are in the group. -/
private def avant : List Nat :=
  List.replicate 6 0 ++ List.replicate 6 1 ++ List.replicate 2 2 ++ List.replicate 8 3 ++ List.replicate 8 4

/-- The order of the code points. -/
private def alphabet (a b : String) : Bool := a ≤ b

theorem live_shown_doublon : Vivante alphabet (doublonApres avant).st := by
  refine live_shown alphabet doublon deuxPlaces_net (Pool.Allowed.reach ?_ .refl)
  decide +kernel

/-- The second booking is cancelled. -/
private def reste : Store := (doublonApres (avant ++ List.replicate 4 5)).st

/-- The roster shows the cancelled booking of a pilgrim who has another one. -/
theorem cancelled_shown :
    ¬ ∀ (requests : Fin 6 → Request) (s : Store) (c : Pool sig (Fin 6) Store Erreur Unit), Net s →
      Pool.Reach backend (fun _ _ _ _ => True) (poolOf requests s) c → Vivante alphabet c.st := by
  intro h
  have hreach : Pool.Reach backend (fun _ _ _ _ => True) (poolOf doublon deuxPlaces)
      (doublonApres (avant ++ List.replicate 4 5)) := Pool.Allowed.reach (by decide +kernel) .refl
  have hmember : ⟨0, 0⟩ ∈ reste.groupMembers := by decide +kernel
  have hlive : ∃ b ∈ reste.app.bookings, Porte b ⟨0, 0⟩ := by decide +kernel
  have hshown : (desordre.eval ({}, dernier 1) (GroupRosterService.getRoster alphabet 1 .agency 0)
      reste).1.toOption.any (·.members.any fun m =>
        m.userId = 0 ∧ m.bookingStatus = some .cancelled) = true := by decide +kernel
  rcases hr : (desordre.eval ({}, dernier 1) (GroupRosterService.getRoster alphabet 1 .agency 0)
      reste).1 with x | liste
  · rw [hr] at hshown
    cases hshown
  rw [hr] at hshown
  obtain ⟨m, hm, hline⟩ := List.any_eq_true.mp (show liste.members.any _ = true from hshown)
  obtain ⟨huser, hstatus⟩ := of_decide_eq_true hline
  obtain ⟨-, hlines⟩ := h doublon deuxPlaces _ deuxPlaces_net hreach _ _ _ _ _
    (Backend.runs_of_eval hr) 0 hmember hlive
  obtain ⟨id, b, -, hporte, -, hb⟩ := hlines m hm huser
  exact hporte.2.2 (Option.some.inj (hb.symm.trans hstatus))

end OumraHajj.Groups
