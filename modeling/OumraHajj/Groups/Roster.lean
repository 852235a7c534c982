import OumraHajj.Async.Rely
import OumraHajj.Groups.Assignment
import OumraHajj.Services.Requests

/-!
# The special needs in a roster

A roster shows the special needs of the members of a group. Health data: the agency of the group may see
those of the pilgrims who have an active booking with it. `needs_of_active`: it sees no others, where no
statement leaves a member with special needs without such a booking (`Prudent`).
-/

namespace OumraHajj.Groups

open Async

/-- The booking is of the user, with the agency, and not cancelled. -/
def Active (b : Booking) (userId : UserId) (agencyId : AgencyId) : Prop :=
  b.pilgrimId = userId ∧ b.agencyId = agencyId ∧ b.status ≠ .cancelled

instance (b : Booking) (userId : UserId) (agencyId : AgencyId) : Decidable (Active b userId agencyId) :=
  inferInstanceAs (Decidable (_ ∧ _))

namespace Store

variable (s : Store)

def ReservationActive (userId : UserId) (agencyId : AgencyId) : Prop :=
  ∃ b ∈ s.app.bookings, Active b userId agencyId

/-- The agency of a group. -/
def agenceDe (groupId : GroupId) : Option AgencyId := (s.groups[groupId]?).map (·.agencyId)

/-- The user is a member of a group of the agency. -/
def MembreDe (userId : UserId) (agencyId : AgencyId) : Prop :=
  ∃ m ∈ s.groupMembers, m.userId = userId ∧ s.agenceDe m.groupId = some agencyId

instance (userId : UserId) (agencyId : AgencyId) : Decidable (s.ReservationActive userId agencyId) :=
  inferInstanceAs (Decidable (∃ b ∈ s.app.bookings, Active b userId agencyId))

instance (userId : UserId) (agencyId : AgencyId) : Decidable (s.MembreDe userId agencyId) :=
  inferInstanceAs (Decidable (∃ m ∈ s.groupMembers, _ ∧ _))

end Store

/-- The members with special needs have an active booking with the agency of their group. -/
structure Discret (s : Store) : Prop where
  /-- A member is of a group that exists. -/
  members : ∀ m ∈ s.groupMembers, m.groupId < s.groups.length
  active : ∀ userId agencyId, (s.needsOf userId).isSome = true → s.MembreDe userId agencyId →
    s.ReservationActive userId agencyId

/-! ## What a roster shows -/

section Shown

variable {localeCompare : String → String → Bool} {s s' : Store} {requesterId : UserId}
  {groupId : GroupId}

/-- The agency that reads the roster is that of the group. -/
theorem canRead_runs {group : GroupShape} {r : Except Erreur Unit}
    (h : backend.Runs (GroupRosterService.assertCanReadRoster requesterId .agency group) s r s') :
    s' = s ∧ (r = .ok () → ∃ agency, s.app.agencyOf requesterId = some (group.agencyId, agency)) := by
  unfold GroupRosterService.assertCanReadRoster at h
  rw [if_neg (fun hrole => by cases hrole.1), if_pos rfl] at h
  rcases Backend.runs_bind.mp h with ⟨shape, s₁, hown, h₁⟩ | ⟨x, hown, hr⟩
  · obtain ⟨hown, rfl⟩ := app_reads (owner_reads requesterId) hown
    rcases owner_id_iff hown with ⟨_, hshape, hid⟩ | ⟨-, x, hx⟩
    · obtain rfl := Except.ok.inj hshape
      split at h₁
      · next heq => exact ⟨h₁.2, fun _ => (hid _).mp heq.symm⟩
      · refine ⟨h₁.2, fun hr => ?_⟩
        cases h₁.1.symm.trans hr
    · cases hx
  · obtain ⟨-, rfl⟩ := app_reads (owner_reads requesterId) hown
    refine ⟨rfl, fun hr' => ?_⟩
    cases hr.symm.trans hr'

/-- The lines of a roster are members of the group, with their special needs. -/
theorem getRoster_runs {liste : GroupRosterShape}
    (h : backend.Runs (GroupRosterService.getRoster localeCompare requesterId .agency groupId) s
      (.ok liste) s') :
    ∃ agencyId agency, s.app.agencyOf requesterId = some (agencyId, agency) ∧
      s.agenceDe groupId = some agencyId ∧ ∀ m ∈ liste.members, ⟨groupId, m.userId⟩ ∈ s.groupMembers ∧
        m.specialNeeds = (s.needsOf m.userId).map toSpecialNeedsShape := by
  rcases Backend.runs_bind.mp h with ⟨group, s₁, hfind, h₁⟩ | ⟨x, -, hx⟩
  swap
  · cases hx
  obtain ⟨rfl, ⟨g, hg, hgroup⟩ | ⟨-, x, hx⟩⟩ := find_runs hfind
  swap
  · cases hx
  obtain rfl := Except.ok.inj hgroup
  rcases Backend.runs_bind.mp h₁ with ⟨_, s₂, hcan, h₂⟩ | ⟨x, -, hx⟩
  swap
  · cases hx
  obtain ⟨rfl, hcan⟩ := canRead_runs hcan
  obtain ⟨agency, hagency⟩ := hcan rfl
  obtain ⟨_, _, _, hliste, _⟩ := h₂
  refine ⟨g.agencyId, agency, hagency, by rw [Store.agenceDe, hg]; rfl, fun m hm => ?_⟩
  rw [Except.ok.inj hliste] at hm
  -- a line of the roster is made of a user among the members
  obtain ⟨⟨userId, membre, besoins⟩, hx, rfl⟩ := List.mem_map.mp (List.mem_mergeSort.mp hm)
  obtain ⟨⟨id, u⟩, hu, hrow⟩ := List.mem_map.mp hx
  cases hrow
  exact ⟨mem_memberIds.mp (List.contains_iff_mem.mp (List.mem_filter.mp hu).2), rfl⟩

/-- What an agency sees of the special needs in the rosters, and in the files made of them: those of the
pilgrims who have an active booking with it. -/
structure Confidentiel (localeCompare : String → String → Bool) (s : Store) : Prop where
  roster : ∀ requesterId groupId liste s',
    backend.Runs (GroupRosterService.getRoster localeCompare requesterId .agency groupId) s
      (.ok liste) s' → ∃ agencyId agency, s.app.agencyOf requesterId = some (agencyId, agency) ∧
        ∀ m ∈ liste.members, m.specialNeeds.isSome = true → s.ReservationActive m.userId agencyId
  csv : ∀ requesterId groupId texte s',
    backend.Runs (GroupRosterService.getRosterCsv localeCompare requesterId .agency groupId) s
      (.ok texte) s' → ∃ agencyId agency liste, s.app.agencyOf requesterId = some (agencyId, agency) ∧
        texte = Csv.fichier "\n" GroupRosterService.entete (List.map
          (fun m => Csv.ligne "," ((GroupRosterService.cellules m).map (·.getD ""))) liste) ∧
        ∀ m ∈ liste, (∃ cellule ∈ (GroupRosterService.cellules m).drop 8, cellule ≠ none) →
          s.ReservationActive m.userId agencyId

/-- A member without special needs has no cell for them. -/
theorem besoins_of_cellule {m : GroupRosterMemberShape} {cellule : Option String}
    (hm : cellule ∈ (GroupRosterService.cellules m).drop 8) (hcellule : cellule ≠ none) :
    m.specialNeeds.isSome = true := by
  rcases hb : m.specialNeeds with _ | besoins
  · rw [GroupRosterService.cellules, hb] at hm
    simp only [List.drop, Option.bind_none, List.mem_cons, List.not_mem_nil, or_false, or_self] at hm
    exact absurd hm hcellule
  · rfl

theorem Discret.confidentiel (hs : Discret s) : Confidentiel localeCompare s := by
  have hroster : ∀ {requesterId groupId liste s'},
      backend.Runs (GroupRosterService.getRoster localeCompare requesterId .agency groupId) s
        (.ok liste) s' → ∃ agencyId agency, s.app.agencyOf requesterId = some (agencyId, agency) ∧
          ∀ m ∈ liste.members, m.specialNeeds.isSome = true → s.ReservationActive m.userId agencyId := by
    intro requesterId groupId liste s' h
    obtain ⟨agencyId, agency, hagency, hgroup, hmembers⟩ := getRoster_runs h
    refine ⟨agencyId, agency, hagency, fun m hm hneeds => ?_⟩
    obtain ⟨hmember, hbesoins⟩ := hmembers m hm
    rw [hbesoins, Option.isSome_map] at hneeds
    exact hs.active _ _ hneeds ⟨_, hmember, rfl, hgroup⟩
  refine ⟨fun _ _ _ _ => hroster, fun requesterId groupId texte s' h => ?_⟩
  rcases Backend.runs_bind.mp h with ⟨liste, s₁, hliste, htexte, -⟩ | ⟨x, -, hx⟩
  · obtain ⟨agencyId, agency, hagency, hmembers⟩ := hroster hliste
    refine ⟨agencyId, agency, liste.members, hagency, Except.ok.inj htexte, ?_⟩
    rintro m hm ⟨cellule, hcellule, hne⟩
    exact hmembers m hm (besoins_of_cellule hcellule hne)
  · cases hx

end Shown

/-! ## The statements -/

/-- The booking that a statement cancels. -/
def annulee : OumraHajj.Stmt → Option BookingId
  | .bookingUpdate id .cancelled => some id
  | _ => none

/-- The member that a statement adds. -/
def ajoutee : Stmt → Option GroupMember
  | .groupMemberCreate groupId userId => some ⟨groupId, userId⟩
  | _ => none

/-- The user whose special needs a statement writes. -/
def declarant : Stmt → Option UserId
  | .specialNeedsUpsert userId _ _ _ _ => some userId
  | _ => none

/-- A member with special needs keeps an active booking with the agency: a cancellation leaves another
one, and a member who is added, or who declares special needs, has one. -/
def Prudent : sig.Stmt → Store → Env → Prop
  | .inl (.inl c), s, _ =>
    ∀ id ∈ annulee c, ∀ b ∈ s.app.bookings[id]?, (s.needsOf b.pilgrimId).isSome = true →
      s.MembreDe b.pilgrimId b.agencyId →
        ∃ x ∈ s.app.bookings.withIds, x.1 ≠ id ∧ Active x.2 b.pilgrimId b.agencyId
  | .inl (.inr _), _, _ => True
  | .inr c, s, _ =>
    (∀ m ∈ ajoutee c, (s.needsOf m.userId).isSome = true → ∀ a ∈ s.agenceDe m.groupId,
      s.ReservationActive m.userId a) ∧
    ∀ userId ∈ declarant c, ∀ m ∈ s.groupMembers, m.userId = userId → ∀ a ∈ s.agenceDe m.groupId,
      s.ReservationActive userId a

instance : (c : sig.Stmt) → (s : Store) → (e : Env) → Decidable (Prudent c s e)
  | .inl (.inl c), s, _ =>
    inferInstanceAs (Decidable (∀ id ∈ annulee c, ∀ b ∈ s.app.bookings[id]?,
      (s.needsOf b.pilgrimId).isSome = true → s.MembreDe b.pilgrimId b.agencyId →
        ∃ x ∈ s.app.bookings.withIds, x.1 ≠ id ∧ Active x.2 b.pilgrimId b.agencyId))
  | .inl (.inr _), _, _ => isTrue trivial
  | .inr c, s, _ =>
    inferInstanceAs (Decidable ((∀ m ∈ ajoutee c, (s.needsOf m.userId).isSome = true →
      ∀ a ∈ s.agenceDe m.groupId, s.ReservationActive m.userId a) ∧
      ∀ userId ∈ declarant c, ∀ m ∈ s.groupMembers, m.userId = userId → ∀ a ∈ s.agenceDe m.groupId,
        s.ReservationActive userId a))

section Steps

variable {s s' : Store}

theorem agenceDe_of_map (h : s'.groups.map (·.agencyId) = s.groups.map (·.agencyId)) :
    s'.agenceDe = s.agenceDe := by
  funext groupId
  rw [Store.agenceDe, Store.agenceDe, ← List.getElem?_map, ← List.getElem?_map, h]

/-- The active bookings stay. -/
theorem active_of_laisse (h : s.app.Laisse s'.app) {userId : UserId} {agencyId : AgencyId}
    (hactive : s.ReservationActive userId agencyId) : s'.ReservationActive userId agencyId := by
  obtain ⟨b, hb, hpilgrim, hagency, hst⟩ := hactive
  obtain ⟨id, hb⟩ := List.mem_iff_getElem?.mp hb
  obtain ⟨b', hb', hterms, hst'⟩ := h id b hb hst
  have hpilgrim' : b'.pilgrimId = b.pilgrimId := congrArg Terms.pilgrimId hterms
  have hagency' : b'.agencyId = b.agencyId := congrArg Terms.agencyId hterms
  exact ⟨b', List.mem_iff_getElem?.mpr ⟨id, hb'⟩, hpilgrim'.trans hpilgrim, hagency'.trans hagency, hst'⟩

/-- The groups and their members stay, and so do the special needs and the active bookings. -/
theorem Discret.frame (hs : Discret s) (hgroups : s'.groups.map (·.agencyId) = s.groups.map (·.agencyId))
    (hmembers : s'.groupMembers = s.groupMembers) (hneeds : s'.specialNeeds = s.specialNeeds)
    (hactive : ∀ userId agencyId, s.ReservationActive userId agencyId →
      s'.ReservationActive userId agencyId) : Discret s' := by
  have hlength : s'.groups.length = s.groups.length := by
    have hlength := congrArg List.length hgroups
    rwa [List.length_map, List.length_map] at hlength
  refine ⟨fun m hm => ?_, fun userId agencyId hn hm => hactive _ _ (hs.active userId agencyId ?_ ?_)⟩
  · rw [hlength]
    exact hs.members m (hmembers ▸ hm)
  · rwa [Store.needsOf, hneeds] at hn
  · rwa [Store.MembreDe, hmembers, agenceDe_of_map hgroups] at hm

/-- A booking is cancelled. -/
theorem Discret.cancel (hs : Discret s) {id : BookingId} (e : Env)
    (ho : Prudent (.inl (.inl (.bookingUpdate id .cancelled))) s e) :
    Discret (backend.exec (.inl (.inl (.bookingUpdate id .cancelled))) e s).2 := by
  rcases hb : s.app.bookings[id]? with _ | b
  · refine hs.frame rfl rfl rfl fun userId agencyId => active_of_laisse (laisse_of_eq ?_)
    show (OumraHajj.exec _ e s.app).2.bookings = s.app.bookings
    simp only [OumraHajj.exec, hb]
  have hbookings : (backend.exec (.inl (.inl (.bookingUpdate id .cancelled))) e s).2.app.bookings =
      s.app.bookings.set id { b with status := .cancelled } := by
    show (OumraHajj.exec _ e s.app).2.bookings = _
    simp only [OumraHajj.exec, hb]
  refine ⟨hs.members, fun userId agencyId hn hm => ?_⟩
  -- a booking that is active before, or the other one that the condition gives
  have hother : ∃ x ∈ s.app.bookings.withIds, x.1 ≠ id ∧ Active x.2 userId agencyId := by
    obtain ⟨x, hx, hactive⟩ := hs.active userId agencyId hn hm
    obtain ⟨k, hk⟩ := List.mem_iff_getElem?.mp hx
    by_cases hid : k = id
    · subst hid
      obtain rfl := Option.some.inj (hb.symm.trans hk)
      obtain ⟨rfl, rfl, -⟩ := hactive
      exact ho _ rfl b hb hn hm
    · exact ⟨(k, x), Table.mem_withIds.mpr hk, hid, hactive⟩
  obtain ⟨⟨k, x⟩, hx, hne, hactive⟩ := hother
  refine ⟨x, List.mem_iff_getElem?.mpr ⟨k, ?_⟩, hactive⟩
  rw [hbookings, Table.get_set hb, if_neg (Ne.symm hne)]
  exact Table.mem_withIds.mp hx

/-- A group is created: it has no member. -/
theorem Discret.groupCreate (hs : Discret s) (data : Group) :
    Discret { s with groups := s.groups ++ [data] } := by
  refine ⟨fun m hm => ?_, fun userId agencyId hn => ?_⟩
  · rw [List.length_append]
    exact Nat.lt_add_right _ (hs.members m hm)
  · rintro ⟨m, hm, huser, hagence⟩
    refine hs.active userId agencyId hn ⟨m, hm, huser, ?_⟩
    rwa [Store.agenceDe, List.getElem?_append_left (hs.members m hm)] at hagence

/-- A member is added. -/
theorem Discret.groupMemberCreate (hs : Discret s) {groupId : GroupId} {userId : UserId} {g : Group}
    (hg : s.groups[groupId]? = some g)
    (ho : (s.needsOf userId).isSome = true → s.ReservationActive userId g.agencyId) :
    Discret { s with groupMembers := s.groupMembers ++ [⟨groupId, userId⟩] } := by
  refine ⟨fun m hm => ?_, fun user agencyId hn => ?_⟩
  · rcases List.mem_append.mp hm with hm | hm
    · exact hs.members m hm
    · obtain rfl := List.mem_singleton.mp hm
      exact Table.lt_of_get hg
  · rintro ⟨m, hm, huser, hagence⟩
    rcases List.mem_append.mp hm with hm | hm
    · exact hs.active user agencyId hn ⟨m, hm, huser, hagence⟩
    · obtain rfl := List.mem_singleton.mp hm
      obtain rfl : userId = user := huser
      have hagence : s.agenceDe groupId = some agencyId := hagence
      rw [Store.agenceDe, hg] at hagence
      obtain rfl := Option.some.inj hagence
      exact ho hn

/-- The special needs of the other users stay. -/
theorem isSome_declarer {rows : List SpecialNeeds} {besoins : SpecialNeeds} {userId : UserId}
    (h : ((Store.declarer rows besoins).find? (·.userId = userId)).isSome = true) :
    besoins.userId = userId ∨ (rows.find? (·.userId = userId)).isSome = true := by
  obtain ⟨x, hx, huser⟩ := List.find?_isSome.mp h
  unfold Store.declarer at hx
  split at hx
  · obtain ⟨y, hy, rfl⟩ := List.mem_map.mp hx
    split at huser
    · exact .inl (of_decide_eq_true huser)
    · exact .inr (List.find?_isSome.mpr ⟨y, hy, huser⟩)
  · rcases List.mem_append.mp hx with hx | hx
    · exact .inr (List.find?_isSome.mpr ⟨x, hx, huser⟩)
    · obtain rfl := List.mem_singleton.mp hx
      exact .inl (of_decide_eq_true huser)

/-- A user declares special needs. -/
theorem Discret.declare (hs : Discret s) {besoins : SpecialNeeds}
    (ho : ∀ m ∈ s.groupMembers, m.userId = besoins.userId → ∀ a ∈ s.agenceDe m.groupId,
      s.ReservationActive besoins.userId a) :
    Discret { s with specialNeeds := Store.declarer s.specialNeeds besoins } := by
  refine ⟨hs.members, fun userId agencyId hn hm => ?_⟩
  rcases isSome_declarer hn with rfl | hn
  · obtain ⟨m, hmember, huser, hagence⟩ := hm
    exact ho m hmember huser agencyId hagence
  · exact hs.active userId agencyId hn hm

/-- A booking is put in a group. -/
theorem active_of_assign {id : BookingId} {groupId : GroupId} {b : Booking}
    (hb : s.app.bookings[id]? = some b)
    (hs' : s'.app.bookings = s.app.bookings.set id { b with groupId := some groupId }) {userId : UserId}
    {agencyId : AgencyId} (hactive : s.ReservationActive userId agencyId) :
    s'.ReservationActive userId agencyId := by
  obtain ⟨x, hx, hactive⟩ := hactive
  obtain ⟨k, hk⟩ := List.mem_iff_getElem?.mp hx
  by_cases hid : id = k
  · subst hid
    obtain rfl := Option.some.inj (hb.symm.trans hk)
    refine ⟨{ b with groupId := some groupId }, List.mem_iff_getElem?.mpr ⟨id, ?_⟩, hactive⟩
    rw [hs', Table.get_set hb, if_pos rfl]
  · refine ⟨x, List.mem_iff_getElem?.mpr ⟨k, ?_⟩, hactive⟩
    rw [hs', Table.get_set hb, if_neg hid]
    exact hk

theorem Discret.exec_groups (hs : Discret s) {c : Stmt} {e : Env} (ho : Prudent (.inr c) s e) :
    Discret (exec c e s).2 := by
  cases c
  case groupCreate packageId agencyId title =>
    simp only [exec]
    split
    · exact hs.groupCreate _
    · exact hs
  case groupUpdate id guideId =>
    simp only [exec]
    split
    · next g hg _ => exact hs.frame (map_set_of_eq hg rfl) rfl rfl fun _ _ h => h
    · exact hs
    · exact hs
  case groupMemberCreate groupId userId =>
    simp only [exec]
    split
    · next g _ hg _ =>
      split
      · exact hs
      · refine hs.groupMemberCreate hg fun hn => ho.1 _ rfl hn g.agencyId ?_
        rw [Store.agenceDe, hg]
        rfl
    · exact hs
  case bookingUpdate id groupId =>
    simp only [exec]
    split
    · next b _ hb _ => exact hs.frame rfl rfl rfl fun _ _ => active_of_assign hb rfl
    · exact hs
    · exact hs
  case specialNeedsUpsert userId mobility dietary medical assistance =>
    simp only [exec]
    split
    · exact hs.declare (ho.2 _ rfl)
    · exact hs
  all_goals first
    | exact hs
    | exact hs.frame rfl rfl rfl fun _ _ h => h
    | simp only [exec]
      split <;> first | exact hs | exact hs.frame rfl rfl rfl fun _ _ h => h

/-- The invariant, whatever the other handlers do. -/
def needsRely : Rely Store where
  inv := Discret
  le _ _ := True
  refl _ := trivial
  trans _ _ _ _ _ := trivial

theorem needs_step (c : sig.Stmt) : needsRely.Step backend Prudent c := by
  refine fun s e hs ho => ⟨?_, trivial⟩
  rcases c with (c | c) | c
  · rcases sansAnnulation_or c with ⟨id, rfl⟩ | hc
    · exact Discret.cancel hs e ho
    · exact Discret.frame hs rfl rfl rfl fun _ _ => active_of_laisse (exec_laisse hc e s.app)
  · exact Discret.frame hs rfl rfl rfl fun _ _ =>
      active_of_laisse (exec_conserve (c := .inl (.inr c)) trivial e s).2
  · exact Discret.exec_groups hs ho

end Steps

/-- **Health data.** In every state that the requests on bookings and groups reach, an agency sees in its
rosters the special needs of pilgrims with an active booking only, where no statement leaves a member
with special needs without one. -/
theorem needs_of_active (localeCompare : String → String → Bool) {ι : Type} [DecidableEq ι]
    (requests : ι → Request) {s : Store} (hs : Discret s) {c : Pool sig ι Store Erreur Unit}
    (hr : Pool.Reach backend (Rely.cond Prudent) (poolOf requests s) c) :
    Confidentiel localeCompare c.st := by
  have h₀ : needsRely.inv (poolOf requests s).st := hs
  exact Discret.confidentiel (Rely.reach_of_step h₀ needs_step hr).1

/-! ## Runs on fixed inputs -/

private theorem roster_title : 2 ≤ "Groupe".length := by decide

/-- The pilgrim has declared special needs. -/
private def declaree : Store := { app := .exemple, specialNeeds := [{ userId := 0, updatedAt := 0 }] }

private theorem declaree_discret : Discret declaree := by
  refine ⟨?_, ?_⟩
  · rintro m ⟨⟩
  · rintro userId agencyId - ⟨m, ⟨⟩, -⟩

/-- The pilgrim books, the agency puts the booking in a group, and the pilgrim cancels. -/
private def voyage : Fin 4 → Request
  | 0 => .catalogue (.app (.createBooking 0 0))
  | 1 => .createGroup 1 ⟨0, "Groupe", roster_title⟩
  | 2 => .assignGroup 1 0 0
  | 3 => .catalogue (.app (.cancelBooking 0 0))

private def voyageApres (l : List Nat) : Pool sig (Fin 4) Store Erreur Unit :=
  Pool.run backend (turns (n := 3) l) (poolOf voyage declaree)

/-- The booking, the group and the booking in the group. -/
private def avantAnnulation : List Nat := [0, 0, 0, 0, 0, 0, 1, 1, 2, 2, 2, 2, 2, 2, 2, 2]

/-- The order of the code points. -/
private def ordre (a b : String) : Bool := a ≤ b

theorem needs_of_active_voyage : Confidentiel ordre (voyageApres avantAnnulation).st := by
  refine needs_of_active ordre voyage declaree_discret (Pool.Allowed.reach ?_ .refl)
  decide +kernel

/-- The pilgrim has cancelled. -/
private def annule : Store := (voyageApres (avantAnnulation ++ [3, 3, 3, 3])).st

/-- The agency sees the special needs of a pilgrim who has cancelled. -/
theorem needs_after_cancellation :
    ¬ ∀ (requests : Fin 4 → Request) (s : Store) (c : Pool sig (Fin 4) Store Erreur Unit), Discret s →
      Pool.Reach backend (fun _ _ _ _ => True) (poolOf requests s) c → Confidentiel ordre c.st := by
  intro h
  have hreach : Pool.Reach backend (fun _ _ _ _ => True) (poolOf voyage declaree)
      (voyageApres (avantAnnulation ++ [3, 3, 3, 3])) := Pool.Allowed.reach (by decide +kernel) .refl
  have hcancelled : ∀ b ∈ annule.app.bookings, b.status = .cancelled := by decide +kernel
  have hshown : (backend.eval {} (GroupRosterService.getRoster ordre 1 .agency 0) annule).1.toOption.any
      (·.members.any (·.specialNeeds.isSome)) = true := by decide +kernel
  rcases hr : (backend.eval {} (GroupRosterService.getRoster ordre 1 .agency 0) annule).1 with x | liste
  · rw [hr] at hshown
    cases hshown
  rw [hr] at hshown
  obtain ⟨m, hm, hneeds⟩ := List.any_eq_true.mp (show liste.members.any _ = true from hshown)
  obtain ⟨agencyId, agency, -, hmembers⟩ :=
    (h voyage declaree _ declaree_discret hreach).roster _ _ _ _ (Backend.runs_of_eval hr)
  obtain ⟨b, hb, -, -, hst⟩ := hmembers m hm hneeds
  exact hst (hcancelled b hb)

end OumraHajj.Groups
