import OumraHajj.Common.JsMap
import OumraHajj.Groups.Attaches

/-!
# Whom to call in an emergency

`EmergencyService.findMyContacts` (`src/modules/emergency/emergency.service.ts`): the agencies and the guides of a
user, from his bookings that are not cancelled and from the groups that he leads. The rows that two queries find
come through maps, one entry for each agency and each group, in the order of the database.

In every state that the requests reach, the contacts are exactly these, and whoever is listed as a guide is a
guide of an agency of the list (`emergency_contacts`).
-/

namespace OumraHajj.Emergency

open Async Groups

structure EmergencyAgencyContactShape where
  agencyId : AgencyId
  legalName : String
  phone : String
  deriving DecidableEq

structure EmergencyGuideContactShape where
  groupId : GroupId
  groupTitle : String
  fullName : String
  phone : Option String
  deriving DecidableEq

structure MyEmergencyContactsShape where
  agencies : List EmergencyAgencyContactShape
  guides : List EmergencyGuideContactShape

/-- A booking with what the query includes: its agency, and its group with the guide. -/
structure ReservationRecord where
  agency : AgencyId × Agency
  group : Option (GroupId × Group × Option User)

inductive Query where
  /-- `where: { pilgrimId: userId, status: { not: CANCELLED } }`. -/
  | bookingFindMany (userId : UserId)
  /-- `where: { guideId: userId }`, `include: { agency: true }`. -/
  | groupFindMany (userId : UserId)

def Query.Resp : Query → Type
  | .bookingFindMany _ => List ReservationRecord
  | .groupFindMany _ => List (AgencyId × Agency)

/-- The rows come in the order that the database finds. -/
structure Env extends OumraHajj.Env where
  ordre : Nat → Nat := id

/-- The rows that satisfy `P`, in the order of the database. -/
def Env.lignes {α : Type} (e : Env) (t : Table α) (P : α → Bool) : List (Nat × α) :=
  (t.findMany P).insertionSort fun x y => e.ordre x.1 ≤ e.ordre y.1

def agenceAvecId (s : Groups.Store) (id : AgencyId) : Option (AgencyId × Agency) := (s.app.agencies[id]?).map (id, ·)

def groupeAvecGuide (s : Groups.Store) (id : GroupId) : Option (GroupId × Group × Option User) :=
  (s.groups[id]?).map fun g => (id, g, g.guideId.bind fun u => s.app.users[u]?)

def Query.answer : (c : Query) → Env → Groups.Store → c.Resp
  | .bookingFindMany userId, e, s =>
    (e.lignes s.app.bookings fun b => b.pilgrimId = userId ∧ b.status ≠ .cancelled).filterMap fun x =>
      (agenceAvecId s x.2.agencyId).map fun agency => ⟨agency, x.2.groupId.bind (groupeAvecGuide s)⟩
  | .groupFindMany userId, e, s =>
    (e.lignes s.groups fun g => g.guideId = some userId).filterMap fun x => agenceAvecId s x.2.agencyId

abbrev sig : Sig := Groups.sig.sum ⟨Query, Query.Resp⟩

def backend : Backend sig Groups.Store Env where
  exec
    | .inl c, e, s => Groups.backend.exec c e.toEnv s
    | .inr c, e, s => (c.answer e s, s)

/-- A request handler. -/
abbrev Req := Prog sig Erreur

/-- Execute one query. -/
abbrev await (c : Query) : Req c.Resp := @Prog.exec sig _ (.inr c)

namespace EmergencyService

def contactAgence (agency : AgencyId × Agency) : AgencyId × EmergencyAgencyContactShape :=
  (agency.1, { agencyId := agency.1, legalName := agency.2.legalName, phone := agency.2.contactPhone })

/-- The contact of a group that has a guide. -/
def contactGuide (group : GroupId × Group × Option User) : Option (GroupId × EmergencyGuideContactShape) :=
  group.2.2.map fun guide =>
    (group.1,
      { groupId := group.1, groupTitle := group.2.1.title, fullName := guide.fullName, phone := guide.phone })

def agences (agencies : List (AgencyId × Agency)) : JsMap AgencyId EmergencyAgencyContactShape :=
  (∅ : JsMap AgencyId EmergencyAgencyContactShape).setAll (agencies.map contactAgence)

def guides (reservations : List ReservationRecord) : JsMap GroupId EmergencyGuideContactShape :=
  (∅ : JsMap GroupId EmergencyGuideContactShape).setAll
    (reservations.filterMap fun x => x.group.bind contactGuide)

def findMyContacts (userId : UserId) : Req MyEmergencyContactsShape := do
  let reservations ← await (.bookingFindMany userId)
  let groupesGuides ← await (.groupFindMany userId)
  return {
    agencies := (agences (List.map ReservationRecord.agency reservations ++ (id groupesGuides : List _))).values
    guides := (guides reservations).values }

end EmergencyService

/-! ## The contacts -/

section Contacts

variable {s : Groups.Store} {userId : UserId}

/-- A booking of the user that is not cancelled. -/
def Active (s : Groups.Store) (userId : UserId) (b : Booking) : Prop :=
  b ∈ s.app.bookings ∧ b.pilgrimId = userId ∧ b.status ≠ .cancelled

/-- The agency is one of the user's. -/
def Agence (s : Groups.Store) (userId : UserId) (a : EmergencyAgencyContactShape) : Prop :=
  (∃ row, s.app.agencies[a.agencyId]? = some row ∧ a.legalName = row.legalName ∧ a.phone = row.contactPhone) ∧
    ((∃ b, Active s userId b ∧ b.agencyId = a.agencyId) ∨
      ∃ g ∈ s.groups, g.guideId = some userId ∧ g.agencyId = a.agencyId)

/-- The guide leads the group of an active booking, of an agency that is known. -/
def Guide (s : Groups.Store) (userId : UserId) (x : EmergencyGuideContactShape) : Prop :=
  ∃ b g u guide, Active s userId b ∧ (s.app.agencies[b.agencyId]?).isSome ∧ b.groupId = some x.groupId ∧
    s.groups[x.groupId]? = some g ∧ g.guideId = some u ∧ s.app.users[u]? = some guide ∧
    x.groupTitle = g.title ∧ x.fullName = guide.fullName ∧ x.phone = guide.phone

theorem mem_lignes {α : Type} {e : Env} {t : Table α} {P : α → Bool} {i : Nat} {x : α} :
    (i, x) ∈ e.lignes t P ↔ t[i]? = some x ∧ P x = true := by
  rw [Env.lignes, (List.perm_insertionSort _ _).mem_iff, Table.findMany, List.mem_filter, Table.mem_withIds]

theorem mem_reservations {e : Env} {r : ReservationRecord} :
    r ∈ List.filterMap (fun x : BookingId × Booking =>
        (agenceAvecId s x.2.agencyId).map fun agency =>
          (⟨agency, x.2.groupId.bind (groupeAvecGuide s)⟩ : ReservationRecord))
        (e.lignes s.app.bookings fun b => b.pilgrimId = userId ∧ b.status ≠ .cancelled) ↔
      ∃ b row, Active s userId b ∧ s.app.agencies[b.agencyId]? = some row ∧
        r = ⟨(b.agencyId, row), b.groupId.bind (groupeAvecGuide s)⟩ := by
  rw [List.mem_filterMap]
  constructor
  · rintro ⟨⟨i, b⟩, hmem, hr⟩
    obtain ⟨hb, hactive⟩ := mem_lignes.mp hmem
    obtain ⟨agency, hagency, rfl⟩ := Option.map_eq_some_iff.mp hr
    obtain ⟨row, hrow, rfl⟩ := Option.map_eq_some_iff.mp hagency
    exact ⟨b, row, ⟨List.mem_iff_getElem?.mpr ⟨i, hb⟩, of_decide_eq_true hactive⟩, hrow, rfl⟩
  · rintro ⟨b, row, ⟨hmem, hactive⟩, hrow, rfl⟩
    obtain ⟨i, hb⟩ := List.mem_iff_getElem?.mp hmem
    refine ⟨(i, b), mem_lignes.mpr ⟨hb, decide_eq_true hactive⟩, ?_⟩
    simp [agenceAvecId, hrow]

theorem mem_groupes {e : Env} {y : AgencyId × Agency} :
    y ∈ List.filterMap (fun x : GroupId × Group => agenceAvecId s x.2.agencyId)
        (e.lignes s.groups fun g => g.guideId = some userId) ↔
      ∃ g ∈ s.groups, g.guideId = some userId ∧ g.agencyId = y.1 ∧ s.app.agencies[y.1]? = some y.2 := by
  rw [List.mem_filterMap]
  constructor
  · rintro ⟨⟨i, g⟩, hmem, hy⟩
    obtain ⟨hg, hguide⟩ := mem_lignes.mp hmem
    obtain ⟨row, hrow, rfl⟩ := Option.map_eq_some_iff.mp hy
    exact ⟨g, List.mem_iff_getElem?.mpr ⟨i, hg⟩, of_decide_eq_true hguide, rfl, hrow⟩
  · rintro ⟨g, hmem, hguide, heq, hrow⟩
    obtain ⟨i, hg⟩ := List.mem_iff_getElem?.mp hmem
    refine ⟨(i, g), mem_lignes.mpr ⟨hg, decide_eq_true hguide⟩, ?_⟩
    show (s.app.agencies[g.agencyId]?).map (g.agencyId, ·) = some y
    rw [heq, hrow]
    rfl

/-- The agencies of rows that were read. -/
theorem mem_agences {l : List (AgencyId × Agency)} (hl : ∀ y ∈ l, s.app.agencies[y.1]? = some y.2)
    {k : AgencyId} {a : EmergencyAgencyContactShape} :
    (k, a) ∈ (EmergencyService.agences l).entries ↔ ∃ y ∈ l, EmergencyService.contactAgence y = (k, a) := by
  refine (JsMap.mem_setAll ?_).trans List.mem_map
  intro x hx y hy heq
  obtain ⟨⟨i, row⟩, hi, rfl⟩ := List.mem_map.mp hx
  obtain ⟨⟨j, row'⟩, hj, rfl⟩ := List.mem_map.mp hy
  obtain rfl : i = j := heq
  obtain rfl : row = row' := Option.some.inj ((hl _ hi).symm.trans (hl _ hj))
  rfl

/-- The guides of groups that were read. -/
theorem mem_guides {l : List ReservationRecord} (hl : ∀ r ∈ l, ∀ x ∈ r.group, groupeAvecGuide s x.1 = some x)
    {k : GroupId} {x : EmergencyGuideContactShape} :
    (k, x) ∈ (EmergencyService.guides l).entries ↔
      ∃ r ∈ l, (r.group.bind EmergencyService.contactGuide) = some (k, x) := by
  refine (JsMap.mem_setAll ?_).trans List.mem_filterMap
  intro x hx y hy heq
  obtain ⟨r, hr, hxr⟩ := List.mem_filterMap.mp hx
  obtain ⟨r', hr', hyr⟩ := List.mem_filterMap.mp hy
  obtain ⟨g, hg, hxg⟩ := Option.bind_eq_some_iff.mp hxr
  obtain ⟨g', hg', hyg⟩ := Option.bind_eq_some_iff.mp hyr
  obtain ⟨u, hu, rfl⟩ := Option.map_eq_some_iff.mp hxg
  obtain ⟨u', hu', rfl⟩ := Option.map_eq_some_iff.mp hyg
  have hsame : g.1 = g'.1 := heq
  obtain rfl : g = g' := Option.some.inj ((hl r hr g hg).symm.trans (hsame ▸ hl r' hr' g' hg'))
  obtain rfl : u = u' := Option.some.inj (hu.symm.trans hu')
  rfl

/-- What the two queries answer. -/
structure Lues (s : Groups.Store) (userId : UserId) (reservations : List ReservationRecord)
    (groupes : List (AgencyId × Agency)) : Prop where
  reservations : ∀ r, r ∈ reservations ↔ ∃ b row, Active s userId b ∧ s.app.agencies[b.agencyId]? = some row ∧
    r = ⟨(b.agencyId, row), b.groupId.bind (groupeAvecGuide s)⟩
  groupes : ∀ y, y ∈ groupes ↔
    ∃ g ∈ s.groups, g.guideId = some userId ∧ g.agencyId = y.1 ∧ s.app.agencies[y.1]? = some y.2

theorem findMyContacts_runs {contacts : MyEmergencyContactsShape} {s' : Groups.Store}
    (hr : backend.Runs (EmergencyService.findMyContacts userId) s (.ok contacts) s') :
    s' = s ∧ ∃ reservations groupes, Lues s userId reservations groupes ∧
      contacts.agencies = (EmergencyService.agences (reservations.map (·.agency) ++ groupes)).values ∧
      contacts.guides = (EmergencyService.guides reservations).values := by
  obtain ⟨e, e', hcontacts, rfl⟩ := hr
  obtain rfl := Except.ok.inj hcontacts
  exact ⟨rfl, _, _, ⟨fun _ => mem_reservations, fun _ => mem_groupes⟩, rfl, rfl⟩

variable {reservations : List ReservationRecord} {groupes : List (AgencyId × Agency)}

theorem Lues.agences (h : Lues s userId reservations groupes) :
    ∀ y ∈ reservations.map (·.agency) ++ groupes, s.app.agencies[y.1]? = some y.2 := by
  intro y hy
  rcases List.mem_append.mp hy with hy | hy
  · obtain ⟨r, hr, rfl⟩ := List.mem_map.mp hy
    obtain ⟨b, row, -, hrow, rfl⟩ := (h.reservations r).mp hr
    exact hrow
  · obtain ⟨g, -, -, -, hrow⟩ := (h.groupes y).mp hy
    exact hrow

theorem Lues.mem_agencies (h : Lues s userId reservations groupes) {a : EmergencyAgencyContactShape} :
    a ∈ (EmergencyService.agences (reservations.map (·.agency) ++ groupes)).values ↔ Agence s userId a := by
  rw [JsMap.mem_values]
  constructor
  · rintro ⟨k, hmem⟩
    obtain ⟨y, hy, heq⟩ := (mem_agences h.agences).mp hmem
    obtain ⟨rfl, rfl⟩ := Prod.mk.inj heq
    refine ⟨⟨y.2, h.agences y hy, rfl, rfl⟩, ?_⟩
    rcases List.mem_append.mp hy with hy | hy
    · obtain ⟨r, hr, rfl⟩ := List.mem_map.mp hy
      obtain ⟨b, row, hactive, -, rfl⟩ := (h.reservations r).mp hr
      exact .inl ⟨b, hactive, rfl⟩
    · obtain ⟨g, hg, hguide, heq, -⟩ := (h.groupes y).mp hy
      exact .inr ⟨g, hg, hguide, heq⟩
  · rintro ⟨⟨row, hrow, hname, hphone⟩, hsource⟩
    refine ⟨a.agencyId, (mem_agences h.agences).mpr ⟨(a.agencyId, row), List.mem_append.mpr ?_, ?_⟩⟩
    · rcases hsource with ⟨b, hactive, hagency⟩ | ⟨g, hg, hguide, hagency⟩
      · refine .inl (List.mem_map.mpr ⟨_, (h.reservations _).mpr ⟨b, row, hactive, hagency ▸ hrow, rfl⟩, ?_⟩)
        rw [hagency]
      · exact .inr ((h.groupes _).mpr ⟨g, hg, hguide, hagency, hrow⟩)
    · rw [EmergencyService.contactAgence, ← hname, ← hphone]

theorem Lues.guides (h : Lues s userId reservations groupes) :
    ∀ r ∈ reservations, ∀ y ∈ r.group, groupeAvecGuide s y.1 = some y := by
  rintro r hr y hy
  obtain ⟨b, row, -, -, rfl⟩ := (h.reservations r).mp hr
  obtain ⟨i, -, hgroup⟩ := Option.bind_eq_some_iff.mp hy
  obtain ⟨g, hg, rfl⟩ := Option.map_eq_some_iff.mp hgroup
  exact Option.map_eq_some_iff.mpr ⟨g, hg, rfl⟩

theorem Lues.mem_guides (h : Lues s userId reservations groupes) {x : EmergencyGuideContactShape} :
    x ∈ (EmergencyService.guides reservations).values ↔ Guide s userId x := by
  rw [JsMap.mem_values]
  constructor
  · rintro ⟨k, hmem⟩
    obtain ⟨r, hr, hx⟩ := (Emergency.mem_guides h.guides).mp hmem
    obtain ⟨b, row, hactive, hrow, rfl⟩ := (h.reservations r).mp hr
    obtain ⟨y, hy, hcontact⟩ := Option.bind_eq_some_iff.mp hx
    obtain ⟨i, hi, hgroup⟩ := Option.bind_eq_some_iff.mp hy
    obtain ⟨g, hg, rfl⟩ := Option.map_eq_some_iff.mp hgroup
    obtain ⟨guide, hguide, heq⟩ := Option.map_eq_some_iff.mp hcontact
    obtain ⟨u, hu, huser⟩ := Option.bind_eq_some_iff.mp hguide
    obtain ⟨rfl, rfl⟩ := Prod.mk.inj heq
    exact ⟨b, g, u, guide, hactive, by rw [hrow]; rfl, hi, hg, hu, huser, rfl, rfl, rfl⟩
  · rintro ⟨b, g, u, guide, hactive, hsome, hi, hg, hu, huser, htitle, hname, hphone⟩
    obtain ⟨row, hrow⟩ := Option.isSome_iff_exists.mp hsome
    refine ⟨x.groupId, (Emergency.mem_guides h.guides).mpr
      ⟨_, (h.reservations _).mpr ⟨b, row, hactive, hrow, rfl⟩, ?_⟩⟩
    simp only [hi, Option.bind_some, groupeAvecGuide, hg, Option.map_some, EmergencyService.contactGuide, hu,
      huser, ← htitle, ← hname, ← hphone]

end Contacts

/-- **Whom to call.** In every state that requests reach, run at once, the contacts of a user are exactly his
agencies (of his bookings that are not cancelled, and of the groups that he leads) and the guides of the groups
of these bookings, each of them once; and whoever is listed as a guide is a guide of an agency of the list. -/
theorem emergency_contacts {ι : Type} [DecidableEq ι] (requests : ι → Groups.Request) {s : Groups.Store}
    (hs : Attaches s) {c : Pool Groups.sig ι Groups.Store Erreur Unit}
    (hr : Pool.Reach Groups.backend Pool.anyStep (Groups.poolOf requests s) c) {userId : UserId}
    {contacts : MyEmergencyContactsShape} {s' : Groups.Store}
    (hrun : backend.Runs (EmergencyService.findMyContacts userId) c.st (.ok contacts) s') :
    ((contacts.agencies.map (·.agencyId)).Nodup ∧ ∀ a, a ∈ contacts.agencies ↔ Agence c.st userId a) ∧
      ((contacts.guides.map (·.groupId)).Nodup ∧ ∀ x, x ∈ contacts.guides ↔ Guide c.st userId x) ∧
      ∀ x ∈ contacts.guides, ∃ a ∈ contacts.agencies, c.st.agenceDe x.groupId = some a.agencyId ∧
        ∃ u guide, c.st.GuideDe u a.agencyId ∧ c.st.app.users[u]? = some guide ∧ guide.fullName = x.fullName := by
  have h₀ : attachesRely.inv (Groups.poolOf requests s).st := hs
  have hr' : Pool.Reach Groups.backend (Rely.cond fun _ _ _ => True) (Groups.poolOf requests s) c :=
    hr.mono fun _ _ _ _ _ _ _ => trivial
  obtain ⟨hattaches, -⟩ := Rely.reach h₀ (fun t => attaches_keeps (requests t) s) hr'
  obtain ⟨-, reservations, groupes, hlues, hagencies, hguides⟩ := findMyContacts_runs hrun
  have hmemAgencies : ∀ a, a ∈ contacts.agencies ↔ Agence c.st userId a := fun _ =>
    hagencies ▸ hlues.mem_agencies
  have hmemGuides : ∀ x, x ∈ contacts.guides ↔ Guide c.st userId x := fun _ => hguides ▸ hlues.mem_guides
  refine ⟨⟨?_, hmemAgencies⟩, ⟨?_, hmemGuides⟩, fun x hx => ?_⟩
  · rw [hagencies]
    refine JsMap.values_nodup fun ⟨k, a⟩ hy => ?_
    obtain ⟨z, -, heq⟩ := (mem_agences hlues.agences).mp hy
    obtain ⟨rfl, rfl⟩ := Prod.mk.inj heq
    rfl
  · rw [hguides]
    refine JsMap.values_nodup fun ⟨k, x⟩ hy => ?_
    obtain ⟨r, -, heq⟩ := (mem_guides hlues.guides).mp hy
    obtain ⟨g, -, hcontact⟩ := Option.bind_eq_some_iff.mp heq
    obtain ⟨u, -, hx⟩ := Option.map_eq_some_iff.mp hcontact
    obtain ⟨rfl, rfl⟩ := Prod.mk.inj hx
    rfl
  · obtain ⟨b, g, u, guide, hactive, hsome, hi, hg, hu, huser, -, hname, -⟩ := (hmemGuides x).mp hx
    obtain ⟨row, hrow⟩ := Option.isSome_iff_exists.mp hsome
    have hagence := hattaches.bookings b hactive.1 x.groupId hi
    have hsame : g.agencyId = b.agencyId := by
      rw [Store.agenceDe, hg] at hagence
      exact Option.some.inj hagence
    refine ⟨⟨b.agencyId, row.legalName, row.contactPhone⟩, (hmemAgencies _).mpr ⟨⟨row, hrow, rfl, rfl⟩,
      .inl ⟨b, hactive, rfl⟩⟩, hagence, u, guide, ?_, huser, hname.symm⟩
    exact hsame ▸ hattaches.guides g (List.mem_iff_getElem?.mpr ⟨_, hg⟩) u hu

/-- A guide of the agency, and two bookings of the pilgrim. -/
private def depart : Groups.Store where
  app := { Db.exemple with
    users :=
      [{ fullName := "Pèlerin" }, { fullName := "Gérante" },
        { fullName := "Guide", role := .guide, agencyId := some 0, phone := some "+224600000001" }]
    bookings := [Booking.exemple, { Booking.exemple with status := .cancelled }, Booking.exemple] }
  groups := [{ packageId := 0, agencyId := 0, title := "Groupe" }]

/-- The owner gives the group to the guide, and the booking to the group. -/
private def preparer : Fin 2 → Groups.Request
  | 0 => .assignGuide 1 0 2
  | 1 => .assignGroup 1 0 0

private def prepare : Pool Groups.sig (Fin 2) Groups.Store Erreur Unit :=
  Pool.run Groups.backend (turns (List.replicate 7 [0, 1]).flatten) (Groups.poolOf preparer depart)

private def appel : Except Erreur MyEmergencyContactsShape × Groups.Store :=
  backend.eval {} (EmergencyService.findMyContacts 0) prepare.st

/-- The agency of both bookings is listed once. -/
theorem emergency_contacts_depart :
    (appel.1.toOption.map fun contacts => (contacts.agencies.map (·.legalName), contacts.guides.map (·.phone))) =
      some (["Agence"], [some "+224600000001"]) ∧
      ∀ h : appel.1.toOption.isSome = true,
        ((appel.1.toOption.get h).agencies.map (·.agencyId)).Nodup := by
  have hs : Attaches depart := by
    refine ⟨?_, ?_⟩
    · rintro g hg u hu
      obtain rfl := List.mem_singleton.mp hg
      cases hu
    · intro b hb i hi
      have hall : ∀ b ∈ depart.app.bookings, b.groupId = none := by decide
      rw [hall b hb] at hi
      cases hi
  have hr : Pool.Reach Groups.backend Pool.anyStep (Groups.poolOf preparer depart) prepare := .run .refl _
  exact ⟨by decide +kernel, fun h =>
    (emergency_contacts preparer hs hr (Backend.eval_runs_ok (p := EmergencyService.findMyContacts 0) h)).1.1⟩

end OumraHajj.Emergency
