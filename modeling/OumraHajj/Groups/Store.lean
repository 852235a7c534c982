import OumraHajj.Catalogue.Service

/-!
# Groups: rows and statements

The rows of `groups` and of what belongs to a group (its members, its itinerary, the positions that are
shared in it), the special needs of the pilgrims and the absences of the guides, beside the rest of the
database. No route deletes a group or a member.
-/

namespace OumraHajj.Groups

open Async

abbrev GroupId := Nat

structure Group where
  packageId : PackageId
  agencyId : AgencyId
  title : String
  guideId : Option UserId := none

structure GroupMember where
  groupId : GroupId
  userId : UserId
  deriving DecidableEq

structure GroupItineraryStep where
  groupId : GroupId
  label : String
  date : Time
  location : Option String := none

structure GroupMemberLocation where
  groupId : GroupId
  userId : UserId
  lat : ℚ
  lng : ℚ
  updatedAt : Time

/-- Health data: `@unique` by user. -/
structure SpecialNeeds where
  userId : UserId
  mobility : String := "none"
  dietary : Option String := none
  medical : Option String := none
  assistance : Option String := none
  updatedAt : Time

structure GuideUnavailability where
  agencyId : AgencyId
  guideId : UserId
  startDate : Time
  endDate : Time
  reason : Option String := none

/-- The database with its groups. -/
structure Store where
  app : Db := {}
  groups : Table Group := []
  groupMembers : List GroupMember := []
  groupItinerarySteps : List GroupItineraryStep := []
  groupMemberLocations : List GroupMemberLocation := []
  specialNeeds : List SpecialNeeds := []
  guideUnavailabilities : List GuideUnavailability := []

/-- `GroupRecord`: a group with what `GROUP_INCLUDE` includes; each position has the name of its user. -/
structure GroupRecord where
  id : GroupId
  group : Group
  members : List GroupMember
  itinerary : List GroupItineraryStep
  locations : List (GroupMemberLocation × String)

namespace Store

variable (s : Store)

/-- `include: GROUP_INCLUDE`. -/
def record (id : GroupId) (group : Group) : GroupRecord where
  id := id
  group := group
  members := s.groupMembers.filter (·.groupId = id)
  itinerary := s.groupItinerarySteps.filter (·.groupId = id)
  locations := (s.groupMemberLocations.filter (·.groupId = id)).filterMap fun l =>
    (s.app.users[l.userId]?).map fun u => (l, u.fullName)

/-- The special needs of a user. -/
def needsOf (userId : UserId) : Option SpecialNeeds := s.specialNeeds.find? (·.userId = userId)

end Store

/-- `startDate: { lte: fin }` and `endDate: { gte: debut }`: the bounds are included. -/
def Chevauche (startDate endDate debut fin : Time) : Prop := startDate ≤ fin ∧ debut ≤ endDate

instance (startDate endDate debut fin : Time) : Decidable (Chevauche startDate endDate debut fin) :=
  inferInstanceAs (Decidable (_ ∧ _))

/-- The package of a group has dates that overlap the period. -/
def Store.periode (s : Store) (debut fin : Time) (g : Group) : Bool :=
  (s.app.packages[g.packageId]?).any fun p => Chevauche p.startDate p.endDate debut fin

inductive Stmt where
  | groupCreate (packageId : PackageId) (agencyId : AgencyId) (title : String)
  | groupFindUnique (id : GroupId)
  | groupUpdate (id : GroupId) (guideId : UserId)
  /-- `where: { guideId, NOT: { id }, package: periode }`. -/
  | groupFindFirst (guideId : UserId) (id : GroupId) (debut fin : Time)
  /-- `where: { guideId, ...periode }`. -/
  | guideUnavailabilityFindFirst (guideId : UserId) (debut fin : Time)
  | groupMemberCreate (groupId : GroupId) (userId : UserId)
  | groupItineraryStepCreate (data : GroupItineraryStep)
  | groupMemberLocationUpsert (groupId : GroupId) (userId : UserId) (lat lng : ℚ)
  | groupMemberLocationDeleteMany (groupId : GroupId) (userId : UserId)
  /-- `booking.update` with `data: { groupId }`. -/
  | bookingUpdate (id : BookingId) (groupId : GroupId)
  /-- `where: { groupId }`. -/
  | bookingFindMany (groupId : GroupId)
  /-- `where: { id: { in: ids } }`, `include: { specialNeeds: true }`. -/
  | userFindMany (ids : List UserId)
  | specialNeedsUpsert (userId : UserId) (mobility : String) (dietary medical assistance : Option String)

/-- The answer of each statement; `none` or an error is a rejected call. -/
def Resp : Stmt → Type
  | .groupCreate _ _ _ => Except String GroupRecord
  | .groupFindUnique _ => Option GroupRecord
  | .groupUpdate _ _ => Except String GroupRecord
  | .groupFindFirst _ _ _ _ => Option String
  | .guideUnavailabilityFindFirst _ _ _ => Option Time
  | .groupMemberCreate _ _ => Except String Unit
  | .groupItineraryStepCreate _ => Except String Unit
  | .groupMemberLocationUpsert _ _ _ _ => Except String Unit
  | .groupMemberLocationDeleteMany _ _ => Nat
  | .bookingUpdate _ _ => Except String Booking
  | .bookingFindMany _ => List (BookingId × Booking)
  | .userFindMany _ => List (UserId × User × Option SpecialNeeds)
  | .specialNeedsUpsert _ _ _ _ _ => Except String SpecialNeeds

/-- The statements of the groups and of the other services. -/
abbrev sig : Sig := Catalogue.sig.sum ⟨Stmt, Resp⟩

namespace Store

/-- The position of a user in a group. -/
def dePlace (groupId : GroupId) (userId : UserId) (l : GroupMemberLocation) : Bool :=
  l.groupId = groupId ∧ l.userId = userId

/-- `upsert` on the unique index: the position is moved, or gets a row. -/
def upsert (rows : List GroupMemberLocation) (l : GroupMemberLocation) : List GroupMemberLocation :=
  if rows.any (dePlace l.groupId l.userId) then
    rows.map fun x => if dePlace l.groupId l.userId x then l else x
  else rows ++ [l]

/-- `upsert` on the unique user. -/
def declarer (rows : List SpecialNeeds) (besoins : SpecialNeeds) : List SpecialNeeds :=
  if rows.any (·.userId = besoins.userId) then
    rows.map fun x => if x.userId = besoins.userId then besoins else x
  else rows ++ [besoins]

end Store

/-- What a statement answers, and the store after it. -/
def exec : (c : Stmt) → Env → Store → Resp c × Store
  | .groupCreate packageId agencyId title, _, s =>
    match s.app.packages[packageId]?, s.app.agencies[agencyId]? with
    | some _, some _ =>
      (.ok (s.record s.groups.length { packageId, agencyId, title }),
        { s with groups := s.groups ++ [{ packageId, agencyId, title }] })
    | _, _ => (.error "P2003", s)
  | .groupFindUnique id, _, s => ((s.groups[id]?).map (s.record id), s)
  | .groupUpdate id guideId, _, s =>
    match s.groups[id]?, s.app.users[guideId]? with
    | some g, some _ =>
      (.ok (s.record id { g with guideId := some guideId }),
        { s with groups := s.groups.set id { g with guideId := some guideId } })
    | none, _ => (.error "P2025", s)
    | _, _ => (.error "P2003", s)
  | .groupFindFirst guideId id debut fin, _, s =>
    ((s.groups.withIds.find? fun x =>
      x.2.guideId = some guideId ∧ x.1 ≠ id ∧ s.periode debut fin x.2).map (·.2.title), s)
  | .guideUnavailabilityFindFirst guideId debut fin, _, s =>
    ((s.guideUnavailabilities.find? fun a =>
      a.guideId = guideId ∧ Chevauche a.startDate a.endDate debut fin).map (·.startDate), s)
  | .groupMemberCreate groupId userId, _, s =>
    match s.groups[groupId]?, s.app.users[userId]? with
    | some _, some _ =>
      if ⟨groupId, userId⟩ ∈ s.groupMembers then (.error "P2002", s)
      else (.ok (), { s with groupMembers := s.groupMembers ++ [⟨groupId, userId⟩] })
    | _, _ => (.error "P2003", s)
  | .groupItineraryStepCreate data, _, s =>
    match s.groups[data.groupId]? with
    | some _ => (.ok (), { s with groupItinerarySteps := s.groupItinerarySteps ++ [data] })
    | none => (.error "P2003", s)
  | .groupMemberLocationUpsert groupId userId lat lng, e, s =>
    match s.groups[groupId]?, s.app.users[userId]? with
    | some _, some _ =>
      (.ok (), { s with
        groupMemberLocations := Store.upsert s.groupMemberLocations
          { groupId, userId, lat, lng, updatedAt := e.now } })
    | _, _ => (.error "P2003", s)
  | .groupMemberLocationDeleteMany groupId userId, _, s =>
    (s.groupMemberLocations.countP (Store.dePlace groupId userId),
      { s with
        groupMemberLocations :=
          s.groupMemberLocations.filter fun l => !Store.dePlace groupId userId l })
  | .bookingUpdate id groupId, _, s =>
    match s.app.bookings[id]?, s.groups[groupId]? with
    | some b, some _ =>
      (.ok { b with groupId := some groupId },
        { s with
          app := { s.app with bookings := s.app.bookings.set id { b with groupId := some groupId } } })
    | none, _ => (.error "P2025", s)
    | _, _ => (.error "P2003", s)
  | .bookingFindMany groupId, _, s => (s.app.bookings.findMany (·.groupId = some groupId), s)
  | .userFindMany ids, _, s =>
    ((s.app.users.withIds.filter fun x => ids.contains x.1).map fun x => (x.1, x.2, s.needsOf x.1), s)
  | .specialNeedsUpsert userId mobility dietary medical assistance, e, s =>
    match s.app.users[userId]? with
    | some _ =>
      let besoins : SpecialNeeds := { userId, mobility, dietary, medical, assistance, updatedAt := e.now }
      (.ok besoins, { s with specialNeeds := Store.declarer s.specialNeeds besoins })
    | none => (.error "P2003", s)

/-- The backend of the groups. -/
def backend : Backend sig Store Env where
  exec
    | .inl c, e, s =>
      ((Catalogue.backend.exec c e s.app).1, { s with app := (Catalogue.backend.exec c e s.app).2 })
    | .inr c, e, s => exec c e s

/-- A request handler. -/
abbrev Req := Prog sig Erreur

/-- Execute one statement. -/
abbrev await (c : Stmt) : Req (Resp c) := @Prog.exec sig _ (.inr c)

/-- A handler of the services of the bookings, the users and the agencies. -/
abbrev app {α : Type} (p : OumraHajj.Req α) : Req α := Prog.left (Prog.left p : Catalogue.Req α)

end OumraHajj.Groups
