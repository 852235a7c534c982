import OumraHajj.Common.Csv
import OumraHajj.Groups.Store

/-!
# The services of the groups

`GroupsService` (`src/modules/groups/groups.service.ts`), `GroupRosterService`
(`group-roster.service.ts`), `BookingsService.assignGroup` (`src/modules/bookings/bookings.service.ts`) and
`UsersService.replaceSpecialNeeds` (`src/modules/users/users.service.ts`).
The order of the names in a roster, `localeCompare` with the locale `fr`, is a parameter.
-/

namespace OumraHajj.Groups

open Async

structure ItineraryStepShape where
  label : String
  date : Time
  location : Option String

structure MemberLocationShape where
  userId : UserId
  fullName : String
  lat : ℚ
  lng : ℚ
  updatedAt : Time

structure GroupShape where
  id : GroupId
  packageId : PackageId
  agencyId : AgencyId
  title : String
  guideId : Option UserId
  memberIds : List UserId
  itinerary : List ItineraryStepShape
  locations : List MemberLocationShape

def toGroupShape (group : GroupRecord) : GroupShape where
  id := group.id
  packageId := group.group.packageId
  agencyId := group.group.agencyId
  title := group.group.title
  guideId := group.group.guideId
  memberIds := group.members.map (·.userId)
  itinerary := group.itinerary.map fun step =>
    { label := step.label, date := step.date, location := step.location }
  locations := group.locations.map fun (location, fullName) =>
    { userId := location.userId
      fullName
      lat := location.lat
      lng := location.lng
      updatedAt := location.updatedAt }

structure CreateGroupDto where
  packageId : PackageId
  title : String
  /-- `@MinLength(2)`. -/
  title_length : 2 ≤ title.length

structure AddItineraryStepDto where
  label : String
  date : Time
  location : Option String := none
  /-- `@MinLength(2)`. -/
  label_length : 2 ≤ label.length

namespace GroupsService

def create (ownerId : UserId) (dto : CreateGroupDto) : Req GroupShape := do
  let agency ← app (AgenciesService.findByOwnerOrFail ownerId)
  match ← await (.groupCreate dto.packageId agency.id dto.title) with
  | .ok group => return toGroupShape group
  | .error code => .fail (.prisma code)

def findByIdOrFail (id : GroupId) : Req GroupShape := do
  match ← await (.groupFindUnique id) with
  | some group => return toGroupShape group
  | none => .fail (.notFound "Groupe introuvable")

/-- A group shows the positions that its members share: to the members, the guide, the agency and the
administrator. -/
def findAuthorizedOrFail (requesterId : UserId) (requesterRole : Role) (groupId : GroupId) :
    Req GroupShape := do
  let group ← findByIdOrFail groupId
  let interdit : Req GroupShape := .fail (.forbidden "Vous n'avez pas accès à ce groupe")
  if requesterRole = .admin then return group
  else if requesterId ∈ group.memberIds ∨ group.guideId = some requesterId then return group
  else if requesterRole = .agency then
    let agency ← app (AgenciesService.findByOwnerOrFail requesterId)
    if group.agencyId = agency.id then return group else interdit
  else interdit

def assertAgencyOwnership (ownerId : UserId) (group : GroupShape) : Req Unit := do
  let agency ← app (AgenciesService.findByOwnerOrFail ownerId)
  if group.agencyId ≠ agency.id then
    .fail (.forbidden "Ce groupe n'appartient pas à votre agence")
  else return ()

/-- A guide leads one group at a time, and none during an absence. -/
def assertGuideAvailable (guideId : UserId) (group : GroupShape) : Req Unit := do
  match ← app (OumraHajj.await (.packageFindUnique group.packageId)) with
  | none => return ()
  | some forfait =>
    match ← await (.groupFindFirst guideId group.id forfait.startDate forfait.endDate) with
    | some title =>
      .fail (.conflict ("Ce guide mène déjà le groupe « " ++ title ++ " » sur ces dates"))
    | none =>
      match ← await (.guideUnavailabilityFindFirst guideId forfait.startDate forfait.endDate) with
      | some _ => .fail (.conflict "Ce guide est déclaré indisponible sur ces dates")
      | none => return ()

def assignGuide (ownerId : UserId) (groupId : GroupId) (guideUserId : UserId) : Req GroupShape := do
  let group ← findByIdOrFail groupId
  assertAgencyOwnership ownerId group
  let guide ← app (UsersService.findByIdOrFail guideUserId)
  if guide.role ≠ .guide then
    .fail (.badRequest "L'utilisateur désigné n'a pas le rôle guide")
  else if guide.agencyId ≠ some group.agencyId then
    .fail (.forbidden "Ce guide n'est pas rattaché à votre agence")
  else
    assertGuideAvailable guide.id group
    match ← await (.groupUpdate group.id guide.id) with
    | .ok updated => return toGroupShape updated
    | .error code => .fail (.prisma code)

def addMember (ownerId : UserId) (groupId : GroupId) (pilgrimUserId : UserId) : Req GroupShape := do
  let group ← findByIdOrFail groupId
  assertAgencyOwnership ownerId group
  if pilgrimUserId ∈ group.memberIds then findByIdOrFail groupId
  else
    match ← await (.groupMemberCreate group.id pilgrimUserId) with
    | .ok _ => findByIdOrFail groupId
    | .error code => .fail (.prisma code)

def addItineraryStep (ownerId : UserId) (groupId : GroupId) (dto : AddItineraryStepDto) :
    Req GroupShape := do
  let group ← findByIdOrFail groupId
  assertAgencyOwnership ownerId group
  match ← await (.groupItineraryStepCreate
    { groupId := group.id, label := dto.label, date := dto.date, location := dto.location }) with
  | .ok _ => findByIdOrFail groupId
  | .error code => .fail (.prisma code)

def updateLocation (userId : UserId) (groupId : GroupId) (lat lng : ℚ) : Req GroupShape := do
  let group ← findByIdOrFail groupId
  if userId ∉ group.memberIds ∧ group.guideId ≠ some userId then
    .fail (.forbidden "Vous ne faites pas partie de ce groupe")
  else
    match ← await (.groupMemberLocationUpsert group.id userId lat lng) with
    | .ok _ => findByIdOrFail groupId
    | .error code => .fail (.prisma code)

def clearLocation (userId : UserId) (groupId : GroupId) : Req Unit := do
  let _ ← await (.groupMemberLocationDeleteMany groupId userId)
  return ()

/-- The alert to the guide, if the group has one. -/
def alerter (group : GroupShape) (type : NotificationType) (title content : Texte)
    (isCritical : Bool) : Req Unit :=
  match group.guideId with
  | some guideId =>
    app (NotificationsService.send { recipientIds := [guideId], type, title, content, isCritical })
  | none => return ()

def triggerSos (pilgrimUserId : UserId) (groupId : GroupId) : Req Unit := do
  let group ← findByIdOrFail groupId
  if pilgrimUserId ∉ group.memberIds then
    .fail (.forbidden "Vous ne faites pas partie de ce groupe")
  else
    let pilgrim ← app (UsersService.findByIdOrFail pilgrimUserId)
    alerter group .sos [.txt "Alerte SOS"]
      [.txt (pilgrim.fullName ++ " a déclenché une alerte SOS dans le groupe \"" ++ group.title ++
        "\".")] true
    match pilgrim.emergencyContact with
    | some contact =>
      if contact.phone = "" then return ()
      else app (NotificationsService.sendRawSms contact.phone
        [.txt ("Alerte SOS : " ++ pilgrim.fullName ++
          " a déclenché une alerte d'urgence pendant son voyage.")])
    | none => return ()

def triggerLostAlert (pilgrimUserId : UserId) (groupId : GroupId) (lat lng : ℚ) : Req Unit := do
  let group ← findByIdOrFail groupId
  if pilgrimUserId ∉ group.memberIds then
    .fail (.forbidden "Vous ne faites pas partie de ce groupe")
  else
    let _ ← updateLocation pilgrimUserId groupId lat lng
    let pilgrim ← app (UsersService.findByIdOrFail pilgrimUserId)
    alerter group .other [.txt "Pèlerin perdu"]
      [.txt (pilgrim.fullName ++ " a signalé être perdu. Sa position a été mise à jour.")] false

end GroupsService

namespace BookingsService

def assignGroup (ownerId : UserId) (bookingId : BookingId) (groupId : GroupId) : Req BookingShape := do
  let booking ← app (OumraHajj.BookingsService.findByIdOrFail bookingId)
  app (OumraHajj.BookingsService.assertAgencyOwnership ownerId booking)
  let _ ← GroupsService.addMember ownerId groupId booking.pilgrimId
  match ← await (.bookingUpdate booking.id groupId) with
  | .ok updated => return toBookingShape booking.id updated
  | .error code => .fail (.prisma code)

end BookingsService

/-! ## Special needs -/

structure SpecialNeedsShape where
  mobility : String
  dietary : Option String
  medical : Option String
  assistance : Option String
  updatedAt : Time

def toSpecialNeedsShape (besoins : SpecialNeeds) : SpecialNeedsShape where
  mobility := besoins.mobility
  dietary := besoins.dietary
  medical := besoins.medical
  assistance := besoins.assistance
  updatedAt := besoins.updatedAt

/-- `MOBILITY_LEVELS`. -/
def mobilityLevels : List String := ["none", "reduced", "wheelchair"]

/-- A declaration replaces the one before: a field that is absent is erased. -/
structure UpdateSpecialNeedsDto where
  mobility : String
  dietary : Option String := none
  medical : Option String := none
  assistance : Option String := none
  /-- `@IsIn(MOBILITY_LEVELS)`. -/
  mobility_mem : mobility ∈ mobilityLevels
  /-- `@MaxLength(500)`. -/
  textes_length : ∀ texte ∈ [dietary, medical, assistance].filterMap id, texte.length ≤ 500

/-- White space and line terminators are removed at both ends. -/
def trim (texte : String) : String :=
  .ofList ((texte.toList.dropWhile Csv.estEspace).reverse.dropWhile Csv.estEspace).reverse

/-- Nothing empty is stored. -/
def texteOuNull (valeur : Option String) : Option String :=
  (valeur.map trim).filter (· ≠ "")

namespace UsersService

def replaceSpecialNeeds (userId : UserId) (dto : UpdateSpecialNeedsDto) : Req SpecialNeedsShape := do
  match ← await (.specialNeedsUpsert userId dto.mobility (texteOuNull dto.dietary)
    (texteOuNull dto.medical) (texteOuNull dto.assistance)) with
  | .ok besoins => return toSpecialNeedsShape besoins
  | .error code => .fail (.prisma code)

end UsersService

/-! ## The roster -/

structure GroupRosterMemberShape where
  userId : UserId
  fullName : String
  phone : Option String
  email : Option String
  bookingId : Option BookingId
  bookingStatus : Option BookingStatus
  emergencyContact : Option EmergencyContact
  specialNeeds : Option SpecialNeedsShape

structure GroupRosterShape where
  groupId : GroupId
  groupTitle : String
  generatedAt : Time
  members : List GroupRosterMemberShape

/-- `LIBELLE_MOBILITE`; `none` where it has no entry. -/
def libelleMobilite (mobility : String) : Option String :=
  if mobility = "none" then some ""
  else if mobility = "reduced" then some "mobilité réduite"
  else if mobility = "wheelchair" then some "fauteuil roulant"
  else none

/-- `LIBELLE_STATUT`. -/
def libelleStatut : BookingStatus → String
  | .pendingPayment => "paiement en attente"
  | .confirmed => "confirmée"
  | .cancelled => "annulée"
  | .completed => "terminée"

namespace GroupRosterService

/-- `reservationParPelerin.get(membre.id)`: the map keeps the last booking of a pilgrim. -/
def reservationDe (reservations : List (BookingId × Booking)) (userId : UserId) :
    Option (BookingId × Booking) :=
  reservations.reverse.find? (·.2.pilgrimId = userId)

/-- The contact of a member who has given its name and its phone. -/
def contactDe (membre : User) : Option EmergencyContact :=
  match membre.emergencyContactFullName, membre.emergencyContactPhone with
  | some fullName, some phone =>
    if fullName ≠ "" ∧ phone ≠ "" then
      some ⟨fullName, phone, membre.emergencyContactRelationship⟩
    else none
  | _, _ => none

/-- A line of the roster. -/
def toMember (reservations : List (BookingId × Booking)) :
    UserId × User × Option SpecialNeeds → GroupRosterMemberShape
  | (userId, membre, besoins) =>
    let reservation := reservationDe reservations userId
    { userId
      fullName := membre.fullName
      phone := membre.phone
      email := membre.email
      bookingId := reservation.map Prod.fst
      bookingStatus := reservation.map (·.2.status)
      emergencyContact := contactDe membre
      specialNeeds := besoins.map toSpecialNeedsShape }

def assertCanReadRoster (requesterId : UserId) (requesterRole : Role) (group : GroupShape) :
    Req Unit := do
  let interdit : Req Unit :=
    .fail (.forbidden "La liste du groupe est réservée à l'agence et au guide du groupe")
  if requesterRole = .guide ∧ group.guideId = some requesterId then return ()
  else if requesterRole = .agency then
    let agency ← app (AgenciesService.findByOwnerOrFail requesterId)
    if agency.id = group.agencyId then return () else interdit
  else interdit

section LocaleCompare

variable (localeCompare : String → String → Bool)

def getRoster (requesterId : UserId) (requesterRole : Role) (groupId : GroupId) :
    Req GroupRosterShape := do
  let group ← GroupsService.findByIdOrFail groupId
  assertCanReadRoster requesterId requesterRole group
  let membres ← await (.userFindMany group.memberIds)
  let reservations ← await (.bookingFindMany group.id)
  let generatedAt ← app (OumraHajj.await .now)
  return {
    groupId := group.id
    groupTitle := group.title
    generatedAt
    members := (List.map (toMember reservations) membres).mergeSort
      fun a b => localeCompare a.fullName b.fullName }

/-- The cells of a member. -/
def cellules (m : GroupRosterMemberShape) : List (Option String) :=
  [some m.fullName, m.phone, m.email, m.bookingId.map toString, m.bookingStatus.map libelleStatut,
    m.emergencyContact.map (·.fullName), m.emergencyContact.map (·.phone),
    m.emergencyContact.bind (·.relationship),
    m.specialNeeds.bind fun besoins => libelleMobilite besoins.mobility,
    m.specialNeeds.bind (·.dietary), m.specialNeeds.bind (·.medical),
    m.specialNeeds.bind (·.assistance)]

def entete : String :=
  ",".intercalate ["nom", "telephone", "email", "reservation", "statut_reservation",
    "contact_urgence", "telephone_contact_urgence", "lien_contact_urgence", "mobilite",
    "regime_alimentaire", "information_medicale", "accompagnement"]

def getRosterCsv (requesterId : UserId) (requesterRole : Role) (groupId : GroupId) : Req String := do
  let liste ← getRoster localeCompare requesterId requesterRole groupId
  return Csv.fichier "\n" entete (liste.members.map fun m =>
    Csv.ligne "," ((cellules m).map (·.getD "")))

end LocaleCompare

end GroupRosterService

/-! ## Requests -/

inductive Request where
  | catalogue (q : Catalogue.Request)
  | createGroup (ownerId : UserId) (dto : CreateGroupDto)
  | assignGuide (ownerId : UserId) (groupId : GroupId) (guideUserId : UserId)
  | assignGroup (ownerId : UserId) (bookingId : BookingId) (groupId : GroupId)
  | addItineraryStep (ownerId : UserId) (groupId : GroupId) (dto : AddItineraryStepDto)
  | updateLocation (userId : UserId) (groupId : GroupId) (lat lng : ℚ)
  | clearLocation (userId : UserId) (groupId : GroupId)
  | triggerSos (pilgrimUserId : UserId) (groupId : GroupId)
  | triggerLostAlert (pilgrimUserId : UserId) (groupId : GroupId) (lat lng : ℚ)
  | replaceSpecialNeeds (userId : UserId) (dto : UpdateSpecialNeedsDto)

/-- The handler of a request, without the value that it returns. -/
def handler : Request → Req Unit
  | .catalogue q => Prog.left (Catalogue.handler q)
  | .createGroup ownerId dto => (GroupsService.create ownerId dto).void
  | .assignGuide ownerId groupId guideUserId =>
    (GroupsService.assignGuide ownerId groupId guideUserId).void
  | .assignGroup ownerId bookingId groupId =>
    (BookingsService.assignGroup ownerId bookingId groupId).void
  | .addItineraryStep ownerId groupId dto => (GroupsService.addItineraryStep ownerId groupId dto).void
  | .updateLocation userId groupId lat lng =>
    (GroupsService.updateLocation userId groupId lat lng).void
  | .clearLocation userId groupId => GroupsService.clearLocation userId groupId
  | .triggerSos pilgrimUserId groupId => GroupsService.triggerSos pilgrimUserId groupId
  | .triggerLostAlert pilgrimUserId groupId lat lng =>
    GroupsService.triggerLostAlert pilgrimUserId groupId lat lng
  | .replaceSpecialNeeds userId dto => (UsersService.replaceSpecialNeeds userId dto).void

/-- The requests run at once, from the store `s`. -/
def poolOf {ι : Type} (requests : ι → Request) (s : Store) : Pool sig ι Store Erreur Unit :=
  ⟨fun t => handler (requests t), s⟩

end OumraHajj.Groups
