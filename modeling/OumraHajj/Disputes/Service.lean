import OumraHajj.Disputes.Store
import OumraHajj.Services.Requests

/-!
# The services of the disputes

`DisputesService` (`src/modules/disputes/disputes.service.ts`) and `DisputePurgeService`: the
pilgrim opens a dispute on a booking and talks with the agency; after an answer, or
`AGENCY_RESPONSE_DAYS` without one, the administration may be asked to decide. The access log is
written outside the database and is not modelled.
-/

namespace OumraHajj.Disputes

open Async

/-- `AGENCY_RESPONSE_DAYS`. -/
def agencyResponseDays : Nat := 7

/-- `DISPUTE_RETENTION_MONTHS`. -/
def disputeRetentionMonths : Int := 24

/-- `VISIBLES_ADMIN`. -/
def visiblesAdmin : DisputeStatus → Bool
  | .escalated => true
  | .closed => true
  | _ => false

structure DisputeMessageShape where
  id : Nat
  authorRole : Role
  authorName : String
  content : String
  createdAt : Time

structure DisputeShape where
  id : DisputeId
  bookingId : BookingId
  packageTitle : String
  agencyId : AgencyId
  agencyName : String
  pilgrimName : String
  category : DisputeCategory
  subject : String
  status : DisputeStatus
  decision : Option String
  escalatedAt : Option Time
  closedAt : Option Time
  createdAt : Time
  updatedAt : Time
  escalationAvailableAt : Time
  messages : List DisputeMessageShape

def toDisputeShape (litige : LitigeDetail) : DisputeShape :=
  { id := litige.id
    bookingId := litige.dispute.bookingId
    packageTitle := litige.packageTitle
    agencyId := litige.dispute.agencyId
    agencyName := litige.agencyLegalName
    pilgrimName := litige.pilgrimFullName
    category := litige.dispute.category
    subject := litige.dispute.subject
    status := litige.dispute.status
    decision := litige.dispute.decision
    escalatedAt := litige.dispute.escalatedAt
    closedAt := litige.dispute.closedAt
    createdAt := litige.dispute.createdAt
    updatedAt := litige.dispute.updatedAt
    escalationAvailableAt := litige.dispute.createdAt + agencyResponseDays * jourMs
    messages := litige.messages.map fun m =>
      { id := m.id
        authorRole := m.message.authorRole
        authorName := m.authorFullName
        content := m.message.content
        createdAt := m.message.createdAt } }

structure CreateDisputeDto where
  bookingId : BookingId
  category : DisputeCategory
  subject : String
  message : String

/-- Who sees a dispute. -/
def autorise (userId : UserId) (role : Role) (litige : LitigeDetail) : Bool :=
  (role = .pilgrim && litige.dispute.pilgrimId = userId) ||
    (role = .agency && litige.agencyOwnerId = userId) ||
    (role = .admin && visiblesAdmin litige.dispute.status)

/-- The status after a message: the dialogue alternates, until the dispute is escalated. -/
def suivant (etat : DisputeStatus) (role : Role) : DisputeStatus :=
  if etat = .escalated then etat
  else if role = .agency then .agencyResponded
  else .open

/-- Whether the agency had its time to answer. -/
def delaiEcoule (now createdAt : Time) : Bool := now - createdAt ≥ agencyResponseDays * jourMs

/-- Whether a dispute may be escalated. -/
def escaladable (etat : DisputeStatus) (now createdAt : Time) : Bool :=
  etat = .agencyResponded || (etat = .open && delaiEcoule now createdAt)

namespace DisputesService

def notifier (destinataires : List UserId) (title : String) (content : Texte) : Req Unit :=
  if destinataires.length = 0 then return ()
  else Prog.left (NotificationsService.send
    { recipientIds := destinataires, type := .other, title := [.txt title], content })

def findAuthorizedOrFail (userId : UserId) (role : Role) (id : DisputeId) : Req LitigeDetail := do
  match ← await (.disputeFindUnique id) with
  | none => .fail (.notFound "Litige introuvable")
  | some litige =>
    if autorise userId role litige then return litige
    else .fail (.forbidden "Vous n'avez pas accès à ce litige")

def findOne (userId : UserId) (role : Role) (id : DisputeId) : Req DisputeShape := do
  let litige ← findAuthorizedOrFail userId role id
  return toDisputeShape litige

def create (pilgrimId : UserId) (dto : CreateDisputeDto) : Req DisputeShape := do
  match ← await (.bookingFindUnique dto.bookingId) with
  | none => .fail (.notFound "Réservation introuvable")
  | some (reservation, ownerId) =>
    if reservation.pilgrimId ≠ pilgrimId then .fail (.notFound "Réservation introuvable")
    else
      match ← await (.disputeFindFirst dto.bookingId) with
      | some _ => .fail (.conflict "Un litige est déjà en cours sur cette réservation")
      | none =>
        match ← await (.disputeCreate
          { bookingId := dto.bookingId
            pilgrimId
            agencyId := reservation.agencyId
            category := dto.category
            subject := dto.subject
            message := dto.message }) with
        | .error code => .fail (.prisma code)
        | .ok litige => do
          notifier [ownerId] "Nouveau litige"
            [.txt "Un pèlerin a ouvert un litige sur une réservation. Vous avez ",
              .nombre agencyResponseDays, .txt (" jours pour y répondre avant qu'il puisse " ++
                "demander l'arbitrage de la plateforme.")]
          return toDisputeShape litige

/-- `prisma.dispute.update`, and what follows if it is not rejected. -/
def puis {α : Type} (id : DisputeId) (data : DisputeUpdate) (suite : Req α) : Req α := do
  match ← await (.disputeUpdate id data) with
  | .error code => .fail (.prisma code)
  | .ok _ => suite

def addMessage (userId : UserId) (role : Role) (id : DisputeId) (content : String) :
    Req DisputeShape := do
  let litige ← findAuthorizedOrFail userId role id
  if actif litige.dispute.status = false then .fail (.conflict "Ce litige est clos")
  else
    puis id
      { status := suivant litige.dispute.status role
        message := some (userId, role, content) } do
      notifier ((if role ≠ .pilgrim then [litige.dispute.pilgrimId] else []) ++
          (if role ≠ .agency then [litige.agencyOwnerId] else []))
        "Litige : nouveau message"
        [.txt "Un nouveau message a été ajouté à un litige qui vous concerne."]
      findOne userId role id

/-- The pilgrim closes the dispute amicably. -/
def resolve (pilgrimId : UserId) (id : DisputeId) : Req DisputeShape := do
  let litige ← findAuthorizedOrFail pilgrimId .pilgrim id
  if actif litige.dispute.status = false then .fail (.conflict "Ce litige est déjà clos")
  else
    puis id { status := .resolved, closed := true } do
      notifier [litige.agencyOwnerId] "Litige résolu"
        [.txt "Le pèlerin a clos un litige à l’amiable."]
      findOne pilgrimId .pilgrim id

def escalate (pilgrimId : UserId) (id : DisputeId) : Req DisputeShape := do
  let litige ← findAuthorizedOrFail pilgrimId .pilgrim id
  let now ← Prog.left (OumraHajj.await .now)
  if escaladable litige.dispute.status now litige.dispute.createdAt = false then
    .fail (.conflict (if litige.dispute.status = .open then
        "L'agence dispose de " ++ toString agencyResponseDays ++
          " jours pour répondre avant toute escalade"
      else "Ce litige ne peut plus être escaladé"))
  else
    puis id { status := .escalated, escalated := true } do
      let admins ← await .userFindManyAdmins
      notifier (litige.agencyOwnerId :: admins) "Litige escaladé"
        [.txt "Un litige a été transmis à l'administration de la plateforme pour arbitrage."]
      findOne pilgrimId .pilgrim id

def decide (adminId : UserId) (id : DisputeId) (decision : String) : Req DisputeShape := do
  let litige ← findAuthorizedOrFail adminId .admin id
  if litige.dispute.status ≠ .escalated then
    .fail (.conflict "Seul un litige escaladé peut être arbitré")
  else
    puis id { status := .closed, closed := true, decision := some (decision, adminId) } do
      notifier [litige.dispute.pilgrimId, litige.agencyOwnerId] "Décision rendue sur un litige"
        [.txt "L'administration a rendu sa décision. Consultez le litige pour la lire."]
      findOne adminId .admin id

end DisputesService

namespace DisputePurgeService

def purgeClosedDisputes : Req Nat := do
  let now ← Prog.left (OumraHajj.await .now)
  await (.disputeDeleteMany (addMonths now (-disputeRetentionMonths)))

end DisputePurgeService

/-- The requests on disputes, and the nightly purge. -/
inductive DisputeRequest where
  | create (pilgrimId : UserId) (dto : CreateDisputeDto)
  | addMessage (userId : UserId) (role : Role) (id : DisputeId) (content : String)
  | resolve (pilgrimId : UserId) (id : DisputeId)
  | escalate (pilgrimId : UserId) (id : DisputeId)
  | decide (adminId : UserId) (id : DisputeId) (decision : String)
  | purge

/-- The handler of a request, without the value that it returns. -/
def handler : DisputeRequest → Req Unit
  | .create pilgrimId dto => (DisputesService.create pilgrimId dto).void
  | .addMessage userId role id content => (DisputesService.addMessage userId role id content).void
  | .resolve pilgrimId id => (DisputesService.resolve pilgrimId id).void
  | .escalate pilgrimId id => (DisputesService.escalate pilgrimId id).void
  | .decide adminId id decision => (DisputesService.decide adminId id decision).void
  | .purge => DisputePurgeService.purgeClosedDisputes.void

/-- The pilgrim (user 0) has a booking at the agency of user 1; user 2 is the administration. -/
def Store.exemple : Store where
  app := { Db.exemple with
    users := Db.exemple.users ++ [{ fullName := "Administration", role := .admin }]
    bookings := [Booking.exemple] }

/-- A dispute on the booking. -/
def CreateDisputeDto.exemple : CreateDisputeDto := ⟨0, .payment, "Acompte", "Acompte non reconnu"⟩

end OumraHajj.Disputes
