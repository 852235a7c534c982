import OumraHajj.Services.Checklist
import OumraHajj.Services.Packages

/-!
# Bookings

`BookingsService` (`src/modules/bookings/bookings.service.ts`): creation and cancellation, which
keep the seat counter of the package, and the steps of the dossier, the last of which confirms the
booking (`maybeConfirm`).
-/

namespace OumraHajj

open Async

structure DossierStepShape where
  key : DossierStepKey
  status : DossierStepStatus
  updatedAt : Time

structure BookingShape where
  id : BookingId
  pilgrimId : UserId
  packageId : PackageId
  agencyId : AgencyId
  groupId : Option Nat
  status : BookingStatus
  steps : List DossierStepShape

/-- `DEFAULT_STEPS`. -/
def defaultSteps : List DossierStepKey := [.payment, .visa, .flight, .vaccination, .documents]

/-- `STEP_LABELS`. -/
def stepLabel : DossierStepKey → String
  | .payment => "Paiement"
  | .visa => "Visa"
  | .flight => "Billet d'avion"
  | .vaccination => "Vaccination"
  | .documents => "Documents"

def toBookingShape (id : BookingId) (booking : Booking) : BookingShape :=
  { id
    pilgrimId := booking.pilgrimId
    packageId := booking.packageId
    agencyId := booking.agencyId
    groupId := booking.groupId
    status := booking.status
    steps := defaultSteps.map fun key =>
      { key, status := (booking.steps.get key).status, updatedAt := (booking.steps.get key).updatedAt } }

/-- The JSON of a refund schedule. -/
def tiersJson (paliers : List RefundPolicyTier) : Json :=
  .arr (paliers.map fun p =>
    .obj [("minDaysBeforeDeparture", .num p.minDaysBeforeDeparture), ("rate", .num p.rate)])

namespace BookingsService

def findByIdOrFail (id : BookingId) : Req BookingShape := do
  match ← await (.bookingFindUnique id) with
  | some booking => return toBookingShape id booking
  | none => .fail (.notFound "Réservation introuvable")

def create (pilgrimId : UserId) (packageId : PackageId) : Req BookingShape := do
  let pkg ← PackagesService.findByIdOrFail packageId
  let paliers ← await (.refundPolicyTierFindMany pkg.agencyId)
  let _ ← PackagesService.reserveSeat packageId
  let (id, booking) ← await (.bookingCreate pilgrimId pkg.id pkg.agencyId
    (if paliers.length > 0 then some (tiersJson paliers) else none))
  return toBookingShape id booking

def findAuthorizedOrFail (requesterId : UserId) (requesterRole : Role) (bookingId : BookingId) :
    Req BookingShape := do
  let booking ← findByIdOrFail bookingId
  let interdit : Req BookingShape :=
    .fail (.forbidden "Vous n'avez pas accès à cette réservation")
  if requesterRole = .admin ∨ booking.pilgrimId = requesterId then return booking
  else if requesterRole = .agency then
    let agency ← AgenciesService.findByOwnerOrFail requesterId
    if booking.agencyId = agency.id then return booking else interdit
  else interdit

def assertAgencyOwnership (ownerId : UserId) (booking : BookingShape) : Req Unit := do
  let agency ← AgenciesService.findByOwnerOrFail ownerId
  if booking.agencyId ≠ agency.id then
    .fail (.forbidden "Cette réservation n'appartient pas à votre agence")
  else return ()

/-- `prisma.booking.update` of the status. -/
def updateStatus (id : BookingId) (status : BookingStatus) : Req BookingShape := do
  match ← await (.bookingUpdate id status) with
  | some booking => return toBookingShape id booking
  | none => .fail (.prisma "P2025")

def notifyPilgrimAndFamily (pilgrimId : UserId) (title content : Texte) (isCritical : Bool) :
    Req Unit := do
  NotificationsService.send
    { recipientIds := [pilgrimId], type := .bookingStatus, title, content, isCritical }
  let pilgrim ← UsersService.findByIdOrFail pilgrimId
  match pilgrim.emergencyContact with
  | some contact =>
    if contact.phone = "" then return ()
    else NotificationsService.sendRawSms contact.phone (.txt (pilgrim.fullName ++ " — ") :: content)
  | none => return ()

def titreEtape (key : DossierStepKey) : Texte := [.txt ("Étape « " ++ stepLabel key ++ " » validée")]

def contenuEtape (key : DossierStepKey) : Texte :=
  [.txt ("L'étape « " ++ stepLabel key ++ " » de votre dossier vient d'être validée.")]

def notifyStepDone (booking : BookingShape) (key : DossierStepKey) : Req Unit :=
  notifyPilgrimAndFamily booking.pilgrimId (titreEtape key) (contenuEtape key) false

def titreConfirme : Texte := [.txt "Dossier confirmé"]

def contenuConfirme : Texte :=
  [.txt ("Toutes les étapes de votre dossier sont validées — votre réservation est " ++
    "confirmée.")]

def notifyConfirmed (booking : BookingShape) : Req Unit :=
  notifyPilgrimAndFamily booking.pilgrimId titreConfirme contenuConfirme true

/-- `booking.steps.every((s) => s.status === DONE)`. -/
def allDone (booking : BookingShape) : Bool := booking.steps.all (·.status = .done)

def maybeConfirm (bookingId : BookingId) : Req BookingShape := do
  let booking ← findByIdOrFail bookingId
  -- Only a real transition notifies: a booking that is CONFIRMED already is left as it is.
  if allDone booking ∧ booking.status ≠ .confirmed then
    let shape ← updateStatus bookingId .confirmed
    notifyConfirmed shape
    ChecklistService.generateStandardChecklist shape.id
    return shape
  else return booking

def updateStep (ownerId : UserId) (bookingId : BookingId) (key : DossierStepKey)
    (status : DossierStepStatus) : Req BookingShape := do
  let booking ← findByIdOrFail bookingId
  assertAgencyOwnership ownerId booking
  match ← await (.bookingStepUpdate booking.id key status) with
  | none => .fail (.notFound "Étape de dossier introuvable")
  | some _ =>
    let updated ← maybeConfirm booking.id
    if status = .done then do
      notifyStepDone updated key
      return updated
    else return updated

def markStepDone (bookingId : BookingId) (key : DossierStepKey) : Req BookingShape := do
  match ← await (.bookingStepUpdate bookingId key .done) with
  | none => .fail (.prisma "P2025")
  | some _ =>
    let updated ← maybeConfirm bookingId
    notifyStepDone updated key
    return updated

def cancel (pilgrimId : UserId) (bookingId : BookingId) : Req BookingShape := do
  let booking ← findByIdOrFail bookingId
  if booking.pilgrimId ≠ pilgrimId then
    .fail (.forbidden "Cette réservation ne vous appartient pas")
  else if booking.status ≠ .cancelled then do
    let _ ← PackagesService.releaseSeat booking.packageId
    updateStatus booking.id .cancelled
  else updateStatus booking.id .cancelled

end BookingsService

end OumraHajj
