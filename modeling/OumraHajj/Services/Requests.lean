import OumraHajj.Async.Pool
import OumraHajj.Services.Documents
import OumraHajj.Services.Payments

/-!
# Requests

The requests that change bookings, packages, payments and documents, and the handler of each one.
`markStepDone` has no route of its own: payments and documents call it.
-/

namespace OumraHajj

open Async

inductive Request where
  | createBooking (pilgrimId : UserId) (packageId : PackageId)
  | cancelBooking (pilgrimId : UserId) (bookingId : BookingId)
  | updateStep (ownerId : UserId) (bookingId : BookingId) (key : DossierStepKey)
    (status : DossierStepStatus)
  | markStepDone (bookingId : BookingId) (key : DossierStepKey)
  | closePackage (ownerId : UserId) (packageId : PackageId)
  | initiatePayment (pilgrimId : UserId) (dto : InitiatePaymentDto)
  | webhook (dto : PaymentWebhookDto)
  | requestRefund (requesterId : UserId) (requesterRole : Role) (paymentId : PaymentId)
  | uploadDocument (pilgrimId : UserId) (bookingId : BookingId) (type : PilgrimDocumentType)
    (expiresAt : Option Time)
  | validateDocument (ownerId : UserId) (documentId : DocumentId)
  | rejectDocument (ownerId : UserId) (documentId : DocumentId) (reason : String)

/-- The handler of a request, without the value that it returns. -/
def handler : Request → Req Unit
  | .createBooking pilgrimId packageId => (BookingsService.create pilgrimId packageId).void
  | .cancelBooking pilgrimId bookingId => (BookingsService.cancel pilgrimId bookingId).void
  | .updateStep ownerId bookingId key status =>
    (BookingsService.updateStep ownerId bookingId key status).void
  | .markStepDone bookingId key => (BookingsService.markStepDone bookingId key).void
  | .closePackage ownerId packageId => (PackagesService.close ownerId packageId).void
  | .initiatePayment pilgrimId dto => (PaymentsService.initiate pilgrimId dto).void
  | .webhook dto => (PaymentsService.handleWebhook dto).void
  | .requestRefund requesterId requesterRole paymentId =>
    (PaymentsService.requestRefund requesterId requesterRole paymentId).void
  | .uploadDocument pilgrimId bookingId type expiresAt =>
    (DocumentsService.upload pilgrimId bookingId type expiresAt).void
  | .validateDocument ownerId documentId => (DocumentsService.validate ownerId documentId).void
  | .rejectDocument ownerId documentId reason =>
    (DocumentsService.reject ownerId documentId reason).void

/-- The requests run one after the other. -/
abbrev RunFrom (s : Db) (tr : Trace Request Db) : Prop := prisma.Run handler s tr

/-- The requests run at once, from the state `s`. -/
def poolOf {ι : Type} (requests : ι → Request) (s : Db) : Pool prismaSig ι Db Erreur Unit :=
  ⟨fun t => handler (requests t), s⟩

/-- A pilgrim (user 0) and the owner (user 1) of an agency with one package of one seat. -/
def Db.exemple : Db where
  users := [{ fullName := "Pèlerin" }, { fullName := "Gérante" }]
  agencies := [{ ownerId := 1, legalName := "Agence", contactEmail := "", contactPhone := "" }]
  packages :=
    [{ agencyId := 0, type := .oumra, title := "Oumra", startDate := 0, endDate := 0, price := 100
       capacity := 1 }]

/-- A booking of the pilgrim on the package. -/
def Booking.exemple : Booking where
  pilgrimId := 0
  packageId := 0
  agencyId := 0
  createdAt := 0
  steps := ⟨⟨.pending, 0⟩, ⟨.pending, 0⟩, ⟨.pending, 0⟩, ⟨.pending, 0⟩, ⟨.pending, 0⟩⟩

def RegisterAgencyDto.exemple : RegisterAgencyDto where
  legalName := "Agence"
  contactEmail := "contact@agence.gn"
  contactPhone := "+224600000000"
  password := "motdepasse"

/-- A payment of 100 by card for the first booking. -/
def InitiatePaymentDto.exemple : InitiatePaymentDto := ⟨0, 100, .card, by decide⟩

/-- The requests take turns, in the order given. -/
def turns {n : Nat} (l : List Nat) : List (Fin (n + 1) × Env) :=
  l.map fun t => (Fin.ofNat (n + 1) t, {})

/-- The run of the requests `qs` in which every statement gets the environment `e`. -/
abbrev runAll (e : Env) (s : Db) (qs : List Request) : Trace Request Db :=
  prisma.evalAll handler e s qs

end OumraHajj
