import OumraHajj.Services.Bookings

/-!
# Documents

`DocumentsService` (`src/modules/documents/documents.service.ts`): upload, validation and rejection.
The validation that leaves every required type with a validated document completes the `DOCUMENTS`
step of the dossier.
-/

namespace OumraHajj

open Async

structure PilgrimDocumentShape where
  id : DocumentId
  bookingId : BookingId
  pilgrimId : UserId
  type : PilgrimDocumentType
  storageRef : String
  status : PilgrimDocumentStatus
  rejectionReason : Option String
  expiresAt : Option Time

def toDocumentShape (id : DocumentId) (doc : PilgrimDocument) : PilgrimDocumentShape :=
  { id
    bookingId := doc.bookingId
    pilgrimId := doc.pilgrimId
    type := doc.type
    storageRef := doc.storageRef
    status := doc.status
    rejectionReason := doc.rejectionReason
    expiresAt := doc.expiresAt }

/-- `REQUIRED_TYPES`. -/
def requiredTypes : List PilgrimDocumentType := PilgrimDocumentType.values

namespace DocumentsService

def findByIdOrFail (id : DocumentId) : Req PilgrimDocumentShape := do
  match ← await (.documentFindUnique id) with
  | some doc => return toDocumentShape id doc
  | none => .fail (.notFound "Document introuvable")

/-- `prisma.pilgrimDocument.update`. -/
def update (id : DocumentId) (data : DocumentUpdate) : Req PilgrimDocumentShape := do
  match ← await (.documentUpdate id data) with
  | some doc => return toDocumentShape id doc
  | none => .fail (.prisma "P2025")

def upload (pilgrimId : UserId) (bookingId : BookingId) (type : PilgrimDocumentType)
    (expiresAt : Option Time) : Req PilgrimDocumentShape := do
  let booking ← BookingsService.findByIdOrFail bookingId
  if booking.pilgrimId ≠ pilgrimId then
    .fail (.forbidden "Cette réservation ne vous appartient pas")
  else
    let storageRef ← await (.storageStore pilgrimId type)
    let (id, doc) ← await (.documentCreate booking.id pilgrimId type storageRef expiresAt)
    return toDocumentShape id doc

def assertAgencyOwnership (ownerId : UserId) (doc : PilgrimDocumentShape) : Req Unit := do
  let booking ← BookingsService.findByIdOrFail doc.bookingId
  let agency ← AgenciesService.findByOwnerOrFail ownerId
  if booking.agencyId ≠ agency.id then
    .fail (.forbidden "Ce document n'appartient pas à votre agence")
  else return ()

/-- Every required type has a validated document. -/
def allValidated (docs : List PilgrimDocumentShape) : Bool :=
  requiredTypes.all fun type => docs.any fun d => d.status = .validated ∧ d.type = type

def maybeCompleteDocumentsStep (bookingId : BookingId) : Req Unit := do
  let docs ← await (.documentFindMany bookingId)
  if allValidated (docs.map fun (id, d) => toDocumentShape id d) then do
    let _ ← BookingsService.markStepDone bookingId .documents
    return ()
  else return ()

def validate (ownerId : UserId) (documentId : DocumentId) : Req PilgrimDocumentShape := do
  let doc ← findByIdOrFail documentId
  assertAgencyOwnership ownerId doc
  let updated ← update doc.id { status := .validated, rejectionReason := none }
  maybeCompleteDocumentsStep updated.bookingId
  return updated

def reject (ownerId : UserId) (documentId : DocumentId) (reason : String) :
    Req PilgrimDocumentShape := do
  let doc ← findByIdOrFail documentId
  assertAgencyOwnership ownerId doc
  update doc.id { status := .rejected, rejectionReason := some reason }

end DocumentsService

end OumraHajj
