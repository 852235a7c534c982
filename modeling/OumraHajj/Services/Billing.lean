import OumraHajj.Common.Money
import OumraHajj.Prisma.Statements

/-!
# Invoices

`BillingService.getInvoice` (`src/modules/billing/billing.service.ts`): the invoice of a booking is
issued at the first request, and its total no longer changes; what was paid and what was sent back
are computed from the payments at each request.
-/

namespace OumraHajj

open Async

structure BillingPartyShape where
  name : String
  address : Option String := none
  email : Option String := none
  phone : Option String := none
  taxId : Option String := none
  tradeRegister : Option String := none

structure InvoicePaymentShape where
  date : Time
  amount : ℚ
  method : PaymentMethod
  status : PaymentStatus
  receiptRef : Option String
  refundedAmount : Option ℚ

structure InvoiceShape where
  number : String
  issuedAt : Time
  bookingId : BookingId
  seller : BillingPartyShape
  buyer : BillingPartyShape
  packageTitle : String
  packageType : PilgrimageType
  startDate : Time
  endDate : Time
  totalAmount : ℚ
  currency : String
  payments : List InvoicePaymentShape
  paid : ℚ
  refunded : ℚ
  balanceDue : ℚ

/-- `ENCAISSES`: the statuses of a payment that was collected, also when it is refunded since. -/
def encaisse : PaymentStatus → Bool
  | .succeeded => true
  | .refunded => true
  | _ => false

def vendeur (d : Dossier) : BillingPartyShape :=
  { name := d.agency.legalName
    address := d.agency.address
    email := some d.agency.contactEmail
    phone := some d.agency.contactPhone
    taxId := d.agency.taxId
    tradeRegister := d.agency.tradeRegister }

def acheteur (d : Dossier) : BillingPartyShape :=
  { name := d.pilgrim.fullName, email := d.pilgrim.email, phone := d.pilgrim.phone }

/-- The collected payments of a dossier. -/
def encaisses (d : Dossier) : List Payment :=
  (d.payments.map Prod.snd).filter fun p => encaisse p.status

def paid (d : Dossier) : ℚ := arrondi ((encaisses d).map (·.amount)).sum

def refunded (d : Dossier) : ℚ := arrondi ((encaisses d).map (·.refundedAmount.getD 0)).sum

/-- What the booking still owes on an invoice: nothing once it is cancelled. -/
def balanceDue (d : Dossier) (facture : Invoice) : ℚ :=
  if d.booking.status = .cancelled then 0
  else arrondi (max 0 (facture.totalAmount - paid d + refunded d))

def toInvoiceShape (d : Dossier) (facture : Invoice) : InvoiceShape :=
  { number := facture.number
    issuedAt := facture.issuedAt
    bookingId := d.id
    seller := vendeur d
    buyer := acheteur d
    packageTitle := d.package.title
    packageType := d.package.type
    startDate := d.package.startDate
    endDate := d.package.endDate
    totalAmount := facture.totalAmount
    currency := facture.currency
    payments := (encaisses d).map fun p =>
      { date := p.confirmedAt.getD p.createdAt
        amount := p.amount
        method := p.method
        status := p.status
        receiptRef := p.receiptRef
        refundedAmount := p.refundedAmount }
    paid := paid d
    refunded := refunded d
    balanceDue := balanceDue d facture }

namespace BillingService

/-- Who may read the dossier. -/
def autorise (userId : UserId) (role : Role) (d : Dossier) : Bool :=
  role = .admin || (role = .pilgrim && d.booking.pilgrimId = userId) ||
    (role = .agency && d.agency.ownerId = userId)

def dossierAutorise (userId : UserId) (role : Role) (bookingId : BookingId) : Req Dossier := do
  match ← await (.bookingFindDossier bookingId) with
  | none => .fail (.notFound "Réservation introuvable")
  | some d =>
    if autorise userId role d then return d
    else .fail (.forbidden "Vous n'avez pas accès à cette réservation")

/-- Issues the invoice. A simultaneous request may have issued it (`P2002`): it exists then, and is
read again. -/
def emettre (d : Dossier) : Req Unit := do
  let maintenant ← await .now
  let annee := (civilFromDays (jourDe maintenant)).1
  let _ ← await (.invoiceEmettre d.booking.agencyId d.id annee d.package.price d.package.currency)
  return ()

/-- The end of `getInvoice`, once the invoice exists. -/
def facturer (d : Dossier) : Req InvoiceShape :=
  match d.invoice with
  | some facture => return toInvoiceShape d facture
  | none => .fail (.notFound "Facture introuvable")

def getInvoice (userId : UserId) (role : Role) (bookingId : BookingId) : Req InvoiceShape := do
  let dossier ← dossierAutorise userId role bookingId
  match dossier.invoice with
  | none => do
    emettre dossier
    await (.auditLogCreate
      { actorId := userId, actorRole := role, action := "invoice.issue", entityType := "booking"
        entityId := bookingId })
    let dossier ← dossierAutorise userId role bookingId
    facturer dossier
  | some _ => facturer dossier

end BillingService

end OumraHajj
