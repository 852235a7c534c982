import OumraHajj.Common.Money
import OumraHajj.Services.Bookings
import OumraHajj.Services.RefundPolicy

/-!
# Payments

`PaymentsService` (`src/modules/payments/payments.service.ts`): a payment starts `PENDING`
(`initiate`), the provider's callbacks set its status (`handleWebhook`), a successful one settles
the `PAYMENT` step of the dossier once the package is paid (`reconcileBookingPaymentStep`), and a
`SUCCEEDED` payment can be refunded (`requestRefund`).
-/

namespace OumraHajj

open Async

structure PaymentShape where
  id : PaymentId
  bookingId : BookingId
  amount : ℚ
  currency : String
  installmentNumber : Nat
  method : PaymentMethod
  status : PaymentStatus
  providerReference : String
  receiptRef : Option String
  confirmedAt : Option Time
  refundedAmount : Option ℚ
  refundedAt : Option Time

def toPaymentShape (id : PaymentId) (payment : Payment) : PaymentShape :=
  { id
    bookingId := payment.bookingId
    amount := payment.amount
    currency := payment.currency
    installmentNumber := payment.installmentNumber
    method := payment.method
    status := payment.status
    providerReference := payment.providerReference
    receiptRef := payment.receiptRef
    confirmedAt := payment.confirmedAt
    refundedAmount := payment.refundedAmount
    refundedAt := payment.refundedAt }

/-- `DEFAULT_CURRENCY`. -/
def defaultCurrency : String := "GNF"

structure InitiatePaymentDto where
  bookingId : BookingId
  amount : ℚ
  method : PaymentMethod
  /-- `@IsPositive()`. -/
  amount_pos : 0 < amount

structure PaymentWebhookDto where
  providerReference : String
  status : PaymentStatus

structure RefundPreviewShape where
  paymentId : PaymentId
  eligibleRate : ℚ
  refundableAmount : ℚ
  currency : String
  rule : RefundRule
  daysBeforeDeparture : Int
  tiers : List RefundPolicyTierShape

/-- The receipt of a payment. -/
def receiptRefOf (id : PaymentId) : String := "RCPT-" ++ toString id

namespace PaymentsService

def findByIdOrFail (id : PaymentId) : Req PaymentShape := do
  match ← await (.paymentFindUnique id) with
  | some payment => return toPaymentShape id payment
  | none => .fail (.notFound "Paiement introuvable")

/-- `prisma.payment.update`. -/
def update (id : PaymentId) (data : PaymentUpdate) : Req PaymentShape := do
  match ← await (.paymentUpdate id data) with
  | some payment => return toPaymentShape id payment
  | none => .fail (.prisma "P2025")

def findByBooking (bookingId : BookingId) : Req (List PaymentShape) := do
  let payments ← await (.paymentFindMany bookingId)
  return payments.map fun (id, p) => toPaymentShape id p

def initiate (pilgrimId : UserId) (dto : InitiatePaymentDto) : Req PaymentShape := do
  let booking ← BookingsService.findByIdOrFail dto.bookingId
  if booking.pilgrimId ≠ pilgrimId then
    .fail (.forbidden "Cette réservation ne vous appartient pas")
  else
    let count ← await (.paymentCount booking.id)
    let installmentNumber := Nat.succ count
    match ← await (.providerInitiate
      { bookingId := booking.id, amount := dto.amount, currency := defaultCurrency
        method := dto.method }) with
    | none => .fail .provider
    | some providerReference =>
      match ← await (.paymentCreate booking.id dto.amount installmentNumber dto.method
        providerReference) with
      | none => .fail (.prisma "P2002")
      | some (id, payment) => return toPaymentShape id payment

def findAuthorizedOrFail (requesterId : UserId) (requesterRole : Role) (paymentId : PaymentId) :
    Req PaymentShape := do
  let payment ← findByIdOrFail paymentId
  let booking ← BookingsService.findByIdOrFail payment.bookingId
  let interdit : Req PaymentShape := .fail (.forbidden "Vous n'avez pas accès à ce paiement")
  if requesterRole = .admin ∨ booking.pilgrimId = requesterId then return payment
  else if requesterRole = .agency then
    let agency ← AgenciesService.findByOwnerOrFail requesterId
    if booking.agencyId = agency.id then return payment else interdit
  else interdit

/-- `payments.filter(SUCCEEDED).reduce((sum, p) => sum + p.amount, 0)`. -/
def totalPaid (payments : List PaymentShape) : ℚ :=
  ((payments.filter (·.status = .succeeded)).map (·.amount)).sum

def reconcileBookingPaymentStep (bookingId : BookingId) : Req Unit := do
  let booking ← BookingsService.findByIdOrFail bookingId
  let pkg ← PackagesService.findByIdOrFail booking.packageId
  let payments ← findByBooking bookingId
  if totalPaid payments ≥ pkg.price then do
    let _ ← BookingsService.markStepDone bookingId .payment
    return ()
  else return ()

/-- The columns that a callback sets: the receipt and its date come with a success. -/
def webhookUpdate (id : PaymentId) (status : PaymentStatus) : PaymentUpdate :=
  if status = .succeeded then
    { status, confirmed := true, receiptRef := some (receiptRefOf id) }
  else { status }

def handleWebhook (dto : PaymentWebhookDto) : Req PaymentShape := do
  match ← await (.paymentFindByReference dto.providerReference) with
  | none => .fail (.notFound "Paiement introuvable pour cette référence")
  | some (id, _) =>
    let payment ← update id (webhookUpdate id dto.status)
    if dto.status = .succeeded then do
      reconcileBookingPaymentStep payment.bookingId
      return payment
    else return payment

/-- The columns that a refund sets. -/
def refundUpdate (refundedAmount : ℚ) : PaymentUpdate :=
  { status := .refunded, refundedAmount := some refundedAmount, refunded := true }

/-- The message of a refund, full or partial. -/
def refundContent (eligibleRate refundedAmount : ℚ) (currency : String) : Texte :=
  if eligibleRate < 1 then
    [.txt "Remboursement partiel de ", .nombre refundedAmount, .txt (" " ++ currency ++ " ("),
      .nombre (mathRound (eligibleRate * 100)),
      .txt "% du paiement, selon le barème de remboursement de votre réservation)."]
  else [.txt "Remboursement intégral de ", .nombre refundedAmount, .txt (" " ++ currency ++ ".")]

def requestRefund (requesterId : UserId) (requesterRole : Role) (paymentId : PaymentId) :
    Req PaymentShape := do
  let payment ← findAuthorizedOrFail requesterId requesterRole paymentId
  if payment.status ≠ .succeeded then
    .fail (.conflict "Seul un paiement confirmé peut être remboursé")
  else
    let booking ← BookingsService.findByIdOrFail payment.bookingId
    let contexte ← RefundPolicyService.contextFor booking.id
    let eligibleRate := contexte.rate
    if eligibleRate = 0 then
      .fail (.conflict
        "Ce paiement n'est plus remboursable au statut actuel de la réservation")
    else
      let refundedAmount := arrondi (payment.amount * eligibleRate)
      match ← await (.providerRefund payment.providerReference refundedAmount) with
      | false => .fail .provider
      | true =>
        let updated ← update payment.id (refundUpdate refundedAmount)
        NotificationsService.send
          { recipientIds := [booking.pilgrimId]
            type := .payment
            title := [.txt "Remboursement traité"]
            content := refundContent eligibleRate refundedAmount updated.currency }
        return updated

def previewRefund (requesterId : UserId) (requesterRole : Role) (paymentId : PaymentId) :
    Req RefundPreviewShape := do
  let payment ← findAuthorizedOrFail requesterId requesterRole paymentId
  let contexte ← RefundPolicyService.contextFor payment.bookingId
  let remboursable := payment.status = .succeeded
  let eligibleRate := if remboursable then contexte.rate else 0
  return {
    paymentId := payment.id
    eligibleRate
    refundableAmount := arrondi (payment.amount * eligibleRate)
    currency := payment.currency
    rule := if remboursable then contexte.rule else .notRefundable
    daysBeforeDeparture := contexte.daysBeforeDeparture
    tiers := contexte.tiers }

end PaymentsService

end OumraHajj
