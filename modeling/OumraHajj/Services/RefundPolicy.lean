import OumraHajj.Services.Accounts

/-!
# The refund schedule

`refund-policy.ts` and `RefundPolicyService.contextFor`: the rate at which a payment of a booking is
refundable at an instant, from the schedule frozen on the booking.
-/

namespace OumraHajj

open Async

structure RefundPolicyTierShape where
  minDaysBeforeDeparture : ℚ
  rate : ℚ

inductive RefundRule where
  | unpaidBooking
  | agencyTier
  | platformDefault
  | notRefundable
  deriving DecidableEq, Repr

structure RefundEligibility where
  rate : ℚ
  rule : RefundRule

/-- `DEFAULT_CONFIRMED_RATE`. -/
def defaultConfirmedRate : ℚ := 1 / 2

/-- Full days before the departure, negative once it is past. -/
def joursAvantDepart (depart maintenant : Time) : Int := (depart - maintenant).fdiv jourMs

def eligibilite (statut : BookingStatus) (paliers : List RefundPolicyTierShape) (jours : Int) :
    RefundEligibility :=
  if statut = .pendingPayment then ⟨1, .unpaidBooking⟩
  else if statut ≠ .confirmed then ⟨0, .notRefundable⟩
  else if paliers.length = 0 then ⟨defaultConfirmedRate, .platformDefault⟩
  else
    match (paliers.insertionSort fun a b =>
        b.minDaysBeforeDeparture ≤ a.minDaysBeforeDeparture).find?
        fun p => p.minDaysBeforeDeparture ≤ (jours : ℚ) with
    | some palier => ⟨palier.rate, .agencyTier⟩
    | none => ⟨0, .notRefundable⟩

/-- The number in the property `key` of a JSON object. -/
def Json.numberAt (key : String) : List (String × Json) → Option ℚ
  | [] => none
  | (k, v) :: l =>
    if k = key then
      match v with
      | .num x => some x
      | _ => none
    else Json.numberAt key l

/-- Reads a frozen schedule without trusting its form: what is not a tier is left out. -/
def lirePaliers : Option Json → List RefundPolicyTierShape
  | some (.arr l) => l.flatMap fun
    | .obj o =>
      match Json.numberAt "minDaysBeforeDeparture" o, Json.numberAt "rate" o with
      | some minDaysBeforeDeparture, some rate => [⟨minDaysBeforeDeparture, rate⟩]
      | _, _ => []
    | _ => []
  | _ => []

structure RefundContext where
  rate : ℚ
  rule : RefundRule
  daysBeforeDeparture : Int
  tiers : List RefundPolicyTierShape

namespace RefundPolicyService

def contextFor (bookingId : BookingId) : Req RefundContext := do
  let maintenant ← await .now
  match ← await (.bookingFindUniqueWithPackage bookingId) with
  | none => .fail (.notFound "Réservation introuvable")
  | some (reservation, pkg) =>
    let tiers := lirePaliers reservation.refundPolicySnapshot
    let daysBeforeDeparture := joursAvantDepart pkg.startDate maintenant
    let e := eligibilite reservation.status tiers daysBeforeDeparture
    return { rate := e.rate, rule := e.rule, daysBeforeDeparture, tiers }

end RefundPolicyService

end OumraHajj
