import OumraHajj.Common.Money
import OumraHajj.Services.Accounts

/-!
# Balances ahead of the departure

`PaymentsService.getTreasuryProjection` (`src/modules/payments/payments.service.ts`), what an agency
may still expect of its bookings and in which months, and
`PaymentRemindersService.sendPreventiveReminders` (`payment-reminders.service.ts`), the reminders of
an unpaid balance. Both take the balance to be due 30 days before the departure
(`payment-schedule.ts`).

A month key (`2026-10`) is kept as its year and its month, which are in the order of the texts for
the years of four digits.
-/

namespace OumraHajj

open Async

/-- `BALANCE_DUE_DAYS_BEFORE_DEPARTURE`. -/
def balanceDueDaysBeforeDeparture : Int := 30

/-- `BALANCE_REMINDER_OFFSETS_DAYS`. -/
def balanceReminderOffsetsDays : List Int := [14, 7, 1]

def balanceDueDate (departure : Time) : Time := addDays departure (-balanceDueDaysBeforeDeparture)

def daysBetween («from» «to» : Time) : Int := jourDe «to» - jourDe «from»

/-- A date that is past is put off to now. -/
def effectiveDate (dueDate maintenant : Time) : Time :=
  if dueDate < maintenant then maintenant else dueDate

/-- The year and the month of a key. -/
abbrev MonthKey := Int × Int

def monthKey (t : Time) : MonthKey :=
  let (annee, mois, _) := civilFromDays (jourDe t)
  (annee, mois)

/-- `projectionsMap`: its entries in the order of their insertion. -/
abbrev ProjectionsMap := List (MonthKey × ℚ)

/-- `map.set(key, (map.get(key) || 0) + montant)`. -/
def ProjectionsMap.add (key : MonthKey) (montant : ℚ) : ProjectionsMap → ProjectionsMap
  | [] => [(key, montant)]
  | (k, x) :: m => if k = key then (k, x + montant) :: m else (k, x) :: ProjectionsMap.add key montant m

structure TreasuryMonthShape where
  month : MonthKey
  expectedAmount : ℚ

structure TreasuryProjectionShape where
  totalExpected : ℚ
  totalCollected : ℚ
  outstandingBalance : ℚ
  projections : List TreasuryMonthShape

/-- The amount already collected for a booking: its `SUCCEEDED` payments. -/
def CollectedRow.collected (r : CollectedRow) : ℚ := (r.payments.map (·.2.amount)).sum

/-- `const balance` of `getTreasuryProjection`. -/
def CollectedRow.treasuryBalance (r : CollectedRow) : ℚ := max 0 (r.package.price - r.collected)

/-- `const balance` of `sendPreventiveReminders`. -/
def CollectedRow.reminderBalance (r : CollectedRow) : ℚ := r.package.price - r.collected

/-- The next date of a savings plan. -/
def nextDeduction (frequency : String) (t : Time) : Time :=
  if frequency = "weekly" then addDays t 7 else addMonths t 1

/-- The `while` loop over the dates of a savings plan, and the balance that it leaves. Each turn
moves the date ahead by a week or a month, and the first argument bounds the number of turns. -/
def etaler (deductAmount : ℚ) (frequency : String) (startDate : Time) :
    Nat → ℚ → Time → ProjectionsMap → ℚ × ProjectionsMap
  | 0, currentBalance, _, m => (currentBalance, m)
  | n + 1, currentBalance, currentDate, m =>
    if 0 < currentBalance ∧ currentDate < startDate then
      let amountToDeduct := min currentBalance deductAmount
      etaler deductAmount frequency startDate n (currentBalance - amountToDeduct)
        (nextDeduction frequency currentDate) (m.add (monthKey currentDate) amountToDeduct)
    else (currentBalance, m)

/-- The plan that the projection follows: automatic, with an amount, a date and a frequency. -/
def activePlan (plan : Option SavingsPlan) : Option (ℚ × Time × String) :=
  plan.bind fun p =>
    match p.autoDeduct, p.deductAmount, p.nextDeductDate, p.frequency with
    | true, some deductAmount, some nextDeductDate, some frequency =>
      if deductAmount ≠ 0 ∧ frequency ≠ "" then some (deductAmount, nextDeductDate, frequency)
      else none
    | _, _, _, _ => none

structure TreasuryTotals where
  totalExpected : ℚ := 0
  totalCollected : ℚ := 0
  outstandingBalance : ℚ := 0
  projectionsMap : ProjectionsMap := []

namespace PaymentsService

/-- The months in which the balance of a booking is expected. -/
def projeter (row : CollectedRow) (m : ProjectionsMap) : Req ProjectionsMap :=
  if 0 < row.treasuryBalance then
    match activePlan row.savingsPlan with
    | some (deductAmount, nextDeductDate, frequency) =>
      let startDate := row.package.startDate
      let turns := ((startDate - nextDeductDate).fdiv jourMs + 1).toNat
      let (currentBalance, m) :=
        etaler deductAmount frequency startDate turns row.treasuryBalance nextDeductDate m
      return if 0 < currentBalance then m.add (monthKey startDate) currentBalance else m
    | none => do
      let dueDate := balanceDueDate row.package.startDate
      let maintenant ← await .now
      return m.add (monthKey (effectiveDate dueDate maintenant)) row.treasuryBalance
  else return m

/-- One turn of the loop over the bookings. -/
def ajouterReservation (t : TreasuryTotals) (row : CollectedRow) : Req TreasuryTotals := do
  let projectionsMap ← projeter row t.projectionsMap
  return {
    totalExpected := t.totalExpected + row.package.price
    totalCollected := t.totalCollected + row.collected
    outstandingBalance := t.outstandingBalance + row.treasuryBalance
    projectionsMap }

def getTreasuryProjection (ownerId : UserId) : Req TreasuryProjectionShape := do
  let agency ← AgenciesService.findByOwnerOrFail ownerId
  let bookings ← await (.bookingFindManyForTreasury agency.id)
  let t ← List.foldlM ajouterReservation {} bookings
  return {
    totalExpected := t.totalExpected
    totalCollected := t.totalCollected
    outstandingBalance := t.outstandingBalance
    projections := (t.projectionsMap.map fun (month, expectedAmount) =>
      (⟨month, expectedAmount⟩ : TreasuryMonthShape)).insertionSort
        fun a b => a.month.1 < b.month.1 ∨ (a.month.1 = b.month.1 ∧ a.month.2 ≤ b.month.2) }

end PaymentsService

namespace PaymentRemindersService

/-- The reminder of a balance. -/
def relance (row : CollectedRow) : SendNotificationInput :=
  let dueDate := balanceDueDate row.package.startDate
  { recipientIds := [row.booking.pilgrimId]
    type := .payment
    title := [.txt "Solde à régler avant le ", .date dueDate]
    content := [.txt "Il reste ", .gnf row.reminderBalance,
      .txt (" à régler pour « " ++ row.package.title ++ " » avant le "), .date dueDate,
      .txt ". Vous pouvez payer une tranche depuis votre dossier de réservation."] }

/-- A booking is reminded today: an offset of its due date, and a balance that is not paid. -/
def aRelancer (now : Time) (row : CollectedRow) : Bool :=
  daysBetween now (balanceDueDate row.package.startDate) ∈ balanceReminderOffsetsDays ∧
    ¬ row.reminderBalance ≤ 0

/-- The loop over the bookings, with the number of reminders sent so far. -/
def relancer (now : Time) (sent : Nat) (row : CollectedRow) : Req Nat :=
  if aRelancer now row then do
    NotificationsService.send (relance row)
    return sent + 1
  else return sent

def sendPreventiveReminders (now : Time) : Req Nat := do
  let windowStart := addDays now balanceDueDaysBeforeDeparture
  let windowEnd := addDays windowStart (14 + 1)
  let bookings ← await (.bookingFindManyForReminders windowStart windowEnd)
  List.foldlM (relancer now) 0 bookings

end PaymentRemindersService

end OumraHajj
