import OumraHajj.Async.Faults
import OumraHajj.Services.Requests

/-!
# Savings plans

`setupSavingsPlan` (`src/modules/payments/payments.service.ts`) and the daily job
`SavingsSchedulerService.processDueSavings` (`savings-scheduler.service.ts`), which asks for the
instalments that are due. Each statement may fail: what the job catches, it goes on after.

`job_uses`: the statements of the daily job have a property where those of the calls of `initiate` that it
makes have it, and so have the notifications and the updates of the plans.
-/

namespace OumraHajj.Savings

open Async

abbrev SavingsPlanId := Nat

/-- `data` of `savingsPlan.upsert`; `none`: the column is left as it is. -/
structure PlanEdit where
  autoDeduct : Bool
  deductAmount : Option ℚ
  frequency : Option String
  nextDeductDate : Option Time

def PlanEdit.apply (d : PlanEdit) (plan : SavingsPlan) : SavingsPlan :=
  { plan with
    autoDeduct := d.autoDeduct
    deductAmount := d.deductAmount.or plan.deductAmount
    frequency := d.frequency.or plan.frequency
    nextDeductDate := d.nextDeductDate.or plan.nextDeductDate }

/-- The plan that is created. -/
def PlanEdit.row (d : PlanEdit) (bookingId : BookingId) (targetAmount : ℚ) : SavingsPlan :=
  { bookingId, targetAmount
    autoDeduct := d.autoDeduct
    deductAmount := d.deductAmount
    frequency := d.frequency
    nextDeductDate := d.nextDeductDate }

inductive Stmt where
  | savingsPlanUpsert (bookingId : BookingId) (targetAmount : ℚ) (data : PlanEdit)
  /-- `where: { autoDeduct: true, nextDeductDate: { lte: now } }`, `include: { booking: true }`. -/
  | savingsPlanFindMany (now : Time)
  | savingsPlanUpdate (id : SavingsPlanId) (nextDeductDate : Option Time) (autoDeduct : Bool)

def Resp : Stmt → Type
  | .savingsPlanUpsert _ _ _ => SavingsPlanId × SavingsPlan
  | .savingsPlanFindMany _ => List (SavingsPlanId × SavingsPlan × Booking)
  | .savingsPlanUpdate _ _ _ => Option SavingsPlan

/-- The statements on the savings plans and of the other services. -/
abbrev sig : Sig := prismaSig.sum ⟨Stmt, Resp⟩

/-- The plan is due. -/
def due (now : Time) (plan : SavingsPlan) : Bool :=
  plan.autoDeduct && plan.nextDeductDate.any (· ≤ now)

/-- The plans that are due, each with its booking. -/
def duePlans (s : Db) (now : Time) : List (SavingsPlanId × SavingsPlan × Booking) :=
  (s.savingsPlans.findMany (due now)).filterMap fun (id, plan) =>
    (s.bookings[plan.bookingId]?).map fun b => (id, plan, b)

def exec : (c : Stmt) → Db → Resp c × Db
  | .savingsPlanUpsert bookingId targetAmount data, s =>
    match s.savingsPlans.findFirst (·.bookingId = bookingId) with
    | some (id, plan) =>
      ((id, data.apply plan), { s with savingsPlans := s.savingsPlans.set id (data.apply plan) })
    | none =>
      ((s.savingsPlans.length, data.row bookingId targetAmount),
        { s with savingsPlans := s.savingsPlans ++ [data.row bookingId targetAmount] })
  | .savingsPlanFindMany now, s => (duePlans s now, s)
  | .savingsPlanUpdate id nextDeductDate autoDeduct, s =>
    match s.savingsPlans[id]? with
    | some plan =>
      (some { plan with nextDeductDate, autoDeduct },
        { s with savingsPlans := s.savingsPlans.set id { plan with nextDeductDate, autoDeduct } })
    | none => (none, s)

def base : Backend sig Db Env where
  exec
    | .inl c, e, s => prisma.exec c e s
    | .inr c, _, s => exec c s

/-- The backend, where each statement may fail. -/
abbrev backend : Backend sig.faulty Db (Option Env) := base.faulty

/-- A request handler. -/
abbrev Req := Prog sig.faulty Erreur

/-- What is thrown when a statement fails. -/
def panne : Erreur := .prisma "P1001"

/-- Execute one statement. -/
abbrev await (c : Stmt) : Req (Resp c) := (Prog.exec (S := sig) (.inr c)).faulty panne

/-- A handler of the other services. -/
abbrev app {α : Type} (p : OumraHajj.Req α) : Req α := (Prog.left p : Prog sig Erreur α).faulty panne

structure SavingsPlanShape where
  id : SavingsPlanId
  bookingId : BookingId
  targetAmount : ℚ
  autoDeduct : Bool
  deductAmount : Option ℚ
  frequency : Option String
  nextDeductDate : Option Time

def toSavingsPlanShape (id : SavingsPlanId) (plan : SavingsPlan) : SavingsPlanShape :=
  { id
    bookingId := plan.bookingId
    targetAmount := plan.targetAmount
    autoDeduct := plan.autoDeduct
    deductAmount := plan.deductAmount
    frequency := plan.frequency
    nextDeductDate := plan.nextDeductDate }

structure SetupSavingsPlanDto where
  deductAmount : Option ℚ
  frequency : Option String
  autoDeduct : Bool
  /-- `@Min(1)`. -/
  deductAmount_min : ∀ a ∈ deductAmount, 1 ≤ a
  /-- `@IsIn(SAVINGS_FREQUENCIES)`. -/
  frequency_mem : ∀ f ∈ frequency, f = "weekly" ∨ f = "monthly"

/-- The next date of a plan; `none` for a frequency that is not known. -/
def avancer (frequency : Option String) (t : Time) : Option Time :=
  if frequency = some "weekly" then some (addDays t 7)
  else if frequency = some "monthly" then some (addMonths t 1)
  else none

namespace PaymentsService

/-- `initiate`, where the amount is not that of a request. -/
def initiate (pilgrimId : UserId) (bookingId : BookingId) (amount : ℚ) (method : PaymentMethod) :
    OumraHajj.Req PaymentShape := do
  let booking ← BookingsService.findByIdOrFail bookingId
  if booking.pilgrimId ≠ pilgrimId then
    .fail (.forbidden "Cette réservation ne vous appartient pas")
  else
    let count ← OumraHajj.await (.paymentCount booking.id)
    let installmentNumber := Nat.succ count
    match ← OumraHajj.await (.providerInitiate
      { bookingId := booking.id, amount, currency := defaultCurrency, method }) with
    | none => .fail .provider
    | some providerReference =>
      match ← OumraHajj.await (.paymentCreate booking.id amount installmentNumber method
        providerReference) with
      | none => .fail (.prisma "P2002")
      | some (id, payment) => return toPaymentShape id payment

theorem initiate_eq (pilgrimId : UserId) (dto : InitiatePaymentDto) :
    OumraHajj.PaymentsService.initiate pilgrimId dto =
      initiate pilgrimId dto.bookingId dto.amount dto.method := by
  unfold initiate OumraHajj.PaymentsService.initiate
  refine congrArg (Prog.bind _) (funext fun booking => congrArg (ite _ _) ?_)
  refine congrArg (Prog.bind _) (funext fun count => congrArg (Prog.bind _) (funext fun r => ?_))
  cases r with
  | none => rfl
  | some providerReference =>
    refine congrArg (Prog.bind _) (funext fun r => ?_)
    rcases r with _ | ⟨id, payment⟩ <;> rfl

/-- The date of the first instalment. -/
def premiereDate (dto : SetupSavingsPlanDto) (now : Time) : Option Time :=
  if dto.autoDeduct ∧ dto.frequency.isSome then some ((avancer dto.frequency now).getD now) else none

def setupSavingsPlan (pilgrimId : UserId) (bookingId : BookingId) (dto : SetupSavingsPlanDto) :
    Req SavingsPlanShape := do
  let booking ← app (BookingsService.findByIdOrFail bookingId)
  if booking.pilgrimId ≠ pilgrimId then
    .fail (.forbidden "Cette réservation ne vous appartient pas")
  else if booking.status = .cancelled ∨ booking.status = .completed then
    .fail (.conflict "Plan d'épargne impossible sur une réservation annulée ou terminée")
  else if dto.autoDeduct ∧ (dto.deductAmount = none ∨ dto.frequency = none) then
    .fail (.badRequest "Montant et fréquence requis pour activer les cotisations automatiques")
  else
    let pkg ← app (PackagesService.findByIdOrFail booking.packageId)
    let now ← app (OumraHajj.await .now)
    let (id, plan) ← await (.savingsPlanUpsert bookingId pkg.price
      { autoDeduct := dto.autoDeduct
        deductAmount := dto.deductAmount
        frequency := dto.frequency
        nextDeductDate := premiereDate dto now })
    return toSavingsPlanShape id plan

end PaymentsService

namespace SavingsSchedulerService

/-- The date and the flag that are written after an instalment: a plan whose frequency is not known
ends. -/
def suite (plan : SavingsPlan) (now : Time) : Option Time × Bool :=
  match avancer plan.frequency (plan.nextDeductDate.getD now) with
  | some nextDate => (if plan.autoDeduct then some nextDate else none, plan.autoDeduct)
  | none => (none, false)

def contenuCotisation (deductAmount : ℚ) : Texte :=
  [.txt "C'est l'heure de votre cotisation de ", .nombre deductAmount,
    .txt " GNF. Validez le paiement sur votre mobile pour avancer vers votre voyage !"]

/-- The payment of an instalment. -/
def initier (plan : SavingsPlan) (booking : Booking) (deductAmount : ℚ) : Req PaymentShape :=
  app (PaymentsService.initiate booking.pilgrimId plan.bookingId deductAmount .mobileMoneyOrange)

/-- What follows the payment: the notification, and the next date of the plan. -/
def conclure (now : Time) (id : SavingsPlanId) (plan : SavingsPlan) (booking : Booking)
    (deductAmount : ℚ) : Req Unit := do
  app (NotificationsService.send
    { recipientIds := [booking.pilgrimId]
      type := .payment
      title := [.txt "Plan d'épargne Hajj/Omra"]
      content := contenuCotisation deductAmount })
  match ← await (.savingsPlanUpdate id (suite plan now).1 (suite plan now).2) with
  | some _ => return ()
  | none => .fail (.prisma "P2025")

/-- The body of the loop: an error is logged, and the loop goes on. -/
def traiterPlan (now : Time) : SavingsPlanId × SavingsPlan × Booking → Req Unit
  | (id, plan, booking) =>
    match plan.deductAmount with
    | none => return ()
    | some deductAmount =>
      if deductAmount = 0 then return ()
      else
        Prog.tryCatch (do
          let _ ← initier plan booking deductAmount
          conclure now id plan booking deductAmount) fun _ => return ()

def traiterPlans (now : Time) : List (SavingsPlanId × SavingsPlan × Booking) → Req Unit
  | [] => return ()
  | x :: l => do
    traiterPlan now x
    traiterPlans now l

def processDueSavings : Req Unit := do
  let now ← app (OumraHajj.await .now)
  let plans ← await (.savingsPlanFindMany now)
  traiterPlans now plans

end SavingsSchedulerService

/-! ## Requests -/

inductive Request where
  | app (q : OumraHajj.Request)
  | setup (pilgrimId : UserId) (bookingId : BookingId) (dto : SetupSavingsPlanDto)
  | job

/-- The handler of a request, without the value that it returns. -/
def handler : Request → Req Unit
  | .app q => Savings.app (OumraHajj.handler q)
  | .setup pilgrimId bookingId dto => (PaymentsService.setupSavingsPlan pilgrimId bookingId dto).void
  | .job => SavingsSchedulerService.processDueSavings

/-! ## What the job executes -/

section Job

open SavingsSchedulerService

variable {A : sig.Stmt → Prop}

/-- A handler of the other services, as one of the savings plans. -/
theorem app_uses {α : Type} {p : OumraHajj.Req α} (hp : p.Uses fun c => A (.inl c)) :
    Prog.Uses (S := sig.faulty) A (app p) :=
  (hp.left fun _ h => h).faulty

theorem await_uses {c : Stmt} (hc : A (.inr c)) : Prog.Uses (S := sig.faulty) A (Savings.await c) :=
  (Prog.uses_exec hc).faulty

/-- The statements that the job makes itself. -/
structure Ordinaire (A : sig.Stmt → Prop) : Prop where
  now : A (.inl .now)
  notification : ∀ data, A (.inl (.notificationCreateMany data))
  find : ∀ now, A (.inr (.savingsPlanFindMany now))
  update : ∀ id nextDeductDate autoDeduct, A (.inr (.savingsPlanUpdate id nextDeductDate autoDeduct))

/-- What follows a payment: the notification, and the next date of the plan. -/
theorem conclure_uses (hA : Ordinaire A) (now : Time) (id : SavingsPlanId) (plan : SavingsPlan)
    (booking : Booking) (deductAmount : ℚ) :
    Prog.Uses (S := sig.faulty) A (conclure now id plan booking deductAmount) := by
  refine Prog.Uses.bind (app_uses (Prog.uses_exec (hA.notification _))) fun _ =>
    (await_uses (hA.update _ _ _)).bind fun o => ?_
  rcases o with _ | plan' <;> trivial

/-- The call of `initiate` for a plan, if it has an instalment. -/
def Initialise (A : sig.Stmt → Prop) (plan : SavingsPlan) (booking : Booking) : Prop :=
  ∀ a ∈ plan.deductAmount, a ≠ 0 → Prog.Uses (S := sig.faulty) A (initier plan booking a)

theorem traiterPlan_uses (hA : Ordinaire A) {x : SavingsPlanId × SavingsPlan × Booking}
    (hx : Initialise A x.2.1 x.2.2) (now : Time) :
    Prog.Uses (S := sig.faulty) A (traiterPlan now x) := by
  obtain ⟨id, plan, booking⟩ := x
  rw [traiterPlan]
  split
  · trivial
  · next deductAmount ha =>
    split
    · trivial
    · next hne =>
      exact Prog.Uses.tryCatch ((hx deductAmount ha hne).bind fun _ => conclure_uses hA _ _ _ _ _)
        fun _ => trivial

theorem traiterPlans_uses (hA : Ordinaire A) {l : List (SavingsPlanId × SavingsPlan × Booking)}
    (hl : ∀ x ∈ l, Initialise A x.2.1 x.2.2) (now : Time) :
    Prog.Uses (S := sig.faulty) A (traiterPlans now l) := by
  induction l with
  | nil => trivial
  | cons x l ih =>
    exact (traiterPlan_uses hA (hl x List.mem_cons_self) now).bind fun _ =>
      ih fun y hy => hl y (List.mem_cons_of_mem _ hy)

theorem job_uses (hA : Ordinaire A) (hinitier : ∀ plan booking, Initialise A plan booking) :
    Prog.Uses (S := sig.faulty) A processDueSavings := by
  refine (app_uses (Prog.uses_exec hA.now)).bind fun now => (await_uses (hA.find now)).bind fun l => ?_
  exact traiterPlans_uses hA (fun x _ => hinitier x.2.1 x.2.2) now

end Job

end OumraHajj.Savings
