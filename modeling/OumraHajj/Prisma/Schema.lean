import Mathlib.Data.List.Sort
import OumraHajj.Async.Table
import OumraHajj.Common.Enums
import OumraHajj.Common.Erreurs

/-!
# The database

The rows of `prisma/schema.prisma` that the modelled services read or write, and the database `Db`
as the state of its tables. No route deletes a user, an agency, a package, a booking or a payment,
so these tables only grow (`Async.Table`) and a row's identifier is its position.

The rows of `booking_steps` are kept with their booking: a booking is created with one step for each
key, `@@unique([bookingId, key])` admits no second one and no step is deleted, so the five steps are
five fields (`BookingSteps`).

`refunds` is the log of the refunds that the payment provider accepted; `notifications` and `sms`
are what was sent, and `auditLogs` what was recorded, in order.
-/

namespace OumraHajj

open Async

abbrev UserId := Nat
abbrev AgencyId := Nat
abbrev PackageId := Nat
abbrev BookingId := Nat
abbrev PaymentId := Nat
abbrev DocumentId := Nat

/-- A JSON value, as a `Json` column holds it. -/
inductive Json where
  | null
  | bool (b : Bool)
  | num (x : ℚ)
  | str (s : String)
  | arr (l : List Json)
  | obj (l : List (String × Json))

structure User where
  fullName : String
  phone : Option String := none
  email : Option String := none
  emergencyContactFullName : Option String := none
  emergencyContactPhone : Option String := none
  emergencyContactRelationship : Option String := none
  /-- The agency of a guide. -/
  agencyId : Option AgencyId := none
  passwordHash : Option String := none
  role : Role := .pilgrim
  isActive : Bool := true

structure Agency where
  ownerId : UserId
  legalName : String
  contactEmail : String
  contactPhone : String
  address : Option String := none
  taxId : Option String := none
  tradeRegister : Option String := none
  validationStatus : AgencyValidationStatus := .pending

structure PackageStage where
  city : String
  hotelName : String
  distanceToMosqueMeters : Option Int := none
  startDate : Time
  endDate : Time

structure Package where
  agencyId : AgencyId
  type : PilgrimageType
  title : String
  description : Option String := none
  startDate : Time
  endDate : Time
  price : ℚ
  currency : String := "GNF"
  capacity : Int
  seatsTaken : Int := 0
  inclusions : List String := []
  status : PackageStatus := .open
  stages : List PackageStage := []

structure RefundPolicyTier where
  agencyId : AgencyId
  minDaysBeforeDeparture : Int
  rate : ℚ
  deriving DecidableEq

structure BookingStep where
  status : DossierStepStatus := .pending
  updatedAt : Time
  deriving DecidableEq

/-- The steps of a booking, one for each key. -/
structure BookingSteps where
  payment : BookingStep
  visa : BookingStep
  flight : BookingStep
  vaccination : BookingStep
  documents : BookingStep
  deriving DecidableEq

namespace BookingSteps

def get (d : BookingSteps) : DossierStepKey → BookingStep
  | .payment => d.payment
  | .visa => d.visa
  | .flight => d.flight
  | .vaccination => d.vaccination
  | .documents => d.documents

def set (d : BookingSteps) (key : DossierStepKey) (x : BookingStep) : BookingSteps :=
  match key with
  | .payment => { d with payment := x }
  | .visa => { d with visa := x }
  | .flight => { d with flight := x }
  | .vaccination => { d with vaccination := x }
  | .documents => { d with documents := x }

theorem get_set (d : BookingSteps) (key key' : DossierStepKey) (x : BookingStep) :
    (d.set key x).get key' = if key = key' then x else d.get key' := by
  cases key <;> cases key' <;> rfl

theorem set_set (d : BookingSteps) (key : DossierStepKey) (x y : BookingStep) :
    (d.set key x).set key y = d.set key y := by
  cases key <;> rfl

end BookingSteps

structure Booking where
  pilgrimId : UserId
  packageId : PackageId
  agencyId : AgencyId
  groupId : Option Nat := none
  status : BookingStatus := .pendingPayment
  refundPolicySnapshot : Option Json := none
  createdAt : Time
  steps : BookingSteps

structure Payment where
  bookingId : BookingId
  amount : ℚ
  currency : String := "GNF"
  installmentNumber : Nat
  method : PaymentMethod
  status : PaymentStatus := .pending
  providerReference : String
  receiptRef : Option String := none
  confirmedAt : Option Time := none
  refundedAmount : Option ℚ := none
  refundedAt : Option Time := none
  createdAt : Time
  deriving DecidableEq

structure SavingsPlan where
  bookingId : BookingId
  targetAmount : ℚ
  autoDeduct : Bool := false
  deductAmount : Option ℚ := none
  frequency : Option String := none
  nextDeductDate : Option Time := none

structure PilgrimDocument where
  bookingId : BookingId
  pilgrimId : UserId
  type : PilgrimDocumentType
  storageRef : String
  status : PilgrimDocumentStatus := .pending
  rejectionReason : Option String := none
  expiresAt : Option Time := none

structure Invoice where
  agencyId : AgencyId
  bookingId : BookingId
  year : Int
  sequence : Nat
  number : String
  totalAmount : ℚ
  currency : String
  issuedAt : Time

structure ChecklistItem where
  bookingId : BookingId
  title : String
  category : String
  isCompleted : Bool := false
  reminderDate : Option Time

structure Notification where
  recipientId : UserId
  type : NotificationType
  title : Texte
  content : Texte
  isCritical : Bool
  deriving DecidableEq

structure AuditLog where
  actorId : UserId
  actorRole : Role
  action : String
  entityType : String
  entityId : Nat

structure Db where
  users : Table User := []
  agencies : Table Agency := []
  packages : Table Package := []
  refundPolicyTiers : List RefundPolicyTier := []
  bookings : Table Booking := []
  payments : Table Payment := []
  savingsPlans : Table SavingsPlan := []
  documents : Table PilgrimDocument := []
  invoices : Table Invoice := []
  checklistItems : List ChecklistItem := []
  refunds : List (String × ℚ) := []
  notifications : List Notification := []
  sms : List (String × Texte) := []
  auditLogs : List AuditLog := []

end OumraHajj
