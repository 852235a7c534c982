import OumraHajj.Async.Prog
import OumraHajj.Prisma.Schema

/-!
# Statements

The statements that the services execute, each atomic: the Prisma calls, the calls of the payment
provider and of the file storage, and the reads of the clock (`new Date()`). `Stmt` names each one
after its call with its `where` and `data`; `exec` is what it answers and what it does to the
database. An `Option` answer is `none` where Prisma rejects the call (`P2025`: no such row, `P2002`:
a unique constraint) or the provider does.

A `new Date()` in the `data` of a call is evaluated with the call, without a point of suspension in
between, so it is the time of that statement.

`Env` is what the outside world contributes to one statement: the time, the provider's reference of
a new payment (`none`: the provider rejects it), whether it accepts a refund, the storage's
reference of a new file, and what bcrypt makes of a password with the salt that it draws.
-/

namespace OumraHajj

open Async

/-- `data` of `package.update`; `none`: the column is left as it is. -/
structure PackageUpdate where
  seatsTaken : Option Int := none
  status : Option PackageStatus := none

/-- `data` of `payment.update`; the two flags stand for `confirmedAt: new Date()` and
`refundedAt: new Date()`. -/
structure PaymentUpdate where
  status : PaymentStatus
  confirmed : Bool := false
  receiptRef : Option String := none
  refundedAmount : Option ℚ := none
  refunded : Bool := false

/-- `data` of `pilgrimDocument.update`. -/
structure DocumentUpdate where
  status : PilgrimDocumentStatus
  rejectionReason : Option String

def PackageUpdate.apply (d : PackageUpdate) (p : Package) : Package :=
  { p with seatsTaken := d.seatsTaken.getD p.seatsTaken, status := d.status.getD p.status }

def PaymentUpdate.apply (d : PaymentUpdate) (now : Time) (p : Payment) : Payment :=
  { p with
    status := d.status
    confirmedAt := if d.confirmed then some now else p.confirmedAt
    receiptRef := d.receiptRef.or p.receiptRef
    refundedAmount := d.refundedAmount.or p.refundedAmount
    refundedAt := if d.refunded then some now else p.refundedAt }

def DocumentUpdate.apply (d : DocumentUpdate) (x : PilgrimDocument) : PilgrimDocument :=
  { x with status := d.status, rejectionReason := d.rejectionReason }

/-- `data` of `user.create`. -/
structure UserCreate where
  fullName : String
  phone : Option String := none
  email : Option String := none
  passwordHash : Option String := none
  role : Role

/-- `data` of `agency.create`. -/
structure AgencyCreate where
  legalName : String
  ownerId : UserId
  contactEmail : String
  contactPhone : String
  address : Option String
  validationStatus : AgencyValidationStatus

def UserCreate.row (d : UserCreate) : User :=
  { fullName := d.fullName
    phone := d.phone
    email := d.email
    passwordHash := d.passwordHash
    role := d.role }

def AgencyCreate.row (d : AgencyCreate) : Agency :=
  { legalName := d.legalName
    ownerId := d.ownerId
    contactEmail := d.contactEmail
    contactPhone := d.contactPhone
    address := d.address
    validationStatus := d.validationStatus }

/-- What `PaymentProvider.initiate` is asked for. -/
structure PaymentInitiationRequest where
  bookingId : BookingId
  amount : ℚ
  currency : String
  method : PaymentMethod

/-- The booking of `BillingService` with what its `include` reads. -/
structure Dossier where
  id : BookingId
  booking : Booking
  agency : Agency
  pilgrim : User
  package : Package
  payments : List (PaymentId × Payment)
  invoice : Option Invoice

/-- A payment of the accounting journal with what its `include` reads. -/
structure JournalRow where
  id : PaymentId
  payment : Payment
  pilgrimFullName : String
  packageTitle : String

/-- A booking with its package, its `SUCCEEDED` payments and its savings plan. -/
structure CollectedRow where
  id : BookingId
  booking : Booking
  package : Package
  payments : List (PaymentId × Payment)
  savingsPlan : Option SavingsPlan

inductive Stmt where
  /-- `new Date()`. -/
  | now
  /-- `bcrypt.hash`. -/
  | bcryptHash (data : String)
  | userFindUnique (id : UserId)
  | userFindByPhone (phone : String)
  | userFindByEmail (email : String)
  | userCreate (data : UserCreate)
  | agencyFindUnique (ownerId : UserId)
  | agencyCreate (data : AgencyCreate)
  | packageFindUnique (id : PackageId)
  | packageUpdate (id : PackageId) (data : PackageUpdate)
  | refundPolicyTierFindMany (agencyId : AgencyId)
  | bookingFindUnique (id : BookingId)
  | bookingFindUniqueWithPackage (id : BookingId)
  | bookingFindDossier (id : BookingId)
  | bookingFindManyForTreasury (agencyId : AgencyId)
  | bookingFindManyForReminders (windowStart windowEnd : Time)
  | bookingCreate (pilgrimId : UserId) (packageId : PackageId) (agencyId : AgencyId)
    (refundPolicySnapshot : Option Json)
  | bookingUpdate (id : BookingId) (status : BookingStatus)
  | bookingStepUpdate (bookingId : BookingId) (key : DossierStepKey) (status : DossierStepStatus)
  | paymentFindUnique (id : PaymentId)
  | paymentFindByReference (providerReference : String)
  | paymentFindMany (bookingId : BookingId)
  | paymentFindManyForJournal (agencyId : AgencyId) (debut finExclue : Time)
  | paymentCount (bookingId : BookingId)
  | paymentCreate (bookingId : BookingId) (amount : ℚ) (installmentNumber : Nat)
    (method : PaymentMethod) (providerReference : String)
  | paymentUpdate (id : PaymentId) (data : PaymentUpdate)
  | documentFindUnique (id : DocumentId)
  | documentFindMany (bookingId : BookingId)
  | documentCreate (bookingId : BookingId) (pilgrimId : UserId) (type : PilgrimDocumentType)
    (storageRef : String) (expiresAt : Option Time)
  | documentUpdate (id : DocumentId) (data : DocumentUpdate)
  | checklistItemCreateMany (data : List ChecklistItem)
  | notificationCreateMany (data : List Notification)
  | sendRawSms (phone : String) (content : Texte)
  | auditLogCreate (data : AuditLog)
  /-- The transaction of `BillingService.emettre`, under the lock of the agency. -/
  | invoiceEmettre (agencyId : AgencyId) (bookingId : BookingId) (annee : Int) (totalAmount : ℚ)
    (currency : String)
  | providerInitiate (request : PaymentInitiationRequest)
  | providerRefund (providerReference : String) (amount : ℚ)
  | storageStore (ownerId : UserId) (type : PilgrimDocumentType)

namespace Stmt

/-- The answer of each statement. -/
def Resp : Stmt → Type
  | .now => Time
  | .bcryptHash _ => String
  | .userFindUnique _ => Option User
  | .userFindByPhone _ => Option (UserId × User)
  | .userFindByEmail _ => Option (UserId × User)
  | .userCreate _ => Option (UserId × User)
  | .agencyFindUnique _ => Option (AgencyId × Agency)
  | .agencyCreate _ => Except String (AgencyId × Agency)
  | .packageFindUnique _ => Option Package
  | .packageUpdate _ _ => Option Package
  | .refundPolicyTierFindMany _ => List RefundPolicyTier
  | .bookingFindUnique _ => Option Booking
  | .bookingFindUniqueWithPackage _ => Option (Booking × Package)
  | .bookingFindDossier _ => Option Dossier
  | .bookingFindManyForTreasury _ => List CollectedRow
  | .bookingFindManyForReminders _ _ => List CollectedRow
  | .bookingCreate _ _ _ _ => BookingId × Booking
  | .bookingUpdate _ _ => Option Booking
  | .bookingStepUpdate _ _ _ => Option Unit
  | .paymentFindUnique _ => Option Payment
  | .paymentFindByReference _ => Option (PaymentId × Payment)
  | .paymentFindMany _ => List (PaymentId × Payment)
  | .paymentFindManyForJournal _ _ _ => List JournalRow
  | .paymentCount _ => Nat
  | .paymentCreate _ _ _ _ _ => Option (PaymentId × Payment)
  | .paymentUpdate _ _ => Option Payment
  | .documentFindUnique _ => Option PilgrimDocument
  | .documentFindMany _ => List (DocumentId × PilgrimDocument)
  | .documentCreate _ _ _ _ _ => DocumentId × PilgrimDocument
  | .documentUpdate _ _ => Option PilgrimDocument
  | .checklistItemCreateMany _ => Unit
  | .notificationCreateMany _ => Unit
  | .sendRawSms _ _ => Unit
  | .auditLogCreate _ => Unit
  | .invoiceEmettre _ _ _ _ _ => Option Unit
  | .providerInitiate _ => Option String
  | .providerRefund _ _ => Bool
  | .storageStore _ _ => String

end Stmt

/-- The signature of the services. -/
abbrev prismaSig : Sig := ⟨Stmt, Stmt.Resp⟩

structure Env where
  now : Time := 0
  reference : Option String := none
  accepted : Bool := true
  storageRef : String := ""
  bcryptHash : String → String := id

namespace Db

/-- A row has the value in a unique column that is not null. -/
def pris (valeur : Option String) (colonne : User → Option String) (u : User) : Bool :=
  valeur.isSome && colonne u = valeur

/-- `where: { ownerId }`. -/
def agencyOf (s : Db) (ownerId : UserId) : Option (AgencyId × Agency) :=
  s.agencies.findFirst (·.ownerId = ownerId)

/-- `where: { id }` with `include: { package }`. -/
def bookingWithPackage (s : Db) (id : BookingId) : Option (Booking × Package) :=
  (s.bookings[id]?).bind fun b => (s.packages[b.packageId]?).map fun p => (b, p)

/-- `payments: { where: { status: SUCCEEDED } }` of a booking. -/
def succeededOf (s : Db) (id : BookingId) : List (PaymentId × Payment) :=
  s.payments.findMany fun p => p.bookingId = id ∧ p.status = .succeeded

/-- `savingsPlan` of a booking. -/
def savingsPlanOf (s : Db) (id : BookingId) : Option SavingsPlan :=
  (s.savingsPlans.findFirst (·.bookingId = id)).map Prod.snd

/-- The row of a booking: `include: { package, payments: SUCCEEDED, savingsPlan }`. -/
def collectedRow (s : Db) (id : BookingId) (b : Booking) (p : Package) : CollectedRow :=
  ⟨id, b, p, s.succeededOf id, s.savingsPlanOf id⟩

/-- The bookings that satisfy `P`, with what their `include` reads. -/
def collectedRows (s : Db) (P : Booking → Package → Bool) : List CollectedRow :=
  s.bookings.withIds.filterMap fun (id, b) =>
    match s.packages[b.packageId]? with
    | some p => if P b p then some (s.collectedRow id b p) else none
    | none => none

/-- `invoice` of a booking. -/
def invoiceOf (s : Db) (id : BookingId) : Option Invoice :=
  (s.invoices.findFirst (·.bookingId = id)).map Prod.snd

/-- `where: { id }` with `include: AVEC_TOUT`. -/
def dossier (s : Db) (id : BookingId) : Option Dossier :=
  (s.bookings[id]?).bind fun b =>
  (s.agencies[b.agencyId]?).bind fun agency =>
  (s.users[b.pilgrimId]?).bind fun pilgrim =>
  (s.packages[b.packageId]?).map fun package =>
    { id, booking := b, agency, pilgrim, package
      payments := (s.payments.findMany (·.bookingId = id)).insertionSort
        fun x y => x.2.createdAt ≤ y.2.createdAt
      invoice := s.invoiceOf id }

/-- The bounds `{ gte: debut, lt: finExclue }` of a nullable column. -/
def dansPeriode (debut finExclue : Time) : Option Time → Bool
  | some t => debut ≤ t ∧ t < finExclue
  | none => false

/-- The payments of the journal of an agency. -/
def journalRows (s : Db) (agencyId : AgencyId) (debut finExclue : Time) : List JournalRow :=
  (s.payments.findMany fun p =>
    dansPeriode debut finExclue p.confirmedAt || dansPeriode debut finExclue p.refundedAt).filterMap
    fun (id, p) =>
      (s.bookings[p.bookingId]?).bind fun b =>
      if b.agencyId = agencyId then
        (s.users[b.pilgrimId]?).bind fun u =>
        (s.packages[b.packageId]?).map fun pkg => ⟨id, p, u.fullName, pkg.title⟩
      else none

/-- `padStart(5, '0')`. -/
def padStart5 (n : Nat) : String :=
  let d := toString n
  String.ofList (List.replicate (5 - d.length) '0') ++ d

/-- `FAC-2026-00042`. -/
def numeroFacture (annee : Int) (sequence : Nat) : String :=
  "FAC-" ++ toString annee ++ "-" ++ padStart5 sequence

/-- The next number of an agency in a year. -/
def nextSequence (s : Db) (agencyId : AgencyId) (annee : Int) : Nat :=
  ((s.invoices.filter fun i => i.agencyId = agencyId ∧ i.year = annee).map
    (·.sequence)).foldl max 0 + 1

end Db

/-- What a statement answers, and the database after it. -/
def exec : (c : Stmt) → Env → Db → c.Resp × Db
  | .now, e, s => (e.now, s)
  | .bcryptHash data, e, s => (e.bcryptHash data, s)
  | .userFindUnique id, _, s => (s.users[id]?, s)
  | .userFindByPhone phone, _, s => (s.users.findFirst (·.phone = some phone), s)
  | .userFindByEmail email, _, s => (s.users.findFirst (·.email = some email), s)
  | .userCreate data, _, s =>
    match s.users.any fun u => Db.pris data.phone (·.phone) u || Db.pris data.email (·.email) u with
    | true => (none, s)
    | false => (some (s.users.length, data.row), { s with users := s.users ++ [data.row] })
  | .agencyFindUnique ownerId, _, s => (s.agencyOf ownerId, s)
  | .agencyCreate data, _, s =>
    match (s.users[data.ownerId]?).isSome, s.agencies.any (·.ownerId = data.ownerId) with
    | false, _ => (.error "P2003", s)
    | true, true => (.error "P2002", s)
    | true, false =>
      (.ok (s.agencies.length, data.row), { s with agencies := s.agencies ++ [data.row] })
  | .packageFindUnique id, _, s => (s.packages[id]?, s)
  | .packageUpdate id data, _, s =>
    match s.packages[id]? with
    | some p => (some (data.apply p), { s with packages := s.packages.set id (data.apply p) })
    | none => (none, s)
  | .refundPolicyTierFindMany agencyId, _, s =>
    ((s.refundPolicyTiers.filter (·.agencyId = agencyId)).insertionSort
      fun x y => y.minDaysBeforeDeparture ≤ x.minDaysBeforeDeparture, s)
  | .bookingFindUnique id, _, s => (s.bookings[id]?, s)
  | .bookingFindUniqueWithPackage id, _, s => (s.bookingWithPackage id, s)
  | .bookingFindDossier id, _, s => (s.dossier id, s)
  | .bookingFindManyForTreasury agencyId, _, s =>
    (s.collectedRows fun b _ => b.agencyId = agencyId ∧ b.status ≠ .cancelled, s)
  | .bookingFindManyForReminders windowStart windowEnd, _, s =>
    (s.collectedRows fun b p => (b.status = .pendingPayment ∨ b.status = .confirmed) ∧
      windowStart ≤ p.startDate ∧ p.startDate < windowEnd, s)
  | .bookingCreate pilgrimId packageId agencyId refundPolicySnapshot, e, s =>
    let step : BookingStep := { updatedAt := e.now }
    let b : Booking :=
      { pilgrimId, packageId, agencyId, refundPolicySnapshot, createdAt := e.now
        steps := ⟨step, step, step, step, step⟩ }
    ((s.bookings.length, b), { s with bookings := s.bookings ++ [b] })
  | .bookingUpdate id status, _, s =>
    match s.bookings[id]? with
    | some b => (some { b with status }, { s with bookings := s.bookings.set id { b with status } })
    | none => (none, s)
  | .bookingStepUpdate bookingId key status, e, s =>
    match s.bookings[bookingId]? with
    | some b =>
      let b' := { b with steps := b.steps.set key { status, updatedAt := e.now } }
      (some (), { s with bookings := s.bookings.set bookingId b' })
    | none => (none, s)
  | .paymentFindUnique id, _, s => (s.payments[id]?, s)
  | .paymentFindByReference providerReference, _, s =>
    (s.payments.findFirst (·.providerReference = providerReference), s)
  | .paymentFindMany bookingId, _, s => (s.payments.findMany (·.bookingId = bookingId), s)
  | .paymentFindManyForJournal agencyId debut finExclue, _, s =>
    (s.journalRows agencyId debut finExclue, s)
  | .paymentCount bookingId, _, s => (s.payments.countP (·.bookingId = bookingId), s)
  | .paymentCreate bookingId amount installmentNumber method providerReference, e, s =>
    match s.payments.any (·.providerReference = providerReference) with
    | true => (none, s)
    | false =>
      let p : Payment :=
        { bookingId, amount, installmentNumber, method, providerReference, createdAt := e.now }
      (some (s.payments.length, p), { s with payments := s.payments ++ [p] })
  | .paymentUpdate id data, e, s =>
    match s.payments[id]? with
    | some p =>
      (some (data.apply e.now p), { s with payments := s.payments.set id (data.apply e.now p) })
    | none => (none, s)
  | .documentFindUnique id, _, s => (s.documents[id]?, s)
  | .documentFindMany bookingId, _, s => (s.documents.findMany (·.bookingId = bookingId), s)
  | .documentCreate bookingId pilgrimId type storageRef expiresAt, _, s =>
    let x : PilgrimDocument := { bookingId, pilgrimId, type, storageRef, expiresAt }
    ((s.documents.length, x), { s with documents := s.documents ++ [x] })
  | .documentUpdate id data, _, s =>
    match s.documents[id]? with
    | some x => (some (data.apply x), { s with documents := s.documents.set id (data.apply x) })
    | none => (none, s)
  | .checklistItemCreateMany data, _, s =>
    ((), { s with checklistItems := s.checklistItems ++ data })
  | .notificationCreateMany data, _, s =>
    ((), { s with notifications := s.notifications ++ data })
  | .sendRawSms phone content, _, s => ((), { s with sms := s.sms ++ [(phone, content)] })
  | .auditLogCreate data, _, s => ((), { s with auditLogs := s.auditLogs ++ [data] })
  | .invoiceEmettre agencyId bookingId annee totalAmount currency, e, s =>
    match s.invoices.any (·.bookingId = bookingId) with
    | true => (none, s)
    | false =>
      let sequence := s.nextSequence agencyId annee
      let i : Invoice :=
        { agencyId, bookingId, year := annee, sequence, totalAmount, currency
          number := Db.numeroFacture annee sequence, issuedAt := e.now }
      (some (), { s with invoices := s.invoices ++ [i] })
  | .providerInitiate _, e, s => (e.reference, s)
  | .providerRefund providerReference amount, e, s =>
    match e.accepted with
    | true => (true, { s with refunds := s.refunds ++ [(providerReference, amount)] })
    | false => (false, s)
  | .storageStore _ _, e, s => (e.storageRef, s)

/-- The backend of the services. -/
def prisma : Backend prismaSig Db Env := ⟨exec⟩

/-- A request handler. -/
abbrev Req := Prog prismaSig Erreur

/-- Execute one statement. -/
abbrev await (c : Stmt) : Req c.Resp := @Prog.exec prismaSig _ c

end OumraHajj
