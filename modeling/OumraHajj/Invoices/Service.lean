import OumraHajj.Async.Transaction
import OumraHajj.Services.Billing
import OumraHajj.Services.Packages
import OumraHajj.Services.Requests

/-!
# The emission of an invoice, statement by statement

`BillingService.getInvoice` with the transaction of `emettre`
(`src/modules/billing/billing.service.ts`): the number is allocated under the lock of the agency,
and the unique constraints reject a second invoice of the booking (`P2002`), which is then read
again. `PackagesService.update` is the request that changes the price of a package.

`OumraHajj.BillingService.getInvoice` has the same transaction as one atomic statement.
-/

namespace OumraHajj.Invoices

open Async

/-- `data` of `invoice.create`. -/
structure InvoiceCreate where
  agencyId : AgencyId
  bookingId : BookingId
  year : Int
  sequence : Nat
  number : String
  totalAmount : ℚ
  currency : String

/-- `UpdatePackageDto`; `none`: the column is left as it is. -/
structure UpdatePackageDto where
  type : Option PilgrimageType := none
  title : Option String := none
  description : Option String := none
  startDate : Option Time := none
  endDate : Option Time := none
  price : Option ℚ := none
  currency : Option String := none
  capacity : Option Int := none
  stages : Option (List PackageStage) := none
  inclusions : Option (List String) := none

def UpdatePackageDto.apply (dto : UpdatePackageDto) (p : Package) : Package :=
  { p with
    type := dto.type.getD p.type
    title := dto.title.getD p.title
    description := dto.description.or p.description
    startDate := dto.startDate.getD p.startDate
    endDate := dto.endDate.getD p.endDate
    price := dto.price.getD p.price
    currency := dto.currency.getD p.currency
    capacity := dto.capacity.getD p.capacity
    stages := dto.stages.getD p.stages
    inclusions := dto.inclusions.getD p.inclusions }

def InvoiceCreate.row (data : InvoiceCreate) (now : Time) : Invoice :=
  { agencyId := data.agencyId
    bookingId := data.bookingId
    year := data.year
    sequence := data.sequence
    number := data.number
    totalAmount := data.totalAmount
    currency := data.currency
    issuedAt := now }

inductive Stmt where
  /-- `SELECT id FROM agencies WHERE id = … FOR UPDATE`. -/
  | agencyLock (id : AgencyId)
  /-- `_max: { sequence }` of an agency and a year. -/
  | invoiceAggregate (agencyId : AgencyId) (annee : Int)
  | invoiceCreate (data : InvoiceCreate)
  | packageUpdate (id : PackageId) (dto : UpdatePackageDto)

/-- The answer of each statement; `none` or an error is a rejected call. -/
def Resp : Stmt → Type
  | .agencyLock _ => Unit
  | .invoiceAggregate _ _ => Option Nat
  | .invoiceCreate _ => Except String Unit
  | .packageUpdate _ _ => Option Package

/-- The statements of the invoices and of the other services. -/
abbrev sig : Sig := prismaSig.sum ⟨Stmt, Resp⟩

/-- The invoices of an agency in a year. -/
def ofYear (s : Db) (agencyId : AgencyId) (annee : Int) : List Invoice :=
  s.invoices.filter fun i => i.agencyId = agencyId ∧ i.year = annee

/-- `@unique` on the booking, `@@unique` on the agency, the year and the sequence. -/
def conflit (data : InvoiceCreate) (i : Invoice) : Bool :=
  i.bookingId = data.bookingId ∨
    (i.agencyId = data.agencyId ∧ i.year = data.year ∧ i.sequence = data.sequence)

/-- What a statement answers, and the database after it. -/
def exec : (c : Stmt) → Env → Db → Resp c × Db
  | .agencyLock _, _, s => ((), s)
  | .invoiceAggregate agencyId annee, _, s =>
    (((ofYear s agencyId annee).map (·.sequence)).max?, s)
  | .invoiceCreate data, e, s =>
    match s.invoices.any (conflit data) with
    | true => (.error "P2002", s)
    | false => (.ok (), { s with invoices := s.invoices ++ [data.row e.now] })
  | .packageUpdate id dto, _, s =>
    match s.packages[id]? with
    | some p => (some (dto.apply p), { s with packages := s.packages.set id (dto.apply p) })
    | none => (none, s)

/-- The backend of the invoices. -/
def backend : Backend sig Db Env where
  exec
    | .inl c, e, s => prisma.exec c e s
    | .inr c, e, s => exec c e s

/-- What a lock is taken on: a row, or an entry of a unique index. -/
inductive Key where
  | agency (id : AgencyId)
  | booking (id : BookingId)
  | sequence (agencyId : AgencyId) (annee : Int) (sequence : Nat)
  | package (id : PackageId)
  deriving DecidableEq

/-- The locks of a statement. -/
def locks : sig.Stmt → Db → List Key
  | .inr (.agencyLock id), s => if (s.agencies[id]?).isSome then [.agency id] else []
  | .inr (.invoiceCreate data), _ =>
    [.booking data.bookingId, .sequence data.agencyId data.year data.sequence]
  | .inr (.packageUpdate id _), _ => [.package id]
  | _, _ => []

/-- A request handler, outside of its transaction or within it. -/
abbrev Req := Prog sig Erreur

/-- Execute one statement. -/
abbrev await (c : Stmt) : Req (Resp c) := @Prog.exec sig _ (.inr c)

namespace BillingService

/-- The transaction of `emettre`. -/
def numeroter (d : Dossier) (annee : Int) : Req Unit := do
  await (.agencyLock d.booking.agencyId)
  let derniere : Option Nat ← await (.invoiceAggregate d.booking.agencyId annee)
  let sequence := derniere.getD 0 + 1
  match ← await (.invoiceCreate
    { agencyId := d.booking.agencyId
      bookingId := d.id
      year := annee
      sequence
      number := Db.numeroFacture annee sequence
      totalAmount := d.package.price
      currency := d.package.currency }) with
  | .error code => .fail (.prisma code)
  | .ok _ => return ()

variable {ι : Type}

/-- `emettre`, in the session `t`. -/
def emettre (t : ι) (d : Dossier) : Prog (sig.tx ι) Erreur Unit := do
  let maintenant : Time ← (Prog.left (OumraHajj.await .now) : Req Time).auto
  Prog.tryCatch ((numeroter d (civilFromDays (jourDe maintenant)).1).transaction t) fun erreur =>
    if erreur = .prisma "P2002" then return () else .fail erreur

/-- `getInvoice`, in the session `t`. -/
def getInvoice (t : ι) (userId : UserId) (role : Role) (bookingId : BookingId) :
    Prog (sig.tx ι) Erreur InvoiceShape := do
  let dossier ← (Prog.left (BillingService.dossierAutorise userId role bookingId) : Req _).auto
  match dossier.invoice with
  | none => do
    emettre t dossier
    (Prog.left (OumraHajj.await (.auditLogCreate
      { actorId := userId, actorRole := role, action := "invoice.issue", entityType := "booking"
        entityId := bookingId })) : Req Unit).auto
    let dossier ← (Prog.left (BillingService.dossierAutorise userId role bookingId) : Req _).auto
    (Prog.left (BillingService.facturer dossier) : Req _).auto
  | some _ => (Prog.left (BillingService.facturer dossier) : Req _).auto

end BillingService

namespace PackagesService

def update (ownerId : UserId) (packageId : PackageId) (dto : UpdatePackageDto) :
    Req PackageShape := do
  let pkg ← Prog.left (PackagesService.findByIdOrFail packageId)
  Prog.left (PackagesService.assertOwnership ownerId pkg)
  match ← await (.packageUpdate pkg.id dto) with
  | none => .fail (.prisma "P2025")
  | some updated => return toPackageShape pkg.id updated

end PackagesService

/-- A request for an invoice, or a change of a package. -/
inductive InvoiceRequest where
  | getInvoice (userId : UserId) (role : Role) (bookingId : BookingId)
  | updatePackage (ownerId : UserId) (packageId : PackageId) (dto : UpdatePackageDto)

/-- The handler of a request in the session `t`, with the invoice that it shows. -/
def handler {ι : Type} (t : ι) : InvoiceRequest → Prog (sig.tx ι) Erreur (Option InvoiceShape)
  | .getInvoice userId role bookingId =>
    BillingService.getInvoice t userId role bookingId >>= fun f => return some f
  | .updatePackage ownerId packageId dto =>
    (PackagesService.update ownerId packageId dto).auto >>= fun _ => return none

/-- The requests run at once, each in its session, from the database `s`. -/
def poolOf {ι : Type} (requests : ι → InvoiceRequest) (s : Db) :
    Pool (sig.tx ι) ι (TxState sig ι Db Env Key) Erreur (Option InvoiceShape) :=
  ⟨fun t => handler t (requests t), { db := s }⟩

end OumraHajj.Invoices
