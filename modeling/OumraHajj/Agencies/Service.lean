import OumraHajj.Groups.Service

/-!
# The agencies and their accounts

What the administration writes of an agency and the columns of its bank account, with their statements, and the rest
of `AgenciesService` (`src/modules/agencies/agencies.service.ts`): an agency is registered (in `Services.Accounts`),
approved or rejected, edits its own row, and adds the accounts of its guides.

JavaScript's `toLowerCase` is a parameter of what depends on it.
-/

namespace OumraHajj.Agencies

open Async Groups

/-- What the administration writes of an agency, beside its status. -/
structure Validation where
  rejectionReason : Option String := none
  validatedById : Option UserId := none
  validatedAt : Option Time := none
  deriving DecidableEq

structure BankColumns where
  bankAccountName : Option String := none
  bankAccountNumber : Option String := none
  bankName : Option String := none
  deriving DecidableEq

/-- The columns of an agency that only this service reads. -/
structure Dossier where
  validation : Validation := {}
  bank : BankColumns := {}
  deriving DecidableEq

structure Store where
  groups : Groups.Store := {}
  /-- The dossier of each agency. -/
  dossiers : AgencyId → Dossier := fun _ => {}

/-- `BankDetailsDto`: `@IsNotEmpty()` on each field. -/
structure BankDetailsDto where
  accountName : String
  accountNumber : String
  bankName : String
  nonempty : accountName ≠ "" ∧ accountNumber ≠ "" ∧ bankName ≠ ""

/-- `none`: the field is absent; `some none`: it is `null`. -/
structure UpdateAgencyDto where
  address : Option (Option String) := none
  taxId : Option (Option String) := none
  tradeRegister : Option (Option String) := none
  bankDetails : Option BankDetailsDto := none

structure CreateGuideDto where
  fullName : String
  phone : Option String := none
  email : Option String := none

/-- `data` of `approve` and `reject`. -/
structure ValidationUpdate where
  validationStatus : AgencyValidationStatus
  validatedById : UserId
  validatedAt : Time
  rejectionReason : Option String
  deriving DecidableEq

/-- What is written of the dossier. -/
def ValidationUpdate.columns (data : ValidationUpdate) : Validation :=
  { rejectionReason := data.rejectionReason
    validatedById := some data.validatedById
    validatedAt := some data.validatedAt }

def UpdateAgencyDto.apply (dto : UpdateAgencyDto) (agency : Agency) : Agency :=
  { agency with
    address := dto.address.getD agency.address
    taxId := dto.taxId.getD agency.taxId
    tradeRegister := dto.tradeRegister.getD agency.tradeRegister }

/-- `...(dto.bankDetails && { … })`. -/
def UpdateAgencyDto.applyBank (dto : UpdateAgencyDto) (bank : BankColumns) : BankColumns :=
  match dto.bankDetails with
  | some b => ⟨some b.accountName, some b.accountNumber, some b.bankName⟩
  | none => bank

/-- The row of an agency with its dossier. -/
abbrev Record := AgencyId × Agency × Dossier

inductive Stmt where
  /-- `where: status ? { validationStatus: status } : {}`. -/
  | agencyFindMany (status : Option AgencyValidationStatus)
  /-- `agency.update` of `approve` and `reject`. -/
  | agencyValidate (id : AgencyId) (data : ValidationUpdate)
  /-- `agency.update` of `updateOwn`. -/
  | agencyUpdate (id : AgencyId) (dto : UpdateAgencyDto)
  /-- `user.create` with an agency. -/
  | userCreate (data : UserCreate) (agencyId : AgencyId)

/-- The answer of each statement; `none` or an error is a rejected call. -/
def Resp : Stmt → Type
  | .agencyFindMany _ => List Record
  | .agencyValidate _ _ => Except String Record
  | .agencyUpdate _ _ => Option Record
  | .userCreate _ _ => Except String (UserId × User)

/-- The statements of the agencies and of the other services. -/
abbrev sig : Sig := Groups.sig.sum ⟨Stmt, Resp⟩

namespace Store

/-- The row and the dossier of an agency are written. -/
def write (s : Store) (id : AgencyId) (agency : Agency) (dossier : Dossier) : Store where
  groups := { s.groups with app := { s.groups.app with agencies := s.groups.app.agencies.set id agency } }
  dossiers := Function.update s.dossiers id dossier

def addUser (s : Store) (user : User) : Store :=
  { s with groups := { s.groups with app := { s.groups.app with users := s.groups.app.users ++ [user] } } }

end Store

/-- What a statement answers, and the store after it. -/
def exec : (c : Stmt) → Store → Resp c × Store
  | .agencyFindMany status, s =>
    ((s.groups.app.agencies.findMany fun a => status.all (a.validationStatus = ·)).map fun (id, agency) =>
      (id, agency, s.dossiers id), s)
  | .agencyValidate id data, s =>
    match s.groups.app.agencies[id]?, s.groups.app.users[data.validatedById]? with
    | some agency, some _ =>
      let agency := { agency with validationStatus := data.validationStatus }
      let dossier := { s.dossiers id with validation := data.columns }
      (.ok (id, agency, dossier), s.write id agency dossier)
    | none, _ => (.error "P2025", s)
    | some _, none => (.error "P2003", s)
  | .agencyUpdate id dto, s =>
    match s.groups.app.agencies[id]? with
    | some agency =>
      let dossier := { s.dossiers id with bank := dto.applyBank (s.dossiers id).bank }
      (some (id, dto.apply agency, dossier), s.write id (dto.apply agency) dossier)
    | none => (none, s)
  | .userCreate data agencyId, s =>
    let user := { data.row with agencyId := some agencyId }
    match s.groups.app.users.any fun u => Db.pris data.phone (·.phone) u || Db.pris data.email (·.email) u,
        s.groups.app.agencies[agencyId]? with
    | true, _ => (.error "P2002", s)
    | false, none => (.error "P2003", s)
    | false, some _ => (.ok (s.groups.app.users.length, user), s.addUser user)

/-- The backend of the agencies. -/
def backend : Backend sig Store Env where
  exec
    | .inl c, e, s => ((Groups.backend.exec c e s.groups).1, { s with groups := (Groups.backend.exec c e s.groups).2 })
    | .inr c, _, s => exec c s

/-- A request handler. -/
abbrev Req := Prog sig Erreur

/-- Execute one statement. -/
abbrev await (c : Stmt) : Req (Resp c) := @Prog.exec sig _ (.inr c)

/-- A handler of the services of the bookings, the users and the agencies. -/
abbrev app {α : Type} (p : OumraHajj.Req α) : Req α := Prog.left (Groups.app p)

structure BankDetailsShape where
  accountName : String
  accountNumber : String
  bankName : String
  deriving DecidableEq

structure AgencyShape extends OumraHajj.AgencyShape where
  rejectionReason : Option String
  validatedById : Option UserId
  validatedAt : Option Time
  bankDetails : Option BankDetailsShape

/-- The bank account, if one of its columns has a value. -/
def BankColumns.details (bank : BankColumns) : Option BankDetailsShape :=
  if bank.bankAccountName.isSome ∨ bank.bankAccountNumber.isSome ∨ bank.bankName.isSome then
    some ⟨bank.bankAccountName.getD "", bank.bankAccountNumber.getD "", bank.bankName.getD ""⟩
  else none

def toAgencyShape (record : Record) : AgencyShape :=
  { OumraHajj.toAgencyShape record.1 record.2.1 with
    rejectionReason := record.2.2.validation.rejectionReason
    validatedById := record.2.2.validation.validatedById
    validatedAt := record.2.2.validation.validatedAt
    bankDetails := record.2.2.bank.details }

structure UserSummaryShape where
  id : UserId
  fullName : String
  phone : Option String
  email : Option String
  role : Role
  agencyId : Option AgencyId
  isActive : Bool

def toUserSummary (user : UserShape) : UserSummaryShape :=
  { id := user.id
    fullName := user.fullName
    phone := user.phone
    email := user.email
    role := user.role
    agencyId := user.agencyId
    isActive := user.isActive }

namespace AgenciesService

def updateOwn (ownerId : UserId) (dto : UpdateAgencyDto) : Req AgencyShape := do
  let owned ← app (OumraHajj.AgenciesService.findByOwnerOrFail ownerId)
  match ← await (.agencyUpdate owned.id dto) with
  | some agency => return toAgencyShape agency
  | none => .fail (.prisma "P2025")

/-- The update of `approve` and `reject`; every rejected call is a 404. -/
def validate (id : AgencyId) (data : ValidationUpdate) : Req AgencyShape := do
  match ← await (.agencyValidate id data) with
  | .ok agency => return toAgencyShape agency
  | .error _ => .fail (.notFound "Agence introuvable")

def approve (id : AgencyId) (adminId : UserId) : Req AgencyShape := do
  let maintenant ← app (OumraHajj.await .now)
  validate id
    { validationStatus := .approved
      validatedById := adminId
      validatedAt := maintenant
      rejectionReason := none }

def reject (id : AgencyId) (adminId : UserId) (reason : String) : Req AgencyShape := do
  let maintenant ← app (OumraHajj.await .now)
  validate id
    { validationStatus := .rejected
      validatedById := adminId
      validatedAt := maintenant
      rejectionReason := some reason }

def findByStatus (status : Option AgencyValidationStatus) : Req (List AgencyShape) := do
  let agencies ← await (.agencyFindMany status)
  return agencies.map toAgencyShape

section ToLowerCase

variable (toLowerCase : String → String)

/-- `dto.phone ? findByPhone(dto.phone) : null`. -/
def parTelephone (phone : Option String) : OumraHajj.Req (Option UserShape) :=
  match phone.filter (· ≠ "") with
  | some phone => UsersService.findByPhone phone
  | none => return none

/-- `dto.email ? findByEmail(dto.email) : null`. -/
def parEmail (email : Option String) : OumraHajj.Req (Option UserShape) :=
  match email.filter (· ≠ "") with
  | some email => UsersService.findByEmail toLowerCase email
  | none => return none

/-- `UsersService.create` with an agency. -/
def createGuide (dto : CreateGuideDto) (agencyId : AgencyId) : Req UserShape := do
  match ← await (.userCreate
    { fullName := dto.fullName
      phone := dto.phone
      email := dto.email.map toLowerCase
      role := .guide } agencyId) with
  | .ok (id, user) => return toUserShape id user
  | .error code => .fail (.prisma code)

def addGuide (ownerId : UserId) (dto : CreateGuideDto) : Req UserSummaryShape := do
  let owned ← app (OumraHajj.AgenciesService.findByOwnerOrFail ownerId)
  let telephone ← app (parTelephone dto.phone)
  let email ← app (parEmail toLowerCase dto.email)
  if telephone.isSome ∨ email.isSome then .fail (.conflict "Un compte existe déjà avec ce contact")
  else
    let guide ← createGuide toLowerCase dto owned.id
    return toUserSummary guide

end ToLowerCase

end AgenciesService

inductive Request where
  | groups (q : Groups.Request)
  | register (dto : RegisterAgencyDto)
  | updateOwn (ownerId : UserId) (dto : UpdateAgencyDto)
  | approve (id : AgencyId) (adminId : UserId)
  | reject (id : AgencyId) (adminId : UserId) (reason : String)
  | addGuide (ownerId : UserId) (dto : CreateGuideDto)

/-- The handler of a request, without the value that it returns. -/
def handler (toLowerCase : String → String) : Request → Req Unit
  | .groups q => Prog.left (Groups.handler q)
  | .register dto => app (OumraHajj.AgenciesService.register toLowerCase dto).void
  | .updateOwn ownerId dto => (AgenciesService.updateOwn ownerId dto).void
  | .approve id adminId => (AgenciesService.approve id adminId).void
  | .reject id adminId reason => (AgenciesService.reject id adminId reason).void
  | .addGuide ownerId dto => (AgenciesService.addGuide toLowerCase ownerId dto).void

end OumraHajj.Agencies
