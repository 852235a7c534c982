import OumraHajj.Prisma.Statements

/-!
# Agencies, users and notifications

`AgenciesService`, `UsersService` and `NotificationsService`: the registration of an agency, and what
the other services use of them.

JavaScript's `toLowerCase` is a parameter of what depends on it.

`NotificationsService.send` stores the notifications and then starts their delivery without waiting
for it (`void Promise.all`); the delivery is outside the model.
-/

namespace OumraHajj

open Async

structure EmergencyContact where
  fullName : String
  phone : String
  relationship : Option String := none

structure UserShape where
  id : UserId
  fullName : String
  phone : Option String
  email : Option String
  role : Role
  agencyId : Option AgencyId
  emergencyContact : Option EmergencyContact
  isActive : Bool

def toUserShape (id : UserId) (user : User) : UserShape :=
  { id
    fullName := user.fullName
    phone := user.phone
    email := user.email
    role := user.role
    agencyId := user.agencyId
    emergencyContact :=
      if user.emergencyContactFullName.isSome ∨ user.emergencyContactPhone.isSome then
        some ⟨user.emergencyContactFullName.getD "", user.emergencyContactPhone.getD "",
          user.emergencyContactRelationship⟩
      else none
    isActive := user.isActive }

structure CreateUserInternalDto where
  fullName : String
  phone : Option String := none
  email : Option String := none
  passwordHash : Option String := none
  role : Role

namespace UsersService

def findById (id : UserId) : Req (Option UserShape) := do
  let user ← await (.userFindUnique id)
  return user.map (toUserShape id)

def findByIdOrFail (id : UserId) : Req UserShape := do
  match ← await (.userFindUnique id) with
  | some user => return toUserShape id user
  | none => .fail (.notFound "Utilisateur introuvable")

def findByPhone (phone : String) : Req (Option UserShape) := do
  let user ← await (.userFindByPhone phone)
  return user.map fun (id, u) => toUserShape id u

section ToLowerCase

variable (toLowerCase : String → String)

def create (dto : CreateUserInternalDto) : Req UserShape := do
  match ← await (.userCreate
    { fullName := dto.fullName
      phone := dto.phone
      email := dto.email.map toLowerCase
      passwordHash := dto.passwordHash
      role := dto.role }) with
  | some (id, user) => return toUserShape id user
  | none => .fail (.prisma "P2002")

def findByEmail (email : String) : Req (Option UserShape) := do
  let user ← await (.userFindByEmail (toLowerCase email))
  return user.map fun (id, u) => toUserShape id u

/-- The row itself, with the hash of the password. -/
def findByEmailWithPassword (email : String) : Req (Option (UserId × User)) :=
  await (.userFindByEmail (toLowerCase email))

end ToLowerCase

end UsersService

structure AgencyShape where
  id : AgencyId
  legalName : String
  ownerId : UserId
  contactEmail : String
  contactPhone : String
  address : Option String
  taxId : Option String
  tradeRegister : Option String
  validationStatus : AgencyValidationStatus

def toAgencyShape (id : AgencyId) (agency : Agency) : AgencyShape :=
  { id
    legalName := agency.legalName
    ownerId := agency.ownerId
    contactEmail := agency.contactEmail
    contactPhone := agency.contactPhone
    address := agency.address
    taxId := agency.taxId
    tradeRegister := agency.tradeRegister
    validationStatus := agency.validationStatus }

structure RegisterAgencyDto where
  legalName : String
  contactEmail : String
  contactPhone : String
  password : String
  address : Option String := none

namespace AgenciesService

def register (toLowerCase : String → String) (dto : RegisterAgencyDto) : Req AgencyShape := do
  match ← UsersService.findByEmail toLowerCase dto.contactEmail with
  | some _ => .fail (.conflict "Un compte existe déjà avec cet email")
  | none =>
    let passwordHash ← await (.bcryptHash dto.password)
    let owner ← UsersService.create toLowerCase
      { fullName := dto.legalName
        email := some dto.contactEmail
        passwordHash := some passwordHash
        role := .agency }
    match ← await (.agencyCreate
      { legalName := dto.legalName
        ownerId := owner.id
        contactEmail := dto.contactEmail
        contactPhone := dto.contactPhone
        address := dto.address
        validationStatus := .pending }) with
    | .error code => .fail (.prisma code)
    | .ok (id, agency) => return toAgencyShape id agency

def findByOwnerOrFail (ownerId : UserId) : Req AgencyShape := do
  match ← await (.agencyFindUnique ownerId) with
  | some (id, agency) => return toAgencyShape id agency
  | none => .fail (.notFound "Agence introuvable")

end AgenciesService

structure SendNotificationInput where
  recipientIds : List UserId
  type : NotificationType
  title : Texte
  content : Texte
  isCritical : Bool := false

namespace NotificationsService

def send (input : SendNotificationInput) : Req Unit :=
  await (.notificationCreateMany (input.recipientIds.map fun recipientId =>
    { recipientId, type := input.type, title := input.title, content := input.content
      isCritical := input.isCritical }))

def sendRawSms (phone : String) (content : Texte) : Req Unit := await (.sendRawSms phone content)

end NotificationsService

end OumraHajj
