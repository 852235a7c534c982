import OumraHajj.Services.Requests

/-!
# On-call shifts

The rows of `on_call_shifts` with their statements, and the routes of an agency in `OnCallService`
(`src/modules/on-call/on-call.service.ts`): it plans who can be called, when, and for which package. A
shift without a package is for all of them. A deleted shift leaves `none` in the table.
-/

namespace OumraHajj.OnCall

open Async

abbrev OnCallShiftId := Nat

inductive OnCallRole where
  | guide
  | coordinator
  | manager
  | other
  deriving DecidableEq, Repr

structure OnCallShift where
  agencyId : AgencyId
  packageId : Option PackageId := none
  staffName : String
  staffRole : OnCallRole
  phone : String
  startsAt : Time
  endsAt : Time
  notes : Option String := none

/-- The database with its shifts. -/
structure Store where
  app : Db := {}
  onCallShifts : Table (Option OnCallShift) := []

/-- The shift of an identifier. -/
def Store.shift (s : Store) (id : OnCallShiftId) : Option OnCallShift := s.onCallShifts.row id

/-- `Creneau`: a shift with the title of its package. -/
structure Creneau where
  id : OnCallShiftId
  shift : OnCallShift
  packageTitle : Option String

/-- `include: AVEC_FORFAIT`. -/
def Store.creneau (s : Store) (id : OnCallShiftId) (shift : OnCallShift) : Creneau where
  id := id
  shift := shift
  packageTitle := shift.packageId.bind fun p => (s.app.packages[p]?).map (·.title)

/-- `data` of `onCallShift.update`; `none`: the column is left as it is. -/
structure OnCallShiftUpdate where
  staffName : Option String := none
  staffRole : Option OnCallRole := none
  phone : Option String := none
  startsAt : Time
  endsAt : Time
  notes : Option String := none

def OnCallShiftUpdate.apply (data : OnCallShiftUpdate) (c : OnCallShift) : OnCallShift :=
  { c with
    staffName := data.staffName.getD c.staffName
    staffRole := data.staffRole.getD c.staffRole
    phone := data.phone.getD c.phone
    startsAt := data.startsAt
    endsAt := data.endsAt
    notes := data.notes.or c.notes }

inductive Stmt where
  | onCallShiftCreate (data : OnCallShift)
  | onCallShiftFindUnique (id : OnCallShiftId)
  | onCallShiftUpdate (id : OnCallShiftId) (data : OnCallShiftUpdate)
  | onCallShiftDelete (id : OnCallShiftId)

/-- The answer of each statement; `none` or an error is a rejected call. -/
def Resp : Stmt → Type
  | .onCallShiftCreate _ => Except String Creneau
  | .onCallShiftFindUnique _ => Option Creneau
  | .onCallShiftUpdate _ _ => Option Creneau
  | .onCallShiftDelete _ => Option Unit

/-- The statements of the shifts and of the other services. -/
abbrev sig : Sig := prismaSig.sum ⟨Stmt, Resp⟩

/-- The agency and the package of a shift exist. -/
def Store.refers (s : Store) (data : OnCallShift) : Bool :=
  (s.app.agencies[data.agencyId]?).isSome &&
    data.packageId.all fun p => (s.app.packages[p]?).isSome

/-- What a statement answers, and the store after it. -/
def exec : (c : Stmt) → Store → Resp c × Store
  | .onCallShiftCreate data, s =>
    match s.refers data with
    | true =>
      (.ok (s.creneau s.onCallShifts.length data),
        { s with onCallShifts := s.onCallShifts ++ [some data] })
    | false => (.error "P2003", s)
  | .onCallShiftFindUnique id, s => ((s.shift id).map (s.creneau id), s)
  | .onCallShiftUpdate id data, s =>
    match s.shift id with
    | some c =>
      (some (s.creneau id (data.apply c)),
        { s with onCallShifts := s.onCallShifts.set id (some (data.apply c)) })
    | none => (none, s)
  | .onCallShiftDelete id, s =>
    match s.shift id with
    | some _ => (some (), { s with onCallShifts := s.onCallShifts.set id none })
    | none => (none, s)

/-- The backend of the shifts. -/
def backend : Backend sig Store Env where
  exec
    | .inl c, e, s => ((prisma.exec c e s.app).1, { s with app := (prisma.exec c e s.app).2 })
    | .inr c, _, s => exec c s

/-- A request handler. -/
abbrev Req := Prog sig Erreur

/-- Execute one statement. -/
abbrev await (c : Stmt) : Req (Resp c) := @Prog.exec sig _ (.inr c)

/-! ## The service -/

/-- `MAX_SHIFT_DAYS`. -/
def maxShiftDays : Int := 14

structure OnCallShiftShape where
  id : OnCallShiftId
  packageId : Option PackageId
  packageTitle : Option String
  staffName : String
  staffRole : OnCallRole
  phone : String
  startsAt : Time
  endsAt : Time
  notes : Option String

def toShiftShape (c : Creneau) : OnCallShiftShape where
  id := c.id
  packageId := c.shift.packageId
  packageTitle := c.packageTitle
  staffName := c.shift.staffName
  staffRole := c.shift.staffRole
  phone := c.shift.phone
  startsAt := c.shift.startsAt
  endsAt := c.shift.endsAt
  notes := c.shift.notes

structure CreateOnCallShiftDto where
  packageId : Option PackageId := none
  staffName : String
  staffRole : OnCallRole
  phone : String
  startsAt : Time
  endsAt : Time
  notes : Option String := none

structure UpdateOnCallShiftDto where
  staffName : Option String := none
  staffRole : Option OnCallRole := none
  phone : Option String := none
  startsAt : Option Time := none
  endsAt : Option Time := none
  notes : Option String := none

/-- A shift ends after it starts, and lasts at most `maxShiftDays`. -/
def verifierPeriode (startsAt endsAt : Time) : Req Unit :=
  if endsAt ≤ startsAt then
    .fail (.badRequest "La fin du créneau doit suivre son début")
  else if endsAt - startsAt > maxShiftDays * jourMs then
    .fail (.badRequest ("Un créneau d'astreinte dure au plus " ++ toString maxShiftDays ++ " jours"))
  else return ()

namespace OnCallService

def agencyIdOf (ownerId : UserId) : Req AgencyId := do
  let agency ← Prog.left (AgenciesService.findByOwnerOrFail ownerId)
  return agency.id

def assertOwnPackage (agencyId : AgencyId) (packageId : PackageId) : Req Package := do
  match ← Prog.left (OumraHajj.await (.packageFindUnique packageId)) with
  | none => .fail (.notFound "Forfait introuvable")
  | some forfait =>
    if forfait.agencyId ≠ agencyId then
      .fail (.forbidden "Ce forfait n'appartient pas à votre agence")
    else return forfait

def findOwnedOrFail (ownerId : UserId) (id : OnCallShiftId) : Req Creneau := do
  let agencyId ← agencyIdOf ownerId
  match ← await (.onCallShiftFindUnique id) with
  | none => .fail (.notFound "Créneau d'astreinte introuvable")
  | some creneau =>
    if creneau.shift.agencyId ≠ agencyId then
      .fail (.forbidden "Ce créneau n'appartient pas à votre agence")
    else return creneau

/-- `if (dto.packageId) await this.assertOwnPackage(agencyId, dto.packageId)`. -/
def assertPackage (agencyId : AgencyId) : Option PackageId → Req Unit
  | some packageId => (assertOwnPackage agencyId packageId).void
  | none => return ()

def createShift (ownerId : UserId) (dto : CreateOnCallShiftDto) : Req OnCallShiftShape := do
  let agencyId ← agencyIdOf ownerId
  verifierPeriode dto.startsAt dto.endsAt
  assertPackage agencyId dto.packageId
  match ← await (.onCallShiftCreate
    { agencyId
      packageId := dto.packageId
      staffName := dto.staffName
      staffRole := dto.staffRole
      phone := dto.phone
      startsAt := dto.startsAt
      endsAt := dto.endsAt
      notes := dto.notes }) with
  | .ok creneau => return toShiftShape creneau
  | .error code => .fail (.prisma code)

/-- The package of a shift does not change. -/
def updateShift (ownerId : UserId) (id : OnCallShiftId) (dto : UpdateOnCallShiftDto) :
    Req OnCallShiftShape := do
  let actuel ← findOwnedOrFail ownerId id
  let startsAt := dto.startsAt.getD actuel.shift.startsAt
  let endsAt := dto.endsAt.getD actuel.shift.endsAt
  verifierPeriode startsAt endsAt
  match ← await (.onCallShiftUpdate id
    { staffName := dto.staffName
      staffRole := dto.staffRole
      phone := dto.phone
      startsAt, endsAt
      notes := dto.notes }) with
  | some creneau => return toShiftShape creneau
  | none => .fail (.prisma "P2025")

def deleteShift (ownerId : UserId) (id : OnCallShiftId) : Req Unit := do
  let _ ← findOwnedOrFail ownerId id
  match ← await (.onCallShiftDelete id) with
  | some _ => return ()
  | none => .fail (.prisma "P2025")

end OnCallService

/-- The requests that change the shifts of an agency. -/
inductive ShiftRequest where
  | createShift (ownerId : UserId) (dto : CreateOnCallShiftDto)
  | updateShift (ownerId : UserId) (id : OnCallShiftId) (dto : UpdateOnCallShiftDto)
  | deleteShift (ownerId : UserId) (id : OnCallShiftId)

/-- The handler of a request, without the value that it returns. -/
def handler : ShiftRequest → Req Unit
  | .createShift ownerId dto => (OnCallService.createShift ownerId dto).void
  | .updateShift ownerId id dto => (OnCallService.updateShift ownerId id dto).void
  | .deleteShift ownerId id => OnCallService.deleteShift ownerId id

end OumraHajj.OnCall
