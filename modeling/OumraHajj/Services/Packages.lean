import OumraHajj.Services.Accounts

/-!
# Packages

`PackagesService` (`src/modules/packages/packages.service.ts`): the seat counter. `reserveSeat` and
`releaseSeat` read the package and then write its new `seatsTaken` and status.
-/

namespace OumraHajj

open Async

structure PackageShape where
  id : PackageId
  agencyId : AgencyId
  type : PilgrimageType
  title : String
  description : Option String
  startDate : Time
  endDate : Time
  price : ℚ
  currency : String
  capacity : Int
  seatsTaken : Int
  stages : List PackageStage
  inclusions : List String
  status : PackageStatus

def toPackageShape (id : PackageId) (pkg : Package) : PackageShape :=
  { id
    agencyId := pkg.agencyId
    type := pkg.type
    title := pkg.title
    description := pkg.description
    startDate := pkg.startDate
    endDate := pkg.endDate
    price := pkg.price
    currency := pkg.currency
    capacity := pkg.capacity
    seatsTaken := pkg.seatsTaken
    stages := pkg.stages
    inclusions := pkg.inclusions
    status := pkg.status }

namespace PackagesService

def findByIdOrFail (id : PackageId) : Req PackageShape := do
  match ← await (.packageFindUnique id) with
  | some pkg => return toPackageShape id pkg
  | none => .fail (.notFound "Forfait introuvable")

/-- `prisma.package.update`. -/
def update (id : PackageId) (data : PackageUpdate) : Req PackageShape := do
  match ← await (.packageUpdate id data) with
  | some pkg => return toPackageShape id pkg
  | none => .fail (.prisma "P2025")

def assertOwnership (ownerId : UserId) (pkg : PackageShape) : Req Unit := do
  let agency ← AgenciesService.findByOwnerOrFail ownerId
  if pkg.agencyId ≠ agency.id then
    .fail (.forbidden "Ce forfait n'appartient pas à votre agence")
  else return ()

def close (ownerId : UserId) (packageId : PackageId) : Req PackageShape := do
  let pkg ← findByIdOrFail packageId
  assertOwnership ownerId pkg
  update pkg.id { status := some .closed }

def reserveSeat (packageId : PackageId) : Req PackageShape := do
  let pkg ← findByIdOrFail packageId
  if pkg.status ≠ .open then .fail (.conflict "Ce forfait n'accepte plus de réservation")
  else if pkg.seatsTaken ≥ pkg.capacity then do
    let _ ← update pkg.id { status := some .full }
    .fail (.conflict "Ce forfait est complet")
  else
    let seatsTaken := pkg.seatsTaken + 1
    let status := if seatsTaken ≥ pkg.capacity then .full else pkg.status
    update pkg.id { seatsTaken := some seatsTaken, status := some status }

def releaseSeat (packageId : PackageId) : Req PackageShape := do
  let pkg ← findByIdOrFail packageId
  let seatsTaken := max 0 (pkg.seatsTaken - 1)
  let status := if pkg.status = .full ∧ seatsTaken < pkg.capacity then .open else pkg.status
  update pkg.id { seatsTaken := some seatsTaken, status := some status }

end PackagesService

end OumraHajj
