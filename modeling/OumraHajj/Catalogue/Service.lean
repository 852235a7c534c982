import OumraHajj.Catalogue.Store

/-!
# What an agency publishes

`PackagesService.create` and `update` (`src/modules/packages/packages.service.ts`), and the schedule
of an agency: `replaceForOwner`, `getForAgency` and `verifierPaliers`
(`src/modules/payments/refund-policy.service.ts`).
-/

namespace OumraHajj.Catalogue

open Async

structure CreatePackageDto where
  type : PilgrimageType
  title : String
  description : Option String := none
  startDate : Time
  endDate : Time
  price : ℚ
  currency : Option String := none
  capacity : Int
  stages : List PackageStage
  inclusions : Option (List String) := none

/-- `data` of `package.create`. -/
def CreatePackageDto.row (dto : CreatePackageDto) (agencyId : AgencyId) : Package :=
  { agencyId
    type := dto.type
    title := dto.title
    description := dto.description
    startDate := dto.startDate
    endDate := dto.endDate
    price := dto.price
    currency := dto.currency.getD "GNF"
    capacity := dto.capacity
    stages := dto.stages
    inclusions := dto.inclusions.getD [] }

namespace AgenciesService

def findByIdOrFail (id : AgencyId) : Req AgencyShape := do
  match ← await (.agencyFindUnique id) with
  | some agency => return toAgencyShape id agency
  | none => .fail (.notFound "Agence introuvable")

def assertApproved (agencyId : AgencyId) : Req Unit := do
  let agency ← findByIdOrFail agencyId
  if agency.validationStatus ≠ .approved then
    .fail (.conflict "L'agence n'est pas encore validée par l'administrateur")
  else return ()

end AgenciesService

namespace PackagesService

def create (ownerId : UserId) (dto : CreatePackageDto) : Req PackageShape := do
  let agency ← Prog.left (AgenciesService.findByOwnerOrFail ownerId)
  AgenciesService.assertApproved agency.id
  match ← await (.packageCreate (dto.row agency.id)) with
  | .ok (id, pkg) => return toPackageShape id pkg
  | .error code => .fail (.prisma code)

/-- `UpdatePackageDto` is the `PackageEdit` itself: what it has is written. -/
def update (ownerId : UserId) (packageId : PackageId) (dto : PackageEdit) : Req PackageShape := do
  let pkg ← Prog.left (OumraHajj.PackagesService.findByIdOrFail packageId)
  Prog.left (OumraHajj.PackagesService.assertOwnership ownerId pkg)
  match ← await (.packageUpdate pkg.id dto) with
  | some updated => return toPackageShape pkg.id updated
  | none => .fail (.prisma "P2025")

end PackagesService

/-- A tier as an agency submits it: at most two years before the departure, a rate of at most 1. -/
structure RefundPolicyTierDto where
  minDaysBeforeDeparture : Int
  rate : ℚ
  days_nonneg : 0 ≤ minDaysBeforeDeparture
  days_le : minDaysBeforeDeparture ≤ 730
  rate_nonneg : 0 ≤ rate
  rate_le : rate ≤ 1

/-- The row of a tier. -/
def RefundPolicyTierDto.row (agencyId : AgencyId) (p : RefundPolicyTierDto) : RefundPolicyTier :=
  ⟨agencyId, p.minDaysBeforeDeparture, p.rate⟩

/-- The loop of `verifierPaliers`: each tier with the one before it. -/
def verifierSuite : List RefundPolicyTierDto → Except Erreur Unit
  | precedent :: p :: tries =>
    if precedent.minDaysBeforeDeparture = p.minDaysBeforeDeparture then
      .error (.badRequest ("Deux paliers à " ++ toString p.minDaysBeforeDeparture ++
        " jours du départ"))
    else if p.rate > precedent.rate then
      .error (.badRequest "Le taux remboursé ne peut pas augmenter à l’approche du départ")
    else verifierSuite (p :: tries)
  | _ => .ok ()

/-- Distinct thresholds, the highest first, and a rate that never goes up towards the departure. -/
def verifierPaliers (paliers : List RefundPolicyTierDto) :
    Except Erreur (List RefundPolicyTierDto) :=
  let tries := paliers.insertionSort fun a b =>
    b.minDaysBeforeDeparture ≤ a.minDaysBeforeDeparture
  (verifierSuite tries).map fun _ => tries

structure ReplaceRefundPolicyDto where
  tiers : List RefundPolicyTierDto
  tiers_length : tiers.length ≤ 10

structure RefundPolicyShape where
  agencyId : AgencyId
  tiers : List RefundPolicyTierShape

namespace RefundPolicyService

def getForAgency (agencyId : AgencyId) : Req RefundPolicyShape := do
  let paliers ← Prog.left (OumraHajj.await (.refundPolicyTierFindMany agencyId))
  return { agencyId
           tiers := paliers.map fun p =>
             ({ minDaysBeforeDeparture := p.minDaysBeforeDeparture, rate := p.rate } :
               RefundPolicyTierShape) }

def replaceForOwner (ownerId : UserId) (dto : ReplaceRefundPolicyDto) : Req RefundPolicyShape := do
  let agence ← Prog.left (AgenciesService.findByOwnerOrFail ownerId)
  match verifierPaliers dto.tiers with
  | .error erreur => .fail erreur
  | .ok paliers =>
    match ← await (.refundPolicyTierReplace agence.id
      (paliers.map (RefundPolicyTierDto.row agence.id))) with
    | .error code => .fail (.prisma code)
    | .ok _ => getForAgency agence.id

end RefundPolicyService

/-! ## Requests -/

inductive Request where
  | app (q : OumraHajj.Request)
  | createPackage (ownerId : UserId) (dto : CreatePackageDto)
  | updatePackage (ownerId : UserId) (packageId : PackageId) (dto : PackageEdit)
  | replacePolicy (ownerId : UserId) (dto : ReplaceRefundPolicyDto)

/-- The handler of a request, without the value that it returns. -/
def handler : Request → Req Unit
  | .app q => Prog.left (OumraHajj.handler q)
  | .createPackage ownerId dto => (PackagesService.create ownerId dto).void
  | .updatePackage ownerId packageId dto => (PackagesService.update ownerId packageId dto).void
  | .replacePolicy ownerId dto => (RefundPolicyService.replaceForOwner ownerId dto).void

end OumraHajj.Catalogue
