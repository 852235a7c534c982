import OumraHajj.Common.Money
import OumraHajj.Services.Accounts

/-!
# The simulator of profitability

`ProfitabilityService` (`src/modules/profitability/profitability.service.ts`): the margin of an offer from its
price, its costs and the commission of the platform, which is read in the database. Nothing is recorded.
-/

namespace OumraHajj.Profitability

open Async

structure CostLineDto where
  label : String
  amount : ℚ
  /-- `@MinLength(1)` and `@MaxLength(80)`. -/
  label_length : 1 ≤ label.length ∧ label.length ≤ 80
  /-- `@IsNumber({ maxDecimalPlaces: 2 })`. -/
  amount_decimals : TwoDecimals amount
  /-- `@Min(0)` and `@Max(1e12)`. -/
  amount_mem : 0 ≤ amount ∧ amount ≤ 1000000000000

structure ProfitabilitySimulationDto where
  packageId : Option PackageId := none
  price : Option ℚ := none
  currency : Option String := none
  capacity : Option Nat := none
  expectedPilgrims : Option Nat := none
  costsPerPilgrim : List CostLineDto
  fixedCosts : List CostLineDto
  /-- `@IsPositive()`, `@Max(1e12)` and two decimals. -/
  price_mem : ∀ x ∈ price, 0 < x ∧ x ≤ 1000000000000 ∧ TwoDecimals x
  /-- `@Matches(/^[A-Z]{3}$/)`. -/
  currency_mem : ∀ x ∈ currency, x.length = 3 ∧ ∀ c ∈ x.toList, c.isUpper = true
  /-- `@Min(1)` and `@Max(10000)`. -/
  capacity_mem : ∀ n ∈ capacity, 1 ≤ n ∧ n ≤ 10000
  /-- `@Max(10000)`. -/
  expectedPilgrims_le : ∀ n ∈ expectedPilgrims, n ≤ 10000
  /-- `@ArrayMaxSize(30)`. -/
  lignes_length : costsPerPilgrim.length ≤ 30 ∧ fixedCosts.length ≤ 30

inductive ProfitabilityScenarioKind where
  | expected
  | sold
  | half
  | threeQuarters
  | full
  deriving DecidableEq, Repr

structure ProfitabilityScenarioShape where
  kind : ProfitabilityScenarioKind
  pilgrims : Int
  revenue : ℚ
  platformCommission : ℚ
  variableCosts : ℚ
  fixedCosts : ℚ
  margin : ℚ
  marginRate : Option ℚ
  marginPerPilgrim : Option ℚ
  deriving DecidableEq, Repr

structure ProfitabilitySimulationShape where
  packageId : Option PackageId
  packageTitle : Option String
  currency : String
  price : ℚ
  capacity : Int
  commissionRate : ℚ
  costPerPilgrim : ℚ
  fixedCostsTotal : ℚ
  unitContribution : ℚ
  breakEvenPilgrims : Option Int
  breakEvenReachable : Bool
  minimumPrice : Option ℚ
  scenarios : List ProfitabilityScenarioShape
  deriving DecidableEq, Repr

def somme (lignes : List CostLineDto) : ℚ := (lignes.map (·.amount)).sum

structure Hypotheses where
  price : ℚ
  commissionRate : ℚ
  costPerPilgrim : ℚ
  fixedCosts : ℚ

/-- `margin` of `scenario`, before it is rounded. -/
def marge (pilgrims : Int) (h : Hypotheses) : ℚ :=
  let revenue := h.price * pilgrims
  let platformCommission := revenue * h.commissionRate
  let variableCosts := h.costPerPilgrim * pilgrims
  revenue - platformCommission - variableCosts - h.fixedCosts

def scenario (kind : ProfitabilityScenarioKind) (pilgrims : Int) (h : Hypotheses) :
    ProfitabilityScenarioShape :=
  let revenue := h.price * pilgrims
  let margin := marge pilgrims h
  { kind
    pilgrims
    revenue := arrondi revenue
    platformCommission := arrondi (revenue * h.commissionRate)
    variableCosts := arrondi (h.costPerPilgrim * pilgrims)
    fixedCosts := arrondi h.fixedCosts
    margin := arrondi margin
    marginRate := if revenue > 0 then some (mathRound (margin / revenue * 1000) / 1000) else none
    marginPerPilgrim := if pilgrims > 0 then some (arrondi (margin / pilgrims)) else none }

/-- What a pilgrim brings in. -/
def Hypotheses.unitContribution (h : Hypotheses) : ℚ := h.price * (1 - h.commissionRate) - h.costPerPilgrim

def breakEvenPilgrims (h : Hypotheses) : Option Int :=
  if h.unitContribution > 0 then some ⌈h.fixedCosts / h.unitContribution⌉ else none

/-- `netParPrix`: what a price brings in, for each unit of it. -/
def netParPrix (expected : Int) (commissionRate : ℚ) : ℚ := expected * (1 - commissionRate)

def minimumPrice (expected : Int) (h : Hypotheses) : Option ℚ :=
  if netParPrix expected h.commissionRate > 0 then
    some (arrondi ((h.costPerPilgrim * expected + h.fixedCosts) / netParPrix expected h.commissionRate))
  else none

/-- What is computed from the values that are known. -/
def simulation (dto : ProfitabilitySimulationDto) (forfait : Option Package) (capacity expected : Int)
    (h : Hypotheses) : ProfitabilitySimulationShape where
  packageId := dto.packageId
  packageTitle := forfait.map (·.title)
  currency := ((forfait.map (·.currency)).or dto.currency).getD "GNF"
  price := arrondi h.price
  capacity := capacity
  commissionRate := h.commissionRate
  costPerPilgrim := arrondi h.costPerPilgrim
  fixedCostsTotal := arrondi h.fixedCosts
  unitContribution := arrondi h.unitContribution
  breakEvenPilgrims := breakEvenPilgrims h
  breakEvenReachable := (breakEvenPilgrims h).any (· ≤ capacity)
  minimumPrice := minimumPrice expected h
  scenarios :=
    scenario .expected expected h :: (forfait.map fun f => scenario .sold f.seatsTaken h).toList ++
      [scenario .half (mathRound (capacity * (1 / 2))) h,
        scenario .threeQuarters (mathRound (capacity * (3 / 4))) h,
        scenario .full capacity h]

/-! ## The statements -/

/-- The database with the column `commissionRate` of the agencies. -/
structure Store where
  app : Db := {}
  commissionRate : AgencyId → ℚ := fun _ => 0

inductive Stmt where
  /-- `where: { ownerId }`. -/
  | agencyFindUnique (ownerId : UserId)

/-- The agency and its rate. -/
def Resp : Stmt → Type
  | .agencyFindUnique _ => Option (AgencyId × ℚ)

abbrev sig : Sig := prismaSig.sum ⟨Stmt, Resp⟩

def backend : Backend sig Store Env where
  exec
    | .inl c, e, s => ((prisma.exec c e s.app).1, { s with app := (prisma.exec c e s.app).2 })
    | .inr (.agencyFindUnique ownerId), _, s =>
      ((s.app.agencyOf ownerId).map fun (id, _) => (id, s.commissionRate id), s)

/-- A request handler. -/
abbrev Req := Prog sig Erreur

/-- Execute one statement. -/
abbrev await (c : Stmt) : Req (Resp c) := @Prog.exec sig _ (.inr c)

/-! ## The service -/

def findByOwnerOrFail (ownerId : UserId) : Req (AgencyId × ℚ) := do
  match ← await (.agencyFindUnique ownerId) with
  | some agence => return agence
  | none => .fail (.notFound "Agence introuvable")

/-- The package of the request, if it names one. -/
def forfaitDe (agencyId : AgencyId) : Option PackageId → Req (Option Package)
  | none => return none
  | some packageId => do
    match ← Prog.left (OumraHajj.await (.packageFindUnique packageId)) with
    | none => .fail (.notFound "Forfait introuvable")
    | some forfait =>
      if forfait.agencyId ≠ agencyId then
        .fail (.forbidden "Ce forfait n'appartient pas à votre agence")
      else return some forfait

namespace ProfitabilityService

def simulate (ownerId : UserId) (dto : ProfitabilitySimulationDto) : Req ProfitabilitySimulationShape := do
  let agence ← findByOwnerOrFail ownerId
  let forfait ← forfaitDe agence.1 dto.packageId
  match dto.price.or (forfait.map (·.price)),
      (dto.capacity.map Int.ofNat).or (forfait.map (·.capacity)) with
  | some price, some capacity =>
    let expected := (dto.expectedPilgrims.map Int.ofNat).getD capacity
    if expected > capacity then
      .fail (.badRequest "Le remplissage attendu dépasse la capacité")
    else
      return simulation dto forfait capacity expected
        { price
          commissionRate := agence.2
          costPerPilgrim := somme dto.costsPerPilgrim
          fixedCosts := somme dto.fixedCosts }
  | _, _ => .fail (.badRequest "Prix et capacité sont requis sans forfait existant")

end ProfitabilityService

end OumraHajj.Profitability
