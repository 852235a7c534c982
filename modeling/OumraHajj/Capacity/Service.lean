import Mathlib.Data.List.Dedup
import OumraHajj.Common.Spans
import OumraHajj.Groups.Store

/-!
# The simulator of capacity

`periodesDeCharge` and `CapacityService` (`src/modules/capacity/capacity.service.ts`): how many guides the
trips of an agency need, one by one and when several are under way. Nothing is recorded.
-/

namespace OumraHajj.Capacity

open Async

/-- `DEFAULT_PILGRIMS_PER_GUIDE`. -/
def defaultPilgrimsPerGuide : Nat := 40

structure CapacityTripShape where
  packageId : PackageId
  title : String
  startDate : Time
  endDate : Time
  capacity : Int
  seatsTaken : Int
  guidesNeeded : Int
  guidesAssigned : Nat

structure CapacityPeriodShape where
  «from» : Time
  «to» : Time
  packageIds : List PackageId
  plannedPilgrims : Int
  soldPilgrims : Int
  guidesNeeded : Int
  guidesNeededForSold : Int
  deriving DecidableEq, Repr

structure CapacitySimulationShape where
  pilgrimsPerGuide : Nat
  guides : Nat
  extraGuides : Nat
  staff : Nat
  trips : List CapacityTripShape
  periods : List CapacityPeriodShape
  peak : Option CapacityPeriodShape
  spareGuidesAtPeak : Int
  extraPilgrimsAtPeak : Int

/-- `bornes`: from the first day to the end of the last one. -/
def bornes (v : CapacityTripShape) : Span Time := ⟨v.startDate, v.endDate + jourMs⟩

/-- The bounds of the trips, each once, in order. -/
def instants (voyages : List CapacityTripShape) : List Time :=
  (voyages.flatMap fun v => [(bornes v).lo, (bornes v).hi]).dedup.insertionSort (· ≤ ·)

/-- The period of the trips `enCours`. -/
def periode (pilgrimsPerGuide : ℚ) («from» «to» : Time) (enCours : List CapacityTripShape) :
    CapacityPeriodShape where
  «from» := «from»
  «to» := «to»
  packageIds := enCours.map (·.packageId)
  plannedPilgrims := (enCours.map (·.capacity)).sum
  soldPilgrims := (enCours.map (·.seatsTaken)).sum
  guidesNeeded := (enCours.map (·.guidesNeeded)).sum
  guidesNeededForSold := (enCours.map fun v => ⌈(v.seatsTaken : ℚ) / pilgrimsPerGuide⌉).sum

/-- The loop of `periodesDeCharge` over two instants that follow each other. -/
def decouper (voyages : List CapacityTripShape) (pilgrimsPerGuide : ℚ) :
    List Time → List CapacityPeriodShape
  | debut :: fin :: instants =>
    let enCours := voyages.filter fun v => (bornes v).lo ≤ debut ∧ (bornes v).hi ≥ fin
    if enCours.length = 0 then decouper voyages pilgrimsPerGuide (fin :: instants)
    else periode pilgrimsPerGuide debut fin enCours :: decouper voyages pilgrimsPerGuide (fin :: instants)
  | _ => []

def periodesDeCharge (voyages : List CapacityTripShape) (pilgrimsPerGuide : ℚ) :
    List CapacityPeriodShape :=
  decouper voyages pilgrimsPerGuide (instants voyages)

/-! ## The queries -/

/-- A package with the guides of its groups. -/
structure Forfait where
  id : PackageId
  package : Package
  guides : List (Option UserId)

inductive Query where
  /-- `where: { agencyId, role: GUIDE, isActive: true }`. -/
  | userCount (agencyId : AgencyId)
  /-- `where: { agencyId, endDate: { gte } }`, the first ones first. -/
  | packageFindMany (agencyId : AgencyId) (debutDuJour : Time)

def Query.Resp : Query → Type
  | .userCount _ => Nat
  | .packageFindMany _ _ => List Forfait

/-- Packages that start together come in the order that the database finds. -/
structure Env extends OumraHajj.Env where
  ordre : PackageId → Nat := id

def Query.answer : (c : Query) → Env → Groups.Store → c.Resp
  | .userCount agencyId, _, s =>
    s.app.users.countP fun u => u.agencyId = some agencyId ∧ u.role = .guide ∧ u.isActive = true
  | .packageFindMany agencyId debutDuJour, e, s =>
    ((s.app.packages.findMany fun p => p.agencyId = agencyId ∧ p.endDate ≥ debutDuJour).insertionSort
      fun x y => x.2.startDate < y.2.startDate ∨
        (x.2.startDate = y.2.startDate ∧ e.ordre x.1 ≤ e.ordre y.1)).map fun x =>
      { id := x.1
        package := x.2
        guides := (s.groups.filter (·.packageId = x.1)).map (·.guideId) }

abbrev sig : Sig := prismaSig.sum ⟨Query, Query.Resp⟩

def backend : Backend sig Groups.Store Env where
  exec
    | .inl c, e, s =>
      ((prisma.exec c e.toEnv s.app).1, { s with app := (prisma.exec c e.toEnv s.app).2 })
    | .inr c, e, s => (c.answer e s, s)

/-- A request handler. -/
abbrev Req := Prog sig Erreur

/-- Execute one query. -/
abbrev await (c : Query) : Req c.Resp := @Prog.exec sig _ (.inr c)

/-! ## The service -/

structure CapacitySimulationQueryDto where
  pilgrimsPerGuide : Option Nat := none
  extraGuides : Option Nat := none
  /-- `@Min(5)` and `@Max(200)`. -/
  pilgrimsPerGuide_mem : ∀ n ∈ pilgrimsPerGuide, 5 ≤ n ∧ n ≤ 200
  /-- `@Max(200)`. -/
  extraGuides_le : ∀ n ∈ extraGuides, n ≤ 200

/-- The trip of a package. -/
def voyage (pilgrimsPerGuide : Nat) (f : Forfait) : CapacityTripShape where
  packageId := f.id
  title := f.package.title
  startDate := f.package.startDate
  endDate := f.package.endDate
  capacity := f.package.capacity
  seatsTaken := f.package.seatsTaken
  guidesNeeded := ⌈(f.package.capacity : ℚ) / pilgrimsPerGuide⌉
  guidesAssigned := (f.guides.filterMap id).dedup.length

/-- `reduce`: the greater one of the periods so far and the next one. -/
def plusExigeante : Option CapacityPeriodShape → CapacityPeriodShape → Option CapacityPeriodShape
  | none, p => some p
  | some max, p => if p.guidesNeeded > max.guidesNeeded then some p else some max

/-- `peak`. -/
def pic (periods : List CapacityPeriodShape) : Option CapacityPeriodShape :=
  periods.foldl plusExigeante none

/-- What is computed from the answers. -/
def simulation (pilgrimsPerGuide extraGuides guides : Nat) (forfaits : List Forfait) :
    CapacitySimulationShape :=
  let trips := forfaits.map (voyage pilgrimsPerGuide)
  let periods := periodesDeCharge trips pilgrimsPerGuide
  let peak := pic periods
  let staff := guides + extraGuides
  let spareGuidesAtPeak := staff - ((peak.map (·.guidesNeeded)).getD 0)
  { pilgrimsPerGuide
    guides
    extraGuides
    staff
    trips
    periods
    peak
    spareGuidesAtPeak
    extraPilgrimsAtPeak := max 0 spareGuidesAtPeak * pilgrimsPerGuide }

namespace CapacityService

def simulate (ownerId : UserId) (query : CapacitySimulationQueryDto) : Req CapacitySimulationShape := do
  let agency ← Prog.left (AgenciesService.findByOwnerOrFail ownerId)
  let pilgrimsPerGuide := query.pilgrimsPerGuide.getD defaultPilgrimsPerGuide
  let extraGuides := query.extraGuides.getD 0
  let maintenant : Time ← Prog.left (OumraHajj.await .now)
  let debutDuJour := minuit (jourDe maintenant)
  let guides ← await (.userCount agency.id)
  let forfaits ← await (.packageFindMany agency.id debutDuJour)
  return simulation pilgrimsPerGuide extraGuides guides forfaits

end CapacityService

end OumraHajj.Capacity
