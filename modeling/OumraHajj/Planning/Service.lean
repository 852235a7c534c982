import OumraHajj.Audit.Service
import OumraHajj.Groups.Service

/-!
# The planning of the guides

`chevauche` and `conflits` (`src/modules/guide-planning/planning.ts`) and `GuidePlanningService`
(`src/modules/guide-planning/guide-planning.service.ts`): the groups and the absences of each guide of an
agency over a period, with the entries that are in conflict. A deleted absence leaves `none` in the table.
-/

namespace OumraHajj.Planning

open Async

abbrev UnavailabilityId := Nat

inductive PlanningEntryKind where
  | group
  | unavailability
  deriving DecidableEq, Repr

structure PlanningEntryShape where
  kind : PlanningEntryKind
  id : Nat
  label : String
  packageTitle : Option String := none
  startDate : Time
  endDate : Time
  deriving DecidableEq, Repr

structure PlanningConflictShape where
  firstId : Nat
  secondId : Nat
  startDate : Time
  endDate : Time
  deriving DecidableEq, Repr

structure GuideScheduleShape where
  guideId : UserId
  guideName : String
  entries : List PlanningEntryShape
  conflicts : List PlanningConflictShape

def chevauche (a b : PlanningEntryShape) : Bool := a.startDate ≤ b.endDate ∧ b.startDate ≤ a.endDate

/-- What `conflits` reports of two entries. -/
def conflit (a b : PlanningEntryShape) : PlanningConflictShape where
  firstId := a.id
  secondId := b.id
  startDate := if a.startDate > b.startDate then a.startDate else b.startDate
  endDate := if a.endDate < b.endDate then a.endDate else b.endDate

/-- Each entry with those after it. -/
def conflits : List PlanningEntryShape → List PlanningConflictShape
  | [] => []
  | a :: reste => (reste.filter (chevauche a)).map (conflit a) ++ conflits reste

/-! ## The statements -/

/-- The database with the groups and the absences of the guides. -/
structure Store where
  app : Db := {}
  groups : Table Groups.Group := []
  guideUnavailabilities : Table (Option Groups.GuideUnavailability) := []

/-- A group with what `select` reads of its package. -/
structure GroupeRow where
  id : Groups.GroupId
  title : String
  guideId : Option UserId
  packageTitle : String
  startDate : Time
  endDate : Time

/-- An absence with its identifier. -/
structure AbsenceRow where
  id : UnavailabilityId
  absence : Groups.GuideUnavailability

inductive Stmt where
  /-- `where: { agencyId, role: GUIDE }`, by name. -/
  | userFindManyGuides (agencyId : AgencyId)
  | groupFindMany (ids : List UserId) (debut fin : Time)
  | guideUnavailabilityFindMany (ids : List UserId) (debut fin : Time)
  | guideUnavailabilityCreate (data : Groups.GuideUnavailability)
  /-- `where: { id, agencyId }`. -/
  | guideUnavailabilityDeleteMany (id : UnavailabilityId) (agencyId : AgencyId)

/-- The answer of each statement; an error is the code of a rejected call. -/
def Resp : Stmt → Type
  | .userFindManyGuides _ => List (UserId × String)
  | .groupFindMany _ _ _ => List GroupeRow
  | .guideUnavailabilityFindMany _ _ _ => List AbsenceRow
  | .guideUnavailabilityCreate _ => Except String Unit
  | .guideUnavailabilityDeleteMany _ _ => Nat

abbrev sig : Sig := prismaSig.sum ⟨Stmt, Resp⟩

/-- A request handler. -/
abbrev Req := Prog sig Erreur

/-- Execute one statement. -/
abbrev await (c : Stmt) : Req (Resp c) := @Prog.exec sig _ (.inr c)

/-- Rows that a query leaves in no order come in the order that the database finds, `ordre`, and names in
that of its collation, `collation`. -/
structure Env extends OumraHajj.Env where
  ordre : Nat → Nat := id
  collation : String → Nat := fun _ => 0

namespace Store

variable (s : Store)

/-- The groups with their packages. -/
def groupes : List GroupeRow :=
  s.groups.withIds.filterMap fun (id, g) => (s.app.packages[g.packageId]?).map fun p =>
    { id
      title := g.title
      guideId := g.guideId
      packageTitle := p.title
      startDate := p.startDate
      endDate := p.endDate }

def absences : List AbsenceRow :=
  s.guideUnavailabilities.withIds.filterMap fun (id, row) => row.map fun a => ⟨id, a⟩

end Store

/-- What a statement answers, and the store after it. -/
def exec : (c : Stmt) → Env → Store → Resp c × Store
  | .userFindManyGuides agencyId, e, s =>
    (((s.app.users.findMany fun u => u.agencyId = some agencyId ∧ u.role = .guide).insertionSort
      fun x y => e.collation x.2.fullName ≤ e.collation y.2.fullName).map fun (id, u) => (id, u.fullName), s)
  | .groupFindMany ids debut fin, e, s =>
    ((s.groupes.filter fun g => g.guideId.any (ids.contains ·) ∧
      Groups.Chevauche g.startDate g.endDate debut fin).insertionSort
        fun x y => e.ordre x.id ≤ e.ordre y.id, s)
  | .guideUnavailabilityFindMany ids debut fin, e, s =>
    ((s.absences.filter fun a => ids.contains a.absence.guideId ∧
      Groups.Chevauche a.absence.startDate a.absence.endDate debut fin).insertionSort
        fun x y => e.ordre x.id ≤ e.ordre y.id, s)
  | .guideUnavailabilityCreate data, _, s =>
    if (s.app.agencies[data.agencyId]?).isSome ∧ (s.app.users[data.guideId]?).isSome then
      (.ok (), { s with guideUnavailabilities := s.guideUnavailabilities ++ [some data] })
    else (.error "P2003", s)
  | .guideUnavailabilityDeleteMany id agencyId, _, s =>
    match s.guideUnavailabilities.row id with
    | some a =>
      if a.agencyId = agencyId then
        ((1 : Nat), { s with guideUnavailabilities := s.guideUnavailabilities.set id none })
      else ((0 : Nat), s)
    | none => ((0 : Nat), s)

def backend : Backend sig Store Env where
  exec
    | .inl c, e, s =>
      ((prisma.exec c e.toEnv s.app).1, { s with app := (prisma.exec c e.toEnv s.app).2 })
    | .inr c, e, s => exec c e s

/-! ## The service -/

/-- `PERIODE_MAX_JOURS`. -/
def periodeMaxJours : Int := 731

structure PlanningQueryDto where
  «from» : Option Audit.DateJour := none
  «to» : Option Audit.DateJour := none

structure CreateUnavailabilityDto where
  guideId : UserId
  startDate : Time
  endDate : Time
  reason : Option String := none
  /-- `@MaxLength(80)`. -/
  reason_length : ∀ texte ∈ reason, texte.length ≤ 80

structure Fenetre where
  debut : Time
  fin : Time

/-- The period that is asked for; a year from today if there is none. -/
def fenetre (query : PlanningQueryDto) : Req Fenetre := do
  let maintenant : Time ← Prog.left (OumraHajj.await .now)
  let debut := (query.from.map fun d => d.minuit).getD (some (minuit (jourDe maintenant)))
  let fin := (query.to.map fun d => d.minuit.map (· + jourMs - 1)).getD
    (debut.map (· + 365 * jourMs))
  match debut, fin with
  | some debut, some fin =>
    if fin - debut < 0 then .fail (.badRequest "La date de début doit précéder la fin")
    else if fin - debut > periodeMaxJours * jourMs then
      .fail (.badRequest "Période limitée à deux ans")
    else return ⟨debut, fin⟩
  | _, _ => .fail (.badRequest "La date de début doit précéder la fin")

def entreeDuGroupe (gr : GroupeRow) : PlanningEntryShape where
  kind := .group
  id := gr.id
  label := gr.title
  packageTitle := some gr.packageTitle
  startDate := gr.startDate
  endDate := gr.endDate

def entreeDeLAbsence (a : AbsenceRow) : PlanningEntryShape where
  kind := .unavailability
  id := a.id
  label := a.absence.reason.getD "Indisponible"
  startDate := a.absence.startDate
  endDate := a.absence.endDate

/-- The schedule of a guide. -/
def planning (groupes : List GroupeRow) (absences : List AbsenceRow) (g : UserId × String) :
    GuideScheduleShape :=
  let entries := ((groupes.filter (·.guideId = some g.1)).map entreeDuGroupe ++
    (absences.filter (·.absence.guideId = g.1)).map entreeDeLAbsence).insertionSort
      fun a b => a.startDate ≤ b.startDate
  { guideId := g.1
    guideName := g.2
    entries
    conflicts := conflits entries }

namespace GuidePlanningService

def plannings (guides : List (UserId × String)) (f : Fenetre) : Req (List GuideScheduleShape) := do
  let ids := guides.map (·.1)
  if ids.length = 0 then return []
  else
    let groupes ← await (.groupFindMany ids f.debut f.fin)
    let absences ← await (.guideUnavailabilityFindMany ids f.debut f.fin)
    return guides.map (planning groupes absences)

/-- `const [planning] = ...`. -/
def premier : List GuideScheduleShape → Req GuideScheduleShape
  | planning :: _ => return planning
  | [] => .fail (.notFound "Guide introuvable")

def getAgencySchedule (ownerId : UserId) (query : PlanningQueryDto) : Req (List GuideScheduleShape) := do
  let agence ← Prog.left (AgenciesService.findByOwnerOrFail ownerId)
  let guides ← await (.userFindManyGuides agence.id)
  let f ← fenetre query
  plannings guides f

def getMine (guideId : UserId) (query : PlanningQueryDto) : Req GuideScheduleShape := do
  match ← Prog.left (OumraHajj.await (.userFindUnique guideId)) with
  | none => .fail (.notFound "Guide introuvable")
  | some guide =>
    let f ← fenetre query
    let schedules ← plannings [(guideId, guide.fullName)] f
    premier schedules

def addUnavailability (ownerId : UserId) (dto : CreateUnavailabilityDto) : Req GuideScheduleShape := do
  let agence ← Prog.left (AgenciesService.findByOwnerOrFail ownerId)
  match ← Prog.left (OumraHajj.await (.userFindUnique dto.guideId)) with
  | none => .fail (.forbidden "Ce guide n'est pas rattaché à votre agence")
  | some guide =>
    if guide.role ≠ .guide ∨ guide.agencyId ≠ some agence.id then
      .fail (.forbidden "Ce guide n'est pas rattaché à votre agence")
    else if dto.endDate < dto.startDate then
      .fail (.badRequest "La fin doit suivre le début")
    else
      match ← await (.guideUnavailabilityCreate
        { agencyId := agence.id
          guideId := dto.guideId
          startDate := dto.startDate
          endDate := dto.endDate
          reason := Groups.texteOuNull dto.reason }) with
      | .error code => .fail (.prisma code)
      | .ok () =>
        let schedules ← plannings [(dto.guideId, guide.fullName)] ⟨dto.startDate, dto.endDate⟩
        premier schedules

def deleteUnavailability (ownerId : UserId) (id : UnavailabilityId) : Req Unit := do
  let agence ← Prog.left (AgenciesService.findByOwnerOrFail ownerId)
  let count : Nat ← await (.guideUnavailabilityDeleteMany id agence.id)
  if count = 0 then .fail (.notFound "Indisponibilité introuvable") else return ()

end GuidePlanningService

end OumraHajj.Planning
