import OumraHajj.Common.Money
import OumraHajj.OnCall.Service

/-!
# What the agency and the pilgrim see of the shifts

`trousDeCouverture`, `OnCallService.getCoverage` and `OnCallService.getForBooking`
(`src/modules/on-call/on-call.service.ts`). Rows that a query leaves in no order, or with equal keys,
come in the order that the database finds, `Env.ordre`.
-/

namespace OumraHajj.OnCall

open Async

/-- `select: { startsAt: true, endsAt: true }`. -/
structure Plage where
  startsAt : Time
  endsAt : Time
  deriving DecidableEq, Repr

structure OnCallPeriodShape where
  «from» : Time
  «to» : Time
  deriving DecidableEq, Repr

/-- `HEURE_MS`. -/
def heureMs : Int := 3600000

/-- The loop of `trousDeCouverture` over the shifts in the order of their start. -/
def balayer («to» : Time) :
    List Plage → List OnCallPeriodShape → Time → List OnCallPeriodShape × Time
  | [], trous, curseur => (trous, curseur)
  | c :: reste, trous, curseur =>
    if curseur ≥ «to» then (trous, curseur)
    else
      let debut := c.startsAt
      let trous := if debut > curseur then trous ++ [⟨curseur, min debut «to»⟩] else trous
      balayer «to» reste trous (max curseur c.endsAt)

/-- The parts of `[from, to[` that no shift covers. -/
def trousDeCouverture («from» «to» : Time) (creneaux : List Plage) : List OnCallPeriodShape :=
  let tries := creneaux.insertionSort fun a b => a.startsAt ≤ b.startsAt
  let (trous, curseur) := balayer «to» tries [] «from»
  if curseur < «to» then trous ++ [⟨curseur, «to»⟩] else trous

/-! ## The queries -/

inductive Query where
  | bookingFindUniqueWithAgency (id : BookingId)
  | onCallShiftFindManyForCoverage (agencyId : AgencyId) (packageId : PackageId) («from» «to» : Time)
  | onCallShiftFindManyForBooking (agencyId : AgencyId) (packageId : PackageId) (maintenant : Time)
    (take : Nat)

def Query.Resp : Query → Type
  | .bookingFindUniqueWithAgency _ => Option (Booking × Agency)
  | .onCallShiftFindManyForCoverage _ _ _ _ => List Plage
  | .onCallShiftFindManyForBooking _ _ _ _ => List OnCallShift

structure Env extends OumraHajj.Env where
  ordre : OnCallShiftId → Nat := id

/-- `where: { id }` with `agency`. -/
def Store.bookingWithAgency (s : Store) (id : BookingId) : Option (Booking × Agency) :=
  (s.app.bookings[id]?).bind fun b => (s.app.agencies[b.agencyId]?).map fun agency => (b, agency)

/-- `agencyId, OR: [{ packageId }, { packageId: null }]`: the shifts for a package. -/
def OnCallShift.Applicable (agencyId : AgencyId) (packageId : PackageId) (c : OnCallShift) : Prop :=
  c.agencyId = agencyId ∧ (c.packageId = some packageId ∨ c.packageId = none)

instance (agencyId : AgencyId) (packageId : PackageId) (c : OnCallShift) :
    Decidable (c.Applicable agencyId packageId) := inferInstanceAs (Decidable (_ ∧ _))

/-- The shifts that satisfy `P`, with their identifiers. -/
def Store.shifts (s : Store) (P : OnCallShift → Bool) : List (OnCallShiftId × OnCallShift) :=
  (s.onCallShifts.withIds.filterMap fun (id, row) => row.map fun c => (id, c)).filter fun x => P x.2

/-- What a query answers. -/
def Query.answer : (c : Query) → Env → Store → c.Resp
  | .bookingFindUniqueWithAgency id, _, s => s.bookingWithAgency id
  | .onCallShiftFindManyForCoverage agencyId packageId «from» «to», e, s =>
    ((s.shifts fun c => c.Applicable agencyId packageId ∧ c.startsAt < «to» ∧ c.endsAt > «from»).insertionSort
      fun x y => e.ordre x.1 ≤ e.ordre y.1).map fun x => ⟨x.2.startsAt, x.2.endsAt⟩
  | .onCallShiftFindManyForBooking agencyId packageId maintenant take, e, s =>
    (((s.shifts fun c => c.Applicable agencyId packageId ∧ c.endsAt > maintenant).insertionSort
      fun x y => x.2.startsAt < y.2.startsAt ∨
        (x.2.startsAt = y.2.startsAt ∧ e.ordre x.1 ≤ e.ordre y.1)).map Prod.snd).take take

/-- The statements of the shifts and their queries. -/
abbrev readSig : Sig := sig.sum ⟨Query, Query.Resp⟩

/-- The backend with the queries. -/
def readBackend : Backend readSig Store Env where
  exec
    | .inl c, e, s => backend.exec c e.toEnv s
    | .inr c, e, s => (c.answer e s, s)

/-- Execute one query. -/
abbrev awaitQuery (c : Query) : Prog readSig Erreur c.Resp := @Prog.exec readSig _ (.inr c)

/-! ## The service -/

structure OnCallCoverageShape where
  packageId : PackageId
  packageTitle : String
  «from» : Time
  «to» : Time
  totalHours : ℚ
  coveredHours : ℚ
  gaps : List OnCallPeriodShape

structure OnCallContactShape where
  staffName : String
  staffRole : OnCallRole
  phone : String
  startsAt : Time
  endsAt : Time
  deriving DecidableEq, Repr

def toContactShape (c : OnCallShift) : OnCallContactShape where
  staffName := c.staffName
  staffRole := c.staffRole
  phone := c.phone
  startsAt := c.startsAt
  endsAt := c.endsAt

structure MyOnCallShape where
  bookingId : BookingId
  agencyName : String
  agencyPhone : String
  current : List OnCallContactShape
  next : Option OnCallContactShape

/-- Hours with one decimal. -/
def heures (ms : Int) : ℚ := mathRound ((ms : ℚ) / heureMs * 10) / 10

namespace OnCallService

def getCoverage (ownerId : UserId) (packageId : PackageId) :
    Prog readSig Erreur OnCallCoverageShape := do
  let agencyId ← Prog.left (agencyIdOf ownerId)
  let forfait ← Prog.left (assertOwnPackage agencyId packageId)
  let debut := forfait.startDate
  let fin := forfait.endDate + jourMs
  let creneaux ← awaitQuery (.onCallShiftFindManyForCoverage agencyId packageId debut fin)
  let gaps := trousDeCouverture debut fin creneaux
  let totalMs := fin - debut
  let trousMs := (gaps.map fun t => t.to - t.from).sum
  return {
    packageId
    packageTitle := forfait.title
    «from» := debut
    «to» := fin
    totalHours := heures totalMs
    coveredHours := heures (totalMs - trousMs)
    gaps }

def getForBooking (pilgrimId : UserId) (bookingId : BookingId) :
    Prog readSig Erreur MyOnCallShape := do
  match ← awaitQuery (.bookingFindUniqueWithAgency bookingId) with
  | none => .fail (.notFound "Réservation introuvable")
  | some (reservation, agency) =>
    if reservation.pilgrimId ≠ pilgrimId then
      .fail (.forbidden "Cette réservation n'est pas la vôtre")
    else if reservation.status = .cancelled then
      .fail (.badRequest "Cette réservation est annulée")
    else
      let maintenant : Time ← Prog.left (Prog.left (OumraHajj.await .now))
      let creneaux ← awaitQuery
        (.onCallShiftFindManyForBooking reservation.agencyId reservation.packageId maintenant 20)
      let enCours := List.filter (fun c => c.startsAt ≤ maintenant) creneaux
      let suivant := List.find? (fun c => c.startsAt > maintenant) creneaux
      return {
        bookingId
        agencyName := agency.legalName
        agencyPhone := agency.contactPhone
        current := enCours.map toContactShape
        next := suivant.map toContactShape }

end OnCallService

end OumraHajj.OnCall
