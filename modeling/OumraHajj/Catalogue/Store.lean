import OumraHajj.Async.Embed
import OumraHajj.Services.RefundPolicy
import OumraHajj.Services.Requests

/-!
# What an agency publishes: statements

The statements that write the packages of an agency and its refund schedule, beside the statements
of the other services. They act on the same database.
-/

namespace OumraHajj.Catalogue

open Async

/-- `data` of `package.update` from a request; `none`: the column is left as it is. -/
structure PackageEdit where
  type : Option PilgrimageType := none
  title : Option String := none
  description : Option String := none
  startDate : Option Time := none
  endDate : Option Time := none
  price : Option ℚ := none
  currency : Option String := none
  capacity : Option Int := none
  inclusions : Option (List String) := none
  /-- The stages are replaced as a whole. -/
  stages : Option (List PackageStage) := none

def PackageEdit.apply (d : PackageEdit) (p : Package) : Package :=
  { p with
    type := d.type.getD p.type
    title := d.title.getD p.title
    description := d.description.or p.description
    startDate := d.startDate.getD p.startDate
    endDate := d.endDate.getD p.endDate
    price := d.price.getD p.price
    currency := d.currency.getD p.currency
    capacity := d.capacity.getD p.capacity
    inclusions := d.inclusions.getD p.inclusions
    stages := d.stages.getD p.stages }

@[simp] theorem PackageEdit.apply_agencyId (d : PackageEdit) (p : Package) :
    (d.apply p).agencyId = p.agencyId := rfl

@[simp] theorem PackageEdit.apply_startDate (d : PackageEdit) (p : Package) :
    (d.apply p).startDate = d.startDate.getD p.startDate := rfl

@[simp] theorem PackageEdit.apply_endDate (d : PackageEdit) (p : Package) :
    (d.apply p).endDate = d.endDate.getD p.endDate := rfl

inductive Stmt where
  | agencyFindUnique (id : AgencyId)
  | packageCreate (data : Package)
  | packageUpdate (id : PackageId) (data : PackageEdit)
  /-- The transaction of `replaceForOwner`: `deleteMany` and `createMany`. -/
  | refundPolicyTierReplace (agencyId : AgencyId) (data : List RefundPolicyTier)

/-- The answer of each statement; `none` or an error is a rejected call. -/
def Resp : Stmt → Type
  | .agencyFindUnique _ => Option Agency
  | .packageCreate _ => Except String (PackageId × Package)
  | .packageUpdate _ _ => Option Package
  | .refundPolicyTierReplace _ _ => Except String Unit

/-- The statements of the catalogue and of the other services. -/
abbrev sig : Sig := prismaSig.sum ⟨Stmt, Resp⟩

/-- The key of `@@unique([agencyId, minDaysBeforeDeparture])`. -/
def tierKey (p : RefundPolicyTier) : AgencyId × Int := (p.agencyId, p.minDaysBeforeDeparture)

/-- The tiers of the agency are deleted and the new ones created, or nothing is done. -/
def replaceTiers (s : Db) (agencyId : AgencyId) (data : List RefundPolicyTier) :
    Except String Unit × Db :=
  let tiers := s.refundPolicyTiers.filter (·.agencyId ≠ agencyId) ++ data
  if (tiers.map tierKey).Nodup then (.ok (), { s with refundPolicyTiers := tiers })
  else (.error "P2002", s)

/-- What a statement answers, and the database after it. -/
def exec : (c : Stmt) → Db → Resp c × Db
  | .agencyFindUnique id, s => (s.agencies[id]?, s)
  | .packageCreate data, s =>
    match s.agencies[data.agencyId]? with
    | some _ => (.ok (s.packages.length, data), { s with packages := s.packages ++ [data] })
    | none => (.error "P2003", s)
  | .packageUpdate id data, s =>
    match s.packages[id]? with
    | some p => (some (data.apply p), { s with packages := s.packages.set id (data.apply p) })
    | none => (none, s)
  | .refundPolicyTierReplace agencyId data, s => replaceTiers s agencyId data

/-- The backend of the catalogue. -/
def backend : Backend sig Db Env where
  exec
    | .inl c, e, s => prisma.exec c e s
    | .inr c, _, s => exec c s

/-- The statements of the other services act on the same database. -/
theorem extends_prisma : Backend.Extends (fun _ => True) prisma backend id id := fun _ _ _ _ => rfl

/-- What a handler of the other services keeps. -/
theorem keeps_left {D : Rely Db} {ok : sig.Stmt → Db → Env → Prop} {α : Type} {p : OumraHajj.Req α}
    {s : Db} {Q : Except Erreur α → Db → Prop} (h : D.Keeps prisma (fun c => ok (.inl c)) p s Q) :
    D.Keeps backend ok p.left s Q :=
  Rely.Keeps.left (D := D) extends_prisma (fun _ _ _ => id) (Prog.uses_true p) h

theorem runs_left {α : Type} {p : OumraHajj.Req α} {s s' : Db} {r : Except Erreur α}
    (h : backend.Runs (Prog.left p) s r s') : prisma.Runs p s r s' :=
  runs_of_left extends_prisma (Prog.uses_true p) h

/-- A request handler. -/
abbrev Req := Prog sig Erreur

/-- Execute one statement. -/
abbrev await (c : Stmt) : Req (Resp c) := @Prog.exec sig _ (.inr c)

end OumraHajj.Catalogue
