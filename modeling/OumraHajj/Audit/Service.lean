import Mathlib.Data.List.Sort
import OumraHajj.Async.Sequential
import OumraHajj.Common.Csv
import OumraHajj.Common.Iso
import OumraHajj.Prisma.Schema

/-!
# The audit trail

The rows of `audit_logs` with their statements, and `AuditService` (`src/modules/audit/audit.service.ts`):
it records the sensitive actions, and the administration reads them and exports them for a period of a
year at most. No route changes or deletes a row.

`String` of a number is a parameter of the text of the metadata.
-/

namespace OumraHajj.Audit

open Async

/-- A value of `AuditMetadata`. -/
inductive Scalaire where
  | str (s : String)
  | num (x : ℚ)
  | bool (b : Bool)
  | null

abbrev AuditMetadata := List (String × Scalaire)

structure AuditLog where
  actorId : Option UserId
  actorRole : Option Role
  action : String
  entityType : String
  entityId : Option String
  metadata : Option AuditMetadata
  createdAt : Time

/-- The trail, with the users that it names. -/
structure Store where
  users : Table User := []
  auditLogs : Table AuditLog := []

structure AuditEntry where
  actorId : Option UserId := none
  actorRole : Option Role := none
  action : String
  entityType : String
  entityId : Option String := none
  metadata : Option AuditMetadata := none

def AuditEntry.row (entree : AuditEntry) (now : Time) : AuditLog :=
  { actorId := entree.actorId
    actorRole := entree.actorRole
    action := entree.action
    entityType := entree.entityType
    entityId := entree.entityId
    metadata := entree.metadata
    createdAt := now }

/-- A day `AAAA-MM-JJ` (`DATE_JOUR`). -/
structure DateJour where
  annee : Fin 10000
  mois : Fin 100
  jour : Fin 100

/-- Midnight of the day; `none`: an invalid date. A day that its month does not have is carried into the
next one. -/
def DateJour.minuit (d : DateJour) : Option Time :=
  if 1 ≤ d.mois.val ∧ d.mois.val ≤ 12 ∧ 1 ≤ d.jour.val ∧ d.jour.val ≤ 31 then
    some (OumraHajj.minuit (daysFromCivil d.annee.val d.mois.val d.jour.val))
  else none

structure ListAuditQueryDto where
  «from» : Option DateJour := none
  «to» : Option DateJour := none
  action : Option String := none
  entityType : Option String := none
  entityId : Option String := none
  actorId : Option UserId := none

/-- `...(valeur && { champ: valeur })`. -/
def filtre (valeur : Option String) (champ : Option String) : Bool :=
  (valeur.filter (· ≠ "")).all fun v => champ = some v

/-- `where` of `auditLog.findMany`. -/
def ListAuditQueryDto.selects (query : ListAuditQueryDto) (debut fin : Time) (e : AuditLog) : Bool :=
  (debut ≤ e.createdAt ∧ e.createdAt < fin) && filtre query.action (some e.action) &&
    filtre query.entityType (some e.entityType) && filtre query.entityId e.entityId &&
    query.actorId.all fun id => e.actorId = some id

inductive Stmt where
  /-- `new Date()`. -/
  | now
  | auditLogCreate (data : AuditEntry)
  /-- `orderBy: { createdAt: 'desc' }`, `take: limite`. -/
  | auditLogFindMany (query : ListAuditQueryDto) (debut fin : Time) (limite : Nat)
  /-- `select: { id, fullName }`. -/
  | userFindMany (ids : List UserId)

def Resp : Stmt → Type
  | .now => Time
  | .auditLogCreate _ => Unit
  | .auditLogFindMany _ _ _ _ => List (Nat × AuditLog)
  | .userFindMany _ => List (UserId × String)

abbrev sig : Sig := ⟨Stmt, Resp⟩

/-- A request handler. -/
abbrev Req := Prog sig Erreur

/-- Execute one statement. -/
abbrev await (c : Stmt) : Req (Resp c) := @Prog.exec sig _ c

/-- What a statement answers at a time, and the trail after it. -/
def exec : (c : Stmt) → Time → Store → Resp c × Store
  | .now, now, s => (now, s)
  | .auditLogCreate data, now, s => ((), { s with auditLogs := s.auditLogs ++ [data.row now] })
  | .auditLogFindMany query debut fin limite, _, s =>
    (((s.auditLogs.findMany (query.selects debut fin)).insertionSort
      fun x y => y.2.createdAt ≤ x.2.createdAt).take limite, s)
  | .userFindMany ids, _, s =>
    ((s.users.withIds.filter fun x => x.1 ∈ ids).map fun (id, user) => (id, user.fullName), s)

def backend : Backend sig Store Time := ⟨exec⟩

structure AuditLogShape where
  id : Nat
  actorId : Option UserId
  actorName : Option String
  actorRole : Option Role
  action : String
  entityType : String
  entityId : Option String
  metadata : Option AuditMetadata
  createdAt : Time

/-! ## The text of the metadata -/

/-- The characters of a JSON string for one character. -/
def quoteChar (c : Char) : List Char :=
  if c = '"' then ['\\', '"']
  else if c = '\\' then ['\\', '\\']
  else if c = '\x08' then ['\\', 'b']
  else if c = '\t' then ['\\', 't']
  else if c = '\n' then ['\\', 'n']
  else if c = '\x0c' then ['\\', 'f']
  else if c = '\r' then ['\\', 'r']
  else if c.toNat < 32 then
    ['\\', 'u', '0', '0', Nat.digitChar (c.toNat / 16), Nat.digitChar (c.toNat % 16)]
  else [c]

/-- A JSON string. -/
def quote (s : String) : String := "\"" ++ String.ofList (s.toList.flatMap quoteChar) ++ "\""

example : quote "Dit \"non\"\n" = "\"Dit \\\"non\\\"\\n\"" := by decide +kernel

section Nombre

variable (nombre : ℚ → String)

def Scalaire.stringify : Scalaire → String
  | .str s => quote s
  | .num x => nombre x
  | .bool b => if b then "true" else "false"
  | .null => "null"

/-- `JSON.stringify(metadata)`. -/
def stringify (metadata : AuditMetadata) : String :=
  "\x7b" ++ ",".intercalate (metadata.map fun (cle, valeur) =>
    quote cle ++ ":" ++ valeur.stringify nombre) ++ "\x7d"

end Nombre

/-- The value of a role. -/
def roleValue : Role → String
  | .pilgrim => "pilgrim"
  | .agency => "agency"
  | .guide => "guide"
  | .admin => "admin"

namespace AuditService

/-- `PERIODE_MAX_JOURS`. -/
def periodeMaxJours : Int := 366

/-- `LIMITE_CONSULTATION`. -/
def limiteConsultation : Nat := 500

/-- `LIMITE_EXPORT`. -/
def limiteExport : Nat := 10000

def record (entree : AuditEntry) : Req Unit := await (.auditLogCreate entree)

/-- The end of the period, excluded; `none`: an invalid date. -/
def finDe (query : ListAuditQueryDto) : Req (Option Time) :=
  match query.«to» with
  | some d => return d.minuit.map (· + jourMs)
  | none => do
    let maintenant ← await .now
    return some maintenant

/-- The period asked for, or the last 30 days. -/
def periode (query : ListAuditQueryDto) : Req (Time × Time) := do
  let fin ← finDe query
  let debut := match query.«from» with
    | some d => d.minuit
    | none => fin.map (· - 30 * jourMs)
  match debut, fin with
  | some debut, some fin =>
    if fin - debut ≤ 0 then .fail (.badRequest "La date de début doit précéder la date de fin")
    else if fin - debut > periodeMaxJours * jourMs then
      .fail (.badRequest "Période limitée à 366 jours")
    else return (debut, fin)
  | _, _ => .fail (.badRequest "La date de début doit précéder la date de fin")

/-- A line of the trail, with the name of its author. -/
def toShape (auteurs : List (UserId × String)) (e : Nat × AuditLog) : AuditLogShape :=
  { id := e.1
    actorId := e.2.actorId
    actorName := e.2.actorId.bind fun id => List.lookup id auteurs
    actorRole := e.2.actorRole
    action := e.2.action
    entityType := e.2.entityType
    entityId := e.2.entityId
    metadata := e.2.metadata
    createdAt := e.2.createdAt }

def chercher (query : ListAuditQueryDto) (limite : Nat) : Req (List AuditLogShape) := do
  let (debut, fin) ← periode query
  let entrees ← await (.auditLogFindMany query debut fin limite)
  let auteurs ← await (.userFindMany (entrees.filterMap fun e => e.2.actorId).dedup)
  return entrees.map (toShape auteurs)

def list (query : ListAuditQueryDto) : Req (List AuditLogShape) := chercher query limiteConsultation

def titres : List String :=
  ["Date (UTC)", "Action", "Entité", "Identifiant", "Auteur", "Rôle", "Identifiant auteur", "Détails"]

section Nombre

variable (nombre : ℚ → String)

/-- The cells of a line. -/
def cellules (l : AuditLogShape) : List (Option String) :=
  [some (toISOString l.createdAt), some l.action, some l.entityType, l.entityId, l.actorName,
    l.actorRole.map roleValue, l.actorId.map toString, l.metadata.map (stringify nombre)]

def exportCsv (query : ListAuditQueryDto) : Req String := do
  let lignes ← chercher query limiteExport
  return Csv.fichier "\r\n" (Csv.ligne ";" titres)
    (lignes.map fun l => Csv.ligne ";" ((cellules nombre l).map (·.getD "")))

end Nombre

end AuditService

end OumraHajj.Audit
