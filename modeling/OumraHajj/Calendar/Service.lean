import OumraHajj.Common.Iso
import OumraHajj.Common.Uuid
import OumraHajj.Services.Packages

/-!
# The calendar of an agency

`CalendarService` (`src/modules/calendar/calendar.service.ts`): the packages of an agency as an iCalendar
feed, for whoever has the secret link. Nothing is recorded.

`uuid` is the identifier of a package as text.
-/

namespace OumraHajj.Calendar

open Async

/-- `texte.replace(/c/g, par)`. -/
def replace (c : Char) (par texte : String) : String :=
  String.ofList (texte.toList.flatMap fun d => if d = c then par.toList else [d])

def escapeIcsText (value : String) : String :=
  let value := replace '\\' "\\\\" value
  let value := replace ',' "\\," value
  let value := replace ';' "\\;" value
  replace '\n' "\\n" value

def toIcsDate (date : Time) : String := replace '-' "" (versJour date)

/-- `texte.replace(/\.\d{3}Z$/, 'Z')`. -/
def sansMillisecondes (texte : String) : String :=
  let debut := texte.toList.take (texte.length - 5)
  match texte.toList.drop (texte.length - 5) with
  | ['.', a, b, c, 'Z'] =>
    if a.isDigit ∧ b.isDigit ∧ c.isDigit then String.ofList (debut ++ ['Z']) else texte
  | _ => texte

def toIcsTimestamp (date : Time) : String :=
  sansMillisecondes (String.ofList ((toISOString date).toList.filter fun c => c ∉ ['-', ':']))

/-- `ICS_LINE_BREAK`. -/
def icsLineBreak : String := "\r\n"

/-- `CALENDAR_UID_DOMAIN`. -/
def calendarUidDomain : String := "oumra-hadj-project.local"

section Texte

variable (uuid : PackageId → Uuid)

def toIcsEvent (dtstamp : String) (pkg : PackageShape) : String :=
  let dtend := addDays pkg.endDate 1
  icsLineBreak.intercalate
    ["BEGIN:VEVENT",
      "UID:" ++ (uuid pkg.id).texte ++ "@" ++ calendarUidDomain,
      "DTSTAMP:" ++ dtstamp,
      "DTSTART;VALUE=DATE:" ++ toIcsDate pkg.startDate,
      "DTEND;VALUE=DATE:" ++ toIcsDate dtend,
      "SUMMARY:" ++ escapeIcsText pkg.title,
      "END:VEVENT"]

/-- The name of the calendar. -/
def calname (legalName : String) : String := "Échéances clés — " ++ legalName

/-- The text of a feed. -/
def feed (legalName : String) (packages : List PackageShape) (dtstamp : String) : String :=
  icsLineBreak.intercalate
    (["BEGIN:VCALENDAR",
      "VERSION:2.0",
      "PRODID:-//Oumra-Hadj Platform//Calendrier Agence//FR",
      "CALSCALE:GREGORIAN",
      "X-WR-CALNAME:" ++ escapeIcsText (calname legalName)] ++
      packages.map (toIcsEvent uuid dtstamp) ++
      ["END:VCALENDAR"])

end Texte

example : escapeIcsText "Oumra, groupe A; départ anticipé" = "Oumra\\, groupe A\\; départ anticipé" := by
  decide +kernel

example : toIcsTimestamp 1767225600000 = "20260101T000000Z" := by decide +kernel

/-! ## The queries -/

/-- The database with the secrets of the links. -/
structure Store where
  app : Db := {}
  calendarToken : AgencyId → Option String := fun _ => none

/-- `where: { calendarToken }`. -/
def Store.agencyOfToken (s : Store) (token : String) : Option (AgencyId × Agency) :=
  s.app.agencies.withIds.find? fun x => s.calendarToken x.1 = some token

inductive Query where
  | agencyFindUniqueByToken (token : String)
  /-- `where: { agencyId }`. -/
  | packageFindMany (agencyId : AgencyId)

def Query.Resp : Query → Type
  | .agencyFindUniqueByToken _ => Option (AgencyId × Agency)
  | .packageFindMany _ => List (PackageId × Package)

/-- The packages come in the order that the database finds. -/
structure Env extends OumraHajj.Env where
  ordre : PackageId → Nat := id

def Query.answer : (c : Query) → Env → Store → c.Resp
  | .agencyFindUniqueByToken token, _, s => s.agencyOfToken token
  | .packageFindMany agencyId, e, s =>
    (s.app.packages.findMany (·.agencyId = agencyId)).insertionSort fun x y => e.ordre x.1 ≤ e.ordre y.1

abbrev sig : Sig := prismaSig.sum ⟨Query, Query.Resp⟩

def backend : Backend sig Store Env where
  exec
    | .inl c, e, s =>
      ((prisma.exec c e.toEnv s.app).1, { s with app := (prisma.exec c e.toEnv s.app).2 })
    | .inr c, e, s => (c.answer e s, s)

/-- A request handler. -/
abbrev Req := Prog sig Erreur

/-- Execute one query. -/
abbrev await (c : Query) : Req c.Resp := @Prog.exec sig _ (.inr c)

/-! ## The service -/

def findByCalendarTokenOrFail (token : String) : Req AgencyShape := do
  match ← await (.agencyFindUniqueByToken token) with
  | none => .fail (.notFound "Lien de calendrier invalide")
  | some (id, agency) => return toAgencyShape id agency

def findAllByAgencyId (agencyId : AgencyId) : Req (List PackageShape) := do
  let pkgs ← await (.packageFindMany agencyId)
  return pkgs.map fun x => toPackageShape x.1 x.2

def CalendarService.getAgencyFeed (uuid : PackageId → Uuid) (token : String) : Req String := do
  let agency ← findByCalendarTokenOrFail token
  let packages ← findAllByAgencyId agency.id
  let maintenant : Time ← Prog.left (OumraHajj.await .now)
  let dtstamp := toIcsTimestamp maintenant
  return feed uuid agency.legalName packages dtstamp

end OumraHajj.Calendar
