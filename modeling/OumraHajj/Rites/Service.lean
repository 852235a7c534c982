import OumraHajj.Async.Faults
import OumraHajj.Rites.Store

/-!
# Rite sheets

`RiteSheetsService` (`src/modules/rites/rite-sheets.service.ts`). A sheet is created without a
validation, an update takes the validation away, and the public catalogue lists the validated sheets.
-/

namespace OumraHajj.Rites

open Async

structure RiteSheetShape where
  id : RiteSheetId
  key : String
  title : String
  pilgrimageType : RiteSheetPilgrimageType
  order : Nat
  content : String
  audioRef : Option String
  language : String
  version : Nat
  isValidated : Bool
  validatedById : Option UserId
  validatedAt : Option Time
  deriving DecidableEq

def toRiteSheetShape (id : RiteSheetId) (sheet : RiteSheet) : RiteSheetShape :=
  { id := id
    key := sheet.key
    title := sheet.title
    pilgrimageType := sheet.pilgrimageType
    order := sheet.order
    content := sheet.content
    audioRef := sheet.audioRef
    language := sheet.language
    version := sheet.version
    isValidated := sheet.isValidated
    validatedById := sheet.validatedById
    validatedAt := sheet.validatedAt }

structure CreateRiteSheetDto where
  key : String
  title : String
  pilgrimageType : RiteSheetPilgrimageType
  order : Nat
  content : String
  audioRef : Champ String := .absent
  language : Champ String := .absent
  key_length : 2 ≤ key.length
  title_length : 2 ≤ title.length
  content_length : 10 ≤ content.length
  language_in : ∀ l, language = .valeur l → l ∈ ["fr", "en", "ar"]

/-- `PartialType(CreateRiteSheetDto)`. -/
structure UpdateRiteSheetDto where
  key : Champ String := .absent
  title : Champ String := .absent
  pilgrimageType : Champ RiteSheetPilgrimageType := .absent
  order : Champ Nat := .absent
  content : Champ String := .absent
  audioRef : Champ String := .absent
  language : Champ String := .absent
  key_length : ∀ x, key = .valeur x → 2 ≤ x.length
  title_length : ∀ x, title = .valeur x → 2 ≤ x.length
  content_length : ∀ x, content = .valeur x → 10 ≤ x.length
  language_in : ∀ l, language = .valeur l → l ∈ ["fr", "en", "ar"]

namespace RiteSheetsService

def create (dto : CreateRiteSheetDto) : Req RiteSheetShape := do
  match ← await (.riteSheetCreate {
      key := dto.key
      title := dto.title
      pilgrimageType := dto.pilgrimageType
      order := dto.order
      content := dto.content
      audioRef := dto.audioRef
      language := dto.language
      isValidated := false }) with
  | some (id, sheet) => return toRiteSheetShape id sheet
  | none => .fail (.autre "PrismaClientValidationError")

/-- `prisma.riteSheet.update(…).catch(…)`. -/
def updateSheet (id : RiteSheetId) (data : RiteSheetUpdate) : Req RiteSheetShape := do
  match ← await (.riteSheetUpdate id data) with
  | some sheet => return toRiteSheetShape id sheet
  | none => .fail (.notFound "Fiche de rite introuvable")

/-- `data` of `update`: an edit invalidates the validation before it. -/
def edition (dto : UpdateRiteSheetDto) : RiteSheetUpdate :=
  { key := dto.key
    title := dto.title
    pilgrimageType := dto.pilgrimageType.nullable none
    order := dto.order
    content := dto.content
    audioRef := dto.audioRef
    language := dto.language
    isValidated := false
    validatedById := none
    validatedAt := none
    increment := 1 }

/-- `data` of `validate`. -/
def validation (reviewerId : UserId) (now : Time) : RiteSheetUpdate :=
  { isValidated := true
    validatedById := some reviewerId
    validatedAt := some now }

def update (id : RiteSheetId) (dto : UpdateRiteSheetDto) : Req RiteSheetShape :=
  updateSheet id (edition dto)

def validate (id : RiteSheetId) (reviewerId : UserId) : Req RiteSheetShape := do
  let now ← await .now
  updateSheet id (validation reviewerId now)

def findByIdOrFail (id : RiteSheetId) : Req RiteSheetShape := do
  match ← await (.riteSheetFindUnique id) with
  | some sheet => return toRiteSheetShape id sheet
  | none => .fail (.notFound "Fiche de rite introuvable")

/-- `prisma.riteSheet.findMany`. -/
def findMany (w : RiteSheetWhere) : Req (List RiteSheetShape) := do
  match ← await (.riteSheetFindMany w) with
  | some sheets => return sheets.map fun x => toRiteSheetShape x.1 x.2
  | none => .fail (.autre "PrismaClientValidationError")

/-- `where` of `listPublished`; an empty parameter is none. -/
def publies (pilgrimageType language : Option String) : RiteSheetWhere :=
  { isValidated := some true
    pilgrimageType := (pilgrimageType.filter (· ≠ "")).map fun p => [p, "both"]
    language := language.filter (· ≠ "") }

def listPublished (pilgrimageType language : Option String) : Req (List RiteSheetShape) :=
  findMany (publies pilgrimageType language)

def listAll : Req (List RiteSheetShape) := findMany {}

end RiteSheetsService

/-- What a user asks of the service. -/
inductive Action where
  | create (dto : CreateRiteSheetDto)
  | update (id : RiteSheetId) (dto : UpdateRiteSheetDto)
  | validate (id : RiteSheetId)
  | findByIdOrFail (id : RiteSheetId)
  | listPublished (pilgrimageType language : Option String)
  | listAll

/-- The handler of a request of the user, without the value that it returns. -/
def action (userId : UserId) : Action → Req Unit
  | .create dto => (RiteSheetsService.create dto).void
  | .update id dto => (RiteSheetsService.update id dto).void
  | .validate id => (RiteSheetsService.validate id userId).void
  | .findByIdOrFail id => (RiteSheetsService.findByIdOrFail id).void
  | .listPublished pilgrimageType language =>
    (RiteSheetsService.listPublished pilgrimageType language).void
  | .listAll => RiteSheetsService.listAll.void

/-- The requests of a user, one after the other; a refused one does not stop the user. -/
def session (userId : UserId) : List Action → Req Unit
  | [] => return ()
  | a :: l => do
    (action userId a).tryCatch fun _ => return ()
    session userId l

/-- The users at work at once, each with the requests of a session. -/
def poolOf {ι : Type} (sessions : ι → UserId × List Action) (s : Store) :
    Pool sig ι Store Erreur Unit :=
  ⟨fun t => session (sessions t).1 (sessions t).2, s⟩

end OumraHajj.Rites
