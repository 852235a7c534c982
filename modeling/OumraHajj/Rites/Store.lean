import Mathlib.Data.List.Sort
import OumraHajj.Async.Sequential
import OumraHajj.Prisma.Schema

/-!
# Rite sheets: rows and statements

The table `rite_sheets`, read and written by `RiteSheetsService`. No route deletes a sheet, so the
identifier of a sheet is its position. `Champ` is a field of a request body or of the `data` of a
statement: left out, `null` or a value.
-/

namespace OumraHajj.Rites

open Async

abbrev RiteSheetId := Nat

inductive RiteSheetPilgrimageType where
  | oumra
  | hadj
  | both
  deriving DecidableEq, Repr

def RiteSheetPilgrimageType.value : RiteSheetPilgrimageType → String
  | .oumra => "oumra"
  | .hadj => "hadj"
  | .both => "both"

/-- A field (module doc). -/
inductive Champ (α : Type) where
  | absent
  | nul
  | valeur (a : α)

namespace Champ

variable {α : Type}

/-- The value of a column that may be `null`. -/
def nullable (old : Option α) : Champ α → Option α
  | .absent => old
  | .nul => none
  | .valeur a => some a

/-- The value of a column that may not; `none`: the statement is refused. -/
def requis (old : α) : Champ α → Option α
  | .absent => some old
  | .nul => none
  | .valeur a => some a

end Champ

structure RiteSheet where
  key : String
  title : String
  pilgrimageType : RiteSheetPilgrimageType
  order : Nat := 0
  content : String
  audioRef : Option String
  language : String := "fr"
  version : Nat := 1
  isValidated : Bool := false
  validatedById : Option UserId := none
  validatedAt : Option Time := none
  deriving DecidableEq

/-- The sheets, with the users that they may refer to. -/
structure Store where
  users : UserId → Bool
  sheets : Table RiteSheet := []

/-- `data` of `riteSheet.create`. -/
structure RiteSheetCreate where
  key : String
  title : String
  pilgrimageType : RiteSheetPilgrimageType
  order : Nat
  content : String
  audioRef : Champ String
  language : Champ String
  isValidated : Bool

/-- `data` of `riteSheet.update`. -/
structure RiteSheetUpdate where
  key : Champ String := .absent
  title : Champ String := .absent
  pilgrimageType : Option RiteSheetPilgrimageType := none
  order : Champ Nat := .absent
  content : Champ String := .absent
  audioRef : Champ String := .absent
  language : Champ String := .absent
  isValidated : Bool
  validatedById : Option UserId
  validatedAt : Option Time
  /-- `version: { increment }`. -/
  increment : Nat := 0

/-- `where` of `riteSheet.findMany`. -/
structure RiteSheetWhere where
  isValidated : Option Bool := none
  /-- `pilgrimageType: { in }`. -/
  pilgrimageType : Option (List String) := none
  language : Option String := none

/-- The row that is created; `none`: the statement is refused. -/
def RiteSheetCreate.row (d : RiteSheetCreate) : Option RiteSheet :=
  (d.language.requis "fr").map fun language =>
    { key := d.key
      title := d.title
      pilgrimageType := d.pilgrimageType
      order := d.order
      content := d.content
      audioRef := d.audioRef.nullable none
      language := language
      isValidated := d.isValidated }

/-- The row after the update; `none`: the statement is refused. -/
def RiteSheetUpdate.apply (d : RiteSheetUpdate) (x : RiteSheet) : Option RiteSheet := do
  let key ← d.key.requis x.key
  let title ← d.title.requis x.title
  let order ← d.order.requis x.order
  let content ← d.content.requis x.content
  let language ← d.language.requis x.language
  return {
    key := key
    title := title
    pilgrimageType := d.pilgrimageType.getD x.pilgrimageType
    order := order
    content := content
    audioRef := d.audioRef.nullable x.audioRef
    language := language
    version := x.version + d.increment
    isValidated := d.isValidated
    validatedById := d.validatedById
    validatedAt := d.validatedAt }

/-- The values of `in` are members of the enumeration. -/
def RiteSheetWhere.valid (w : RiteSheetWhere) : Bool :=
  (w.pilgrimageType.getD []).all fun v =>
    v = RiteSheetPilgrimageType.oumra.value ∨ v = RiteSheetPilgrimageType.hadj.value ∨
      v = RiteSheetPilgrimageType.both.value

def RiteSheetWhere.matches (w : RiteSheetWhere) (x : RiteSheet) : Bool :=
  w.isValidated.all (x.isValidated = ·) ∧ w.pilgrimageType.all (x.pilgrimageType.value ∈ ·) ∧
    w.language.all (x.language = ·)

inductive Stmt where
  /-- `new Date()`. -/
  | now
  | riteSheetCreate (data : RiteSheetCreate)
  | riteSheetUpdate (id : RiteSheetId) (data : RiteSheetUpdate)
  | riteSheetFindUnique (id : RiteSheetId)
  /-- `orderBy: { order: 'asc' }`. -/
  | riteSheetFindMany (w : RiteSheetWhere)

/-- The answer of each statement; for all but `riteSheetFindUnique`, `none` is a rejected call. -/
def Resp : Stmt → Type
  | .now => Time
  | .riteSheetCreate _ => Option (RiteSheetId × RiteSheet)
  | .riteSheetUpdate _ _ => Option RiteSheet
  | .riteSheetFindUnique _ => Option RiteSheet
  | .riteSheetFindMany _ => Option (List (RiteSheetId × RiteSheet))

abbrev sig : Sig := ⟨Stmt, Resp⟩

/-- A request handler. -/
abbrev Req := Prog sig Erreur

/-- Execute one statement. -/
abbrev await (c : Stmt) : Req (Resp c) := @Prog.exec sig _ c

/-- `riteSheet.update`: the row exists, its new values are allowed and the reviewer exists. -/
def Store.update (s : Store) (id : RiteSheetId) (data : RiteSheetUpdate) :
    Option RiteSheet × Store :=
  match (s.sheets[id]?).bind data.apply with
  | some x =>
    if data.validatedById.all s.users then (some x, { s with sheets := s.sheets.set id x })
    else (none, s)
  | none => (none, s)

/-- What a statement answers at the time `now`, and the store after it. -/
def exec : (c : Stmt) → (now : Time) → Store → Resp c × Store
  | .now, now, s => (now, s)
  | .riteSheetCreate data, _, s =>
    match data.row with
    | some x => (some (s.sheets.length, x), { s with sheets := s.sheets ++ [x] })
    | none => (none, s)
  | .riteSheetUpdate id data, _, s => s.update id data
  | .riteSheetFindUnique id, _, s => (s.sheets[id]?, s)
  | .riteSheetFindMany w, _, s =>
    if w.valid then
      (some ((s.sheets.findMany w.matches).insertionSort fun x y => x.2.order ≤ y.2.order), s)
    else (none, s)

def backend : Backend sig Store Time := ⟨exec⟩

end OumraHajj.Rites
