import OumraHajj.Sync.Store

/-!
# Offline progress

`RiteProgressService` (`src/modules/rites/rite-progress.service.ts`) and the progress part of
`MicroCoursesService` (`src/modules/micro-courses/micro-courses.service.ts`). Both read the row of an
item and then write it only where the client's time is later. `syncItem` and `syncBatch` are the loop
that they share, with what each of them does with an item (`Model`).
-/

namespace OumraHajj.Sync

open Async

/-- What a service reads of an item and writes for it. -/
structure Model (I K C D : Type) where
  key : I → K
  clientUpdatedAt : I → Time
  /-- The columns that `create` gives a new row. -/
  create : I → C
  /-- The columns that `update` sets. -/
  data : I → D

section

variable {I K C D α : Type}

/-- `prisma.….upsert`. -/
def upsert (pilgrimId : UserId) (key : K) (create : C) (update : D) (clientUpdatedAt : Time) :
    Req K C D (Nat × Progress K C) := do
  match ← await (.progressUpsert pilgrimId key create update clientUpdatedAt) with
  | .ok updated => return updated
  | .error code => .fail (.prisma code)

/-- The body of the loop of `syncBatch`. -/
def syncItem (m : Model I K C D) (pilgrimId : UserId) (item : I) :
    Req K C D (Nat × Progress K C) := do
  match ← await (.progressFindUnique pilgrimId (m.key item)) with
  | some (id, existing) =>
    if existing.clientUpdatedAt ≥ m.clientUpdatedAt item then return (id, existing)
    else upsert pilgrimId (m.key item) (m.create item) (m.data item) (m.clientUpdatedAt item)
  | none => upsert pilgrimId (m.key item) (m.create item) (m.data item) (m.clientUpdatedAt item)

/-- `syncBatch`: one item after the other. -/
def syncBatch (m : Model I K C D) (pilgrimId : UserId) :
    List I → Req K C D (List (Nat × Progress K C))
  | [] => return []
  | item :: items => do
    let result ← syncItem m pilgrimId item
    let results ← syncBatch m pilgrimId items
    return result :: results

end

/-! ## Rites -/

/-- The columns of `rite_progress`. -/
structure RiteColumns where
  completed : Bool := false
  tawafCount : Nat := 0
  saiCount : Nat := 0
  deriving DecidableEq

/-- `data` of an update; `none`: the column is left as it is. -/
structure RiteData where
  completed : Option Bool := none
  tawafCount : Option Nat := none
  saiCount : Option Nat := none

def RiteData.apply (data : RiteData) (c : RiteColumns) : RiteColumns :=
  { completed := data.completed.getD c.completed
    tawafCount := data.tawafCount.getD c.tawafCount
    saiCount := data.saiCount.getD c.saiCount }

/-- `RiteProgressItemDto`. -/
structure RiteProgressItem where
  riteKey : String
  completed : Option Bool := none
  tawafCount : Option Nat := none
  saiCount : Option Nat := none
  clientUpdatedAt : Time
  deriving DecidableEq

structure RiteProgressShape where
  id : Nat
  pilgrimId : UserId
  riteKey : String
  completed : Bool
  tawafCount : Nat
  saiCount : Nat
  clientUpdatedAt : Time
  deriving DecidableEq

def toRiteProgressShape (progress : Nat × Progress String RiteColumns) : RiteProgressShape :=
  { id := progress.1
    pilgrimId := progress.2.pilgrimId
    riteKey := progress.2.key
    completed := progress.2.columns.completed
    tawafCount := progress.2.columns.tawafCount
    saiCount := progress.2.columns.saiCount
    clientUpdatedAt := progress.2.clientUpdatedAt }

namespace RiteProgressService

/-- `data`: the fields that the item has. -/
def data (item : RiteProgressItem) : RiteData :=
  { completed := item.completed
    tawafCount := item.tawafCount
    saiCount := item.saiCount }

/-- `create` spreads `data`; the other columns take their `@default`. -/
def model : Model RiteProgressItem String RiteColumns RiteData :=
  { key := RiteProgressItem.riteKey
    clientUpdatedAt := RiteProgressItem.clientUpdatedAt
    create := fun item => (data item).apply {}
    data := data }

abbrev Req := Sync.Req String RiteColumns RiteData

abbrev await (c : Stmt String RiteColumns RiteData) : Req (Resp c) := Sync.await c

def findMine (pilgrimId : UserId) : Req (List RiteProgressShape) := do
  let items ← await (.progressFindMany pilgrimId)
  return items.map toRiteProgressShape

def syncBatch (pilgrimId : UserId) (items : List RiteProgressItem) :
    Req (List RiteProgressShape) := do
  let results ← Sync.syncBatch model pilgrimId items
  return results.map toRiteProgressShape

def resetCounter (pilgrimId : UserId) (riteKey : String) : Req RiteProgressShape := do
  let now : Time ← await .now
  let updated ← upsert pilgrimId riteKey { tawafCount := 0, saiCount := 0 }
    { tawafCount := some 0, saiCount := some 0 } now
  return toRiteProgressShape updated

/-- The backend of `rite_progress`. -/
abbrev backend : Backend (sig String RiteColumns RiteData) (Store String RiteColumns) Time :=
  Sync.backend RiteData.apply

end RiteProgressService

/-! ## Micro-courses -/

abbrev CourseId := String

/-- The columns of `micro_course_progress`. -/
structure CourseColumns where
  isCompleted : Bool := false
  deriving DecidableEq

/-- `data` of an update; `none`: the column is left as it is. -/
structure CourseData where
  isCompleted : Option Bool := none

def CourseData.apply (data : CourseData) (c : CourseColumns) : CourseColumns :=
  { isCompleted := data.isCompleted.getD c.isCompleted }

/-- `MicroCourseProgressItemDto`. -/
structure MicroCourseProgressItem where
  courseId : CourseId
  isCompleted : Option Bool := none
  clientUpdatedAt : Time

structure MicroCourseProgressShape where
  id : Nat
  pilgrimId : UserId
  courseId : CourseId
  isCompleted : Bool
  clientUpdatedAt : Time
  deriving DecidableEq

def toMicroCourseProgressShape (progress : Nat × Progress CourseId CourseColumns) :
    MicroCourseProgressShape :=
  { id := progress.1
    pilgrimId := progress.2.pilgrimId
    courseId := progress.2.key
    isCompleted := progress.2.columns.isCompleted
    clientUpdatedAt := progress.2.clientUpdatedAt }

namespace MicroCoursesService

/-- `create` has `isCompleted ?? false`, `update` the field if the item has it. -/
def model : Model MicroCourseProgressItem CourseId CourseColumns CourseData :=
  { key := MicroCourseProgressItem.courseId
    clientUpdatedAt := MicroCourseProgressItem.clientUpdatedAt
    create := fun item => { isCompleted := item.isCompleted.getD false }
    data := fun item => { isCompleted := item.isCompleted } }

abbrev Req := Sync.Req CourseId CourseColumns CourseData

abbrev await (c : Stmt CourseId CourseColumns CourseData) : Req (Resp c) := Sync.await c

def findMyProgress (pilgrimId : UserId) : Req (List MicroCourseProgressShape) := do
  let items ← await (.progressFindMany pilgrimId)
  return items.map toMicroCourseProgressShape

def syncBatch (pilgrimId : UserId) (items : List MicroCourseProgressItem) :
    Req (List MicroCourseProgressShape) := do
  let results ← Sync.syncBatch model pilgrimId items
  return results.map toMicroCourseProgressShape

/-- The backend of `micro_course_progress`. -/
abbrev backend : Backend (sig CourseId CourseColumns CourseData) (Store CourseId CourseColumns) Time :=
  Sync.backend CourseData.apply

end MicroCoursesService

end OumraHajj.Sync
