import OumraHajj.Async.Sequential
import OumraHajj.Prisma.Schema

/-!
# Progress tables: rows and statements

The tables `rite_progress` and `micro_course_progress` have the same form: a row for each pilgrim and
key (`@@unique([pilgrimId, riteKey])`, `@@unique([pilgrimId, courseId])`) with the time of the client's
last update. `K` is the type of the keys, `C` the one of the other columns and `D` the one of the
`data` of an update, which leaves a column out or sets it. No request of the two services deletes a
row, so the identifier of a row is its position.
-/

namespace OumraHajj.Sync

open Async

/-- A row. -/
structure Progress (K C : Type) where
  pilgrimId : UserId
  key : K
  columns : C
  clientUpdatedAt : Time
  deriving DecidableEq

/-- A table, with the rows that its foreign keys refer to. -/
structure Store (K C : Type) where
  references : UserId → K → Bool
  progress : Table (Progress K C) := []

inductive Stmt (K C D : Type) where
  /-- `new Date()`. -/
  | now
  | progressFindMany (pilgrimId : UserId)
  | progressFindUnique (pilgrimId : UserId) (key : K)
  | progressUpsert (pilgrimId : UserId) (key : K) (create : C) (update : D) (clientUpdatedAt : Time)

section

variable {K C D : Type}

/-- The answer of each statement; an error is a rejected call. -/
def Resp : Stmt K C D → Type
  | .now => Time
  | .progressFindMany _ => List (Nat × Progress K C)
  | .progressFindUnique _ _ => Option (Nat × Progress K C)
  | .progressUpsert _ _ _ _ _ => Except String (Nat × Progress K C)

variable (K C D) in
abbrev sig : Sig := ⟨Stmt K C D, Resp⟩

/-- A request handler. -/
abbrev Req (K C D : Type) := Prog (sig K C D) Erreur

/-- Execute one statement. -/
abbrev await (c : Stmt K C D) : Req K C D (Resp c) := @Prog.exec (sig K C D) _ c

variable [DecidableEq K]

/-- `where: { pilgrimId_riteKey }`, `where: { pilgrimId_courseId }`. -/
def Progress.isOf (pilgrimId : UserId) (key : K) (p : Progress K C) : Bool :=
  p.pilgrimId = pilgrimId ∧ p.key = key

/-- The row of a pilgrim and a key. -/
def Store.find (s : Store K C) (pilgrimId : UserId) (key : K) : Option (Nat × Progress K C) :=
  s.progress.findFirst (Progress.isOf pilgrimId key)

/-- What a statement answers at the time `now`, and the store after it. `apply` sets the columns. -/
def exec (apply : D → C → C) : (c : Stmt K C D) → (now : Time) → Store K C → Resp c × Store K C
  | .now, now, s => (now, s)
  | .progressFindMany pilgrimId, _, s => (s.progress.findMany (·.pilgrimId = pilgrimId), s)
  | .progressFindUnique pilgrimId key, _, s => (s.find pilgrimId key, s)
  | .progressUpsert pilgrimId key create update clientUpdatedAt, _, s =>
    match s.find pilgrimId key with
    | some (id, p) =>
      let p' := { p with columns := apply update p.columns, clientUpdatedAt }
      (.ok (id, p'), { s with progress := s.progress.set id p' })
    | none =>
      let p' := ⟨pilgrimId, key, create, clientUpdatedAt⟩
      if s.references pilgrimId key then
        (.ok (s.progress.length, p'), { s with progress := s.progress ++ [p'] })
      else (.error "P2003", s)

/-- The backend of a progress table. -/
def backend (apply : D → C → C) : Backend (sig K C D) (Store K C) Time := ⟨exec apply⟩

end

end OumraHajj.Sync
