import OumraHajj.Services.Accounts

/-!
# Room blocks: rows and statements

The rows of `room_blocks` and `room_assignments`, beside the rest of the database, and the
statements of `RoomsService`. A deleted block leaves `none` in the table, and its assignments go
with it (`onDelete: Cascade`). `locks` is what each statement locks: the row of a block, or the entry
of `@@unique([roomBlockId, bookingId])`.
-/

namespace OumraHajj.Rooms

open Async

abbrev RoomBlockId := Nat

inductive RoomType where
  | double
  | triple
  | quadruple
  | quintuple
  deriving DecidableEq, Repr

/-- `ROOM_CAPACITY`. -/
def capacite : RoomType → Nat
  | .double => 2
  | .triple => 3
  | .quadruple => 4
  | .quintuple => 5

structure RoomBlock where
  agencyId : AgencyId
  packageId : PackageId
  stageId : Option Nat := none
  hotelName : String
  city : String
  roomType : RoomType
  roomCount : Nat
  releaseDate : Option Time := none
  notes : Option String := none

structure RoomAssignment where
  roomBlockId : RoomBlockId
  bookingId : BookingId
  roomNumber : Nat
  createdAt : Time

/-- The database with its room blocks. -/
structure Store where
  app : Db := {}
  roomBlocks : Table (Option RoomBlock) := []
  roomAssignments : List RoomAssignment := []

namespace Store

/-- The block of an identifier. -/
def block (s : Store) (id : RoomBlockId) : Option RoomBlock := s.roomBlocks.row id

/-- The assignments of a block. -/
def ofBlock (s : Store) (id : RoomBlockId) : List RoomAssignment :=
  s.roomAssignments.filter (·.roomBlockId = id)

end Store

/-- `BlocComplet`: a block with what `AVEC_OCCUPANTS` includes. -/
structure BlocComplet where
  id : RoomBlockId
  bloc : RoomBlock
  packageTitle : String
  /-- The assignments with the name of the pilgrim. -/
  assignments : List (RoomAssignment × String)

/-- `data` of `roomBlock.update`; `none`: the column is left as it is. -/
structure RoomBlockUpdate where
  hotelName : Option String := none
  city : Option String := none
  roomCount : Option Nat := none
  releaseDate : Option Time := none
  notes : Option String := none

def RoomBlockUpdate.apply (data : RoomBlockUpdate) (b : RoomBlock) : RoomBlock :=
  { b with
    hotelName := data.hotelName.getD b.hotelName
    city := data.city.getD b.city
    roomCount := data.roomCount.getD b.roomCount
    releaseDate := data.releaseDate.or b.releaseDate
    notes := data.notes.or b.notes }

structure RoomOccupantShape where
  bookingId : BookingId
  pilgrimName : String

inductive Stmt where
  | roomBlockCreate (data : RoomBlock)
  | roomBlockFindUnique (id : RoomBlockId)
  | roomBlockUpdate (id : RoomBlockId) (data : RoomBlockUpdate)
  | roomBlockDelete (id : RoomBlockId)
  /-- `SELECT id FROM room_blocks WHERE id = … FOR UPDATE`. -/
  | roomBlockLock (id : RoomBlockId)
  /-- The room numbers of `where: { roomBlockId, NOT: { bookingId } }`. -/
  | roomAssignmentFindMany (roomBlockId : RoomBlockId) (bookingId : BookingId)
  | roomAssignmentUpsert (roomBlockId : RoomBlockId) (bookingId : BookingId) (roomNumber : Nat)
  | roomAssignmentDeleteMany (roomBlockId : RoomBlockId) (bookingId : BookingId)
  /-- `where: { agencyId, packageId, status: { not: CANCELLED } }`. -/
  | bookingFindManyActive (agencyId : AgencyId) (packageId : PackageId)

/-- The answer of each statement; `none` or an error is a rejected call. -/
def Resp : Stmt → Type
  | .roomBlockCreate _ => Except String RoomBlockId
  | .roomBlockFindUnique _ => Option BlocComplet
  | .roomBlockUpdate _ _ => Option Unit
  | .roomBlockDelete _ => Option Unit
  | .roomBlockLock _ => Unit
  | .roomAssignmentFindMany _ _ => List Nat
  | .roomAssignmentUpsert _ _ _ => Except String Unit
  | .roomAssignmentDeleteMany _ _ => Nat
  | .bookingFindManyActive _ _ => List RoomOccupantShape

/-- The statements of the rooms and of the other services. -/
abbrev sig : Sig := prismaSig.sum ⟨Stmt, Resp⟩

namespace Store

/-- The full name of the pilgrim of a booking. -/
def pilgrimOf (s : Store) (id : BookingId) : Option String :=
  (s.app.bookings[id]?).bind fun b => (s.app.users[b.pilgrimId]?).map (·.fullName)

/-- `include: AVEC_OCCUPANTS`. -/
def complet (s : Store) (id : RoomBlockId) (bloc : RoomBlock) : Option BlocComplet :=
  (s.app.packages[bloc.packageId]?).map fun package =>
    { id, bloc
      packageTitle := package.title
      assignments := ((s.ofBlock id).filterMap fun a =>
        (s.pilgrimOf a.bookingId).map fun name => (a, name)).insertionSort
          fun x y => x.1.createdAt ≤ y.1.createdAt }

/-- The place of a booking in a block. -/
def surPlace (b : RoomBlockId) (k : BookingId) (a : RoomAssignment) : Bool :=
  a.roomBlockId = b ∧ a.bookingId = k

/-- `upsert` on the unique index: the booking moves, or gets a place. -/
def upsert (rows : List RoomAssignment) (b : RoomBlockId) (k : BookingId) (n : Nat) (now : Time) :
    List RoomAssignment :=
  if rows.any (surPlace b k) then
    rows.map fun a => if surPlace b k a then { a with roomNumber := n } else a
  else rows ++ [⟨b, k, n, now⟩]

end Store

/-- What a statement answers, and the store after it. -/
def exec : (c : Stmt) → Env → Store → Resp c × Store
  | .roomBlockCreate data, _, s =>
    match s.app.agencies[data.agencyId]?, s.app.packages[data.packageId]? with
    | some _, some _ => (.ok s.roomBlocks.length, { s with roomBlocks := s.roomBlocks ++ [some data] })
    | _, _ => (.error "P2003", s)
  | .roomBlockFindUnique id, _, s => ((s.block id).bind (s.complet id), s)
  | .roomBlockUpdate id data, _, s =>
    match s.block id with
    | some b => (some (), { s with roomBlocks := s.roomBlocks.set id (some (data.apply b)) })
    | none => (none, s)
  | .roomBlockDelete id, _, s =>
    match s.block id with
    | some _ =>
      (some (), { s with
        roomBlocks := s.roomBlocks.set id none
        roomAssignments := s.roomAssignments.filter (·.roomBlockId ≠ id) })
    | none => (none, s)
  | .roomBlockLock _, _, s => ((), s)
  | .roomAssignmentFindMany b k, _, s =>
    (((s.ofBlock b).filter (·.bookingId ≠ k)).map (·.roomNumber), s)
  | .roomAssignmentUpsert b k n, e, s =>
    match s.block b, s.app.bookings[k]? with
    | some _, some _ =>
      (.ok (), { s with roomAssignments := Store.upsert s.roomAssignments b k n e.now })
    | _, _ => (.error "P2003", s)
  | .roomAssignmentDeleteMany b k, _, s =>
    (s.roomAssignments.countP (Store.surPlace b k),
      { s with roomAssignments := s.roomAssignments.filter fun a => !Store.surPlace b k a })
  | .bookingFindManyActive agencyId packageId, _, s =>
    (((s.app.bookings.findMany fun b =>
      b.agencyId = agencyId ∧ b.packageId = packageId ∧ b.status ≠ .cancelled).insertionSort
        fun x y => x.2.createdAt ≤ y.2.createdAt).filterMap fun (id, b) =>
          (s.app.users[b.pilgrimId]?).map fun u => ⟨id, u.fullName⟩, s)

/-- The backend of the rooms. -/
def backend : Backend sig Store Env where
  exec
    | .inl c, e, s => ((prisma.exec c e s.app).1, { s with app := (prisma.exec c e s.app).2 })
    | .inr c, e, s => exec c e s

/-- What a lock is taken on. -/
inductive Key where
  | block (id : RoomBlockId)
  | place (roomBlockId : RoomBlockId) (bookingId : BookingId)
  deriving DecidableEq

/-- The locks of a statement: the rows that it writes or reads `FOR UPDATE`. -/
def locks : sig.Stmt → Store → List Key
  | .inr (.roomBlockUpdate id _), s => if (s.block id).isSome then [.block id] else []
  | .inr (.roomBlockDelete id), s =>
    if (s.block id).isSome then
      .block id :: (s.ofBlock id).map fun a => .place a.roomBlockId a.bookingId
    else []
  | .inr (.roomBlockLock id), s => if (s.block id).isSome then [.block id] else []
  | .inr (.roomAssignmentUpsert b k _), _ => [.place b k]
  | .inr (.roomAssignmentDeleteMany b k), s =>
    if s.roomAssignments.any (Store.surPlace b k) then [.place b k] else []
  | _, _ => []

/-- A request handler, outside of its transaction or within it. -/
abbrev Req := Prog sig Erreur

/-- Execute one statement. -/
abbrev await (c : Stmt) : Req (Resp c) := @Prog.exec sig _ (.inr c)

end OumraHajj.Rooms
