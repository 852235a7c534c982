import OumraHajj.Async.Transaction
import OumraHajj.Common.Csv
import OumraHajj.Rooms.Store
import OumraHajj.Services.Requests

/-!
# The service of the rooms

`RoomsService` (`src/modules/rooms/rooms.service.ts`): the agency places its pilgrims in the rooms
of a block, and may change or delete the block. A place is given in a transaction, under the lock of
the block. A stage of a package is identified by its package and its place in it.
-/

namespace OumraHajj.Rooms

open Async

structure RoomShape where
  number : Nat
  occupants : List RoomOccupantShape

structure RoomBlockShape where
  id : RoomBlockId
  packageId : PackageId
  packageTitle : String
  stageId : Option Nat
  hotelName : String
  city : String
  roomType : RoomType
  roomCount : Nat
  bedsPerRoom : Nat
  totalBeds : Nat
  assignedBeds : Nat
  releaseDate : Option Time
  notes : Option String
  rooms : List RoomShape
  unassigned : List RoomOccupantShape

def toRoomBlockShape (bloc : BlocComplet) (reservationsDuForfait : List RoomOccupantShape) :
    RoomBlockShape :=
  let occupants := bloc.assignments.map fun (a, name) =>
    (a.roomNumber, ({ bookingId := a.bookingId, pilgrimName := name } : RoomOccupantShape))
  { id := bloc.id
    packageId := bloc.bloc.packageId
    packageTitle := bloc.packageTitle
    stageId := bloc.bloc.stageId
    hotelName := bloc.bloc.hotelName
    city := bloc.bloc.city
    roomType := bloc.bloc.roomType
    roomCount := bloc.bloc.roomCount
    bedsPerRoom := capacite bloc.bloc.roomType
    totalBeds := bloc.bloc.roomCount * capacite bloc.bloc.roomType
    assignedBeds := occupants.length
    releaseDate := bloc.bloc.releaseDate
    notes := bloc.bloc.notes
    rooms := (List.range bloc.bloc.roomCount).map fun i =>
      { number := i + 1, occupants := (occupants.filter (·.1 = i + 1)).map Prod.snd }
    unassigned := reservationsDuForfait.filter fun r => !occupants.any (·.2.bookingId = r.bookingId) }

/-- `LIBELLE_TYPE`. -/
def libelleType : RoomType → String
  | .double => "Double"
  | .triple => "Triple"
  | .quadruple => "Quadruple"
  | .quintuple => "Quintuple"

/-- The line of an occupant in the rooming list. -/
def ligneOccupant (bloc : RoomBlockShape) (chambre : RoomShape) (o : RoomOccupantShape) : String :=
  Csv.ligne ";" [bloc.hotelName, bloc.city, libelleType bloc.roomType, toString chambre.number,
    o.pilgrimName]

/-- The lines of the rooming list, one for each place. -/
def lignesOccupants (bloc : RoomBlockShape) : List String :=
  bloc.rooms.flatMap fun chambre => chambre.occupants.map (ligneOccupant bloc chambre)

structure StageId where
  packageId : PackageId
  index : Nat

structure CreateRoomBlockDto where
  packageId : PackageId
  stageId : Option StageId := none
  hotelName : Option String := none
  city : Option String := none
  roomType : RoomType
  roomCount : Nat
  releaseDate : Option Time := none
  notes : Option String := none

/-- The stage of the package that a block is for. -/
def CreateRoomBlockDto.etape (dto : CreateRoomBlockDto) (forfait : Package) :
    Option (Nat × PackageStage) :=
  dto.stageId.bind fun id =>
    if id.packageId = dto.packageId then (forfait.stages[id.index]?).map fun s => (id.index, s)
    else none

/-- The booking and, if the agency chooses it, the room: at least 1 (`@Min(1)`). -/
structure AssignRoomDto where
  bookingId : BookingId
  roomNumber : Option Nat := none
  roomNumber_pos : ∀ n ∈ roomNumber, 1 ≤ n

namespace RoomsService

def agencyIdOf (ownerId : UserId) : Req AgencyId := do
  let agency ← Prog.left (AgenciesService.findByOwnerOrFail ownerId)
  return agency.id

def findOwnedOrFail (ownerId : UserId) (id : RoomBlockId) : Req BlocComplet := do
  let agencyId ← agencyIdOf ownerId
  match ← await (.roomBlockFindUnique id) with
  | none => .fail (.notFound "Bloc de chambres introuvable")
  | some bloc =>
    if bloc.bloc.agencyId ≠ agencyId then
      .fail (.forbidden "Ce bloc n'appartient pas à votre agence")
    else return bloc

def getBlock (ownerId : UserId) (id : RoomBlockId) : Req RoomBlockShape := do
  let bloc ← findOwnedOrFail ownerId id
  let reservations ← await (.bookingFindManyActive bloc.bloc.agencyId bloc.bloc.packageId)
  return toRoomBlockShape bloc reservations

def createBlock (ownerId : UserId) (dto : CreateRoomBlockDto) : Req RoomBlockShape := do
  let agencyId ← agencyIdOf ownerId
  match ← Prog.left (OumraHajj.await (.packageFindUnique dto.packageId)) with
  | none => .fail (.notFound "Forfait introuvable")
  | some forfait =>
    if forfait.agencyId ≠ agencyId then
      .fail (.forbidden "Ce forfait n'appartient pas à votre agence")
    else
      let etape := dto.etape forfait
      if dto.stageId.isSome ∧ etape.isNone then
        .fail (.badRequest "Cette étape n'appartient pas au forfait")
      else
        match (dto.hotelName.or (etape.map (·.2.hotelName))).filter (· ≠ ""),
          (dto.city.or (etape.map (·.2.city))).filter (· ≠ "") with
        | some hotelName, some city =>
          match ← await (.roomBlockCreate
            { agencyId
              packageId := dto.packageId
              stageId := etape.map Prod.fst
              hotelName, city
              roomType := dto.roomType
              roomCount := dto.roomCount
              releaseDate := dto.releaseDate
              notes := dto.notes }) with
          | .error code => .fail (.prisma code)
          | .ok id => getBlock ownerId id
        | _, _ =>
          .fail (.badRequest "Indiquez l'hôtel et la ville, ou choisissez une étape du forfait")

/-- The last room in which someone is placed. -/
def derniereOccupee (bloc : BlocComplet) : Nat :=
  (bloc.assignments.map (·.1.roomNumber)).foldl max 0

def updateBlock (ownerId : UserId) (id : RoomBlockId) (dto : RoomBlockUpdate) :
    Req RoomBlockShape := do
  let bloc ← findOwnedOrFail ownerId id
  if dto.roomCount.any (· < derniereOccupee bloc) then
    .fail (.conflict ("La chambre " ++ toString (derniereOccupee bloc) ++
      " est occupée : libérez-la avant de réduire le bloc"))
  else
    match ← await (.roomBlockUpdate id dto) with
    | none => .fail (.prisma "P2025")
    | some _ => getBlock ownerId id

def deleteBlock (ownerId : UserId) (id : RoomBlockId) : Req Unit := do
  let bloc ← findOwnedOrFail ownerId id
  if bloc.assignments.length > 0 then
    .fail (.conflict
      "Des pèlerins sont placés dans ce bloc : retirez-les avant de le supprimer")
  else
    match ← await (.roomBlockDelete id) with
    | none => .fail (.prisma "P2025")
    | some _ => return ()

/-- The room of a new place: the one asked for, or the first that is not full. -/
def chambre (bloc : BlocComplet) (dto : AssignRoomDto) (places : List Nat) : Option Nat :=
  dto.roomNumber.or (((List.range bloc.bloc.roomCount).map (· + 1)).find?
    fun n => places.count n < capacite bloc.bloc.roomType)

/-- The transaction of `assign`. -/
def placer (bloc : BlocComplet) (blockId : RoomBlockId) (dto : AssignRoomDto) : Req Unit := do
  await (.roomBlockLock blockId)
  let places ← await (.roomAssignmentFindMany blockId dto.bookingId)
  match chambre bloc dto places with
  | none => .fail (.conflict "Toutes les chambres du bloc sont complètes")
  | some n =>
    if n > bloc.bloc.roomCount then
      .fail (.badRequest ("Le bloc compte " ++ toString bloc.bloc.roomCount ++ " chambre(s)"))
    else if places.count n ≥ capacite bloc.bloc.roomType then
      .fail (.conflict ("La chambre " ++ toString n ++ " est complète"))
    else
      match ← await (.roomAssignmentUpsert blockId dto.bookingId n) with
      | .error code => .fail (.prisma code)
      | .ok _ => return ()

/-- What `assign` checks before its transaction. -/
def verifier (bloc : BlocComplet) (bookingId : BookingId) : Req Unit := do
  match ← Prog.left (OumraHajj.await (.bookingFindUnique bookingId)) with
  | none => .fail (.badRequest "Cette réservation ne fait pas partie du forfait de ce bloc")
  | some reservation =>
    if reservation.agencyId ≠ bloc.bloc.agencyId ∨ reservation.packageId ≠ bloc.bloc.packageId then
      .fail (.badRequest "Cette réservation ne fait pas partie du forfait de ce bloc")
    else if reservation.status = .cancelled then
      .fail (.conflict "Cette réservation est annulée")
    else return ()

variable {ι : Type}

/-- `assign`, in the session `t`. -/
def assign (t : ι) (ownerId : UserId) (blockId : RoomBlockId) (dto : AssignRoomDto) :
    Prog (sig.tx ι) Erreur RoomBlockShape := do
  let bloc ← (findOwnedOrFail ownerId blockId).auto
  (verifier bloc dto.bookingId).auto
  (placer bloc blockId dto).transaction t
  (getBlock ownerId blockId).auto

def unassign (ownerId : UserId) (blockId : RoomBlockId) (bookingId : BookingId) :
    Req RoomBlockShape := do
  let _ ← findOwnedOrFail ownerId blockId
  let count : Nat ← await (.roomAssignmentDeleteMany blockId bookingId)
  if count = 0 then .fail (.notFound "Cette réservation n'est pas placée ici")
  else getBlock ownerId blockId

/-- The list of the occupants for the hotel. -/
def getRoomingListCsv (ownerId : UserId) (blockId : RoomBlockId) : Req String := do
  let bloc ← getBlock ownerId blockId
  return Csv.fichier "\r\n" (Csv.ligne ";" ["Hôtel", "Ville", "Type", "Chambre", "Pèlerin"])
    (lignesOccupants bloc)

end RoomsService

/-- The requests that change places and blocks. -/
inductive RoomRequest where
  | assign (ownerId : UserId) (blockId : RoomBlockId) (dto : AssignRoomDto)
  | unassign (ownerId : UserId) (blockId : RoomBlockId) (bookingId : BookingId)
  | updateBlock (ownerId : UserId) (id : RoomBlockId) (dto : RoomBlockUpdate)
  | deleteBlock (ownerId : UserId) (id : RoomBlockId)

/-- The handler of a request in the session `t`, without the value that it returns. -/
def handler {ι : Type} (t : ι) : RoomRequest → Prog (sig.tx ι) Erreur Unit
  | .assign ownerId blockId dto => (RoomsService.assign t ownerId blockId dto).void
  | .unassign ownerId blockId bookingId => (RoomsService.unassign ownerId blockId bookingId).auto.void
  | .updateBlock ownerId id dto => (RoomsService.updateBlock ownerId id dto).auto.void
  | .deleteBlock ownerId id => (RoomsService.deleteBlock ownerId id).auto

/-- The requests run at once, each in its session, from the store `s`. -/
def poolOf {ι : Type} (requests : ι → RoomRequest) (s : Store) :
    Pool (sig.tx ι) ι (TxState sig ι Store Env Key) Erreur Unit :=
  ⟨fun t => handler t (requests t), { db := s }⟩

/-- Two bookings of a package, and a block of two double rooms. -/
def Store.exemple : Store where
  app := { Db.exemple with bookings := List.replicate 2 Booking.exemple }
  roomBlocks := [some { agencyId := 0, packageId := 0, hotelName := "Hôtel", city := "La Mecque",
                        roomType := .double, roomCount := 2 }]

/-- A place in room `n + 1`. -/
def AssignRoomDto.enChambre (bookingId : BookingId) (n : Nat) : AssignRoomDto :=
  ⟨bookingId, some (n + 1), by rintro _ ⟨⟩; omega⟩

end OumraHajj.Rooms
