import OumraHajj.Groups.Handlers
import OumraHajj.OnCall.Service
import OumraHajj.Rooms.Service

/-!
# The agencies of the rows

The packages, the bookings, the groups, the blocks of rooms and the on-call shifts in one database, and
the requests on them of any agencies and pilgrims. Each of these rows has its agency, and each is for a
package. A place in a block has no agency, and the requests on places are left out.
-/

namespace OumraHajj.Tenancy

open Async

/-- The database with its groups, its blocks of rooms and its shifts. -/
structure Store where
  groups : Groups.Store := {}
  roomBlocks : Table (Option Rooms.RoomBlock) := []
  roomAssignments : List Rooms.RoomAssignment := []
  onCallShifts : Table (Option OnCall.OnCallShift) := []

namespace Store

variable (s : Store)

/-- What the statements of the rooms act on. -/
def rooms : Rooms.Store := ⟨s.groups.app, s.roomBlocks, s.roomAssignments⟩

/-- What the statements of the shifts act on. -/
def onCall : OnCall.Store := ⟨s.groups.app, s.onCallShifts⟩

/-- The store after a statement of the rooms. -/
def putRooms (r : Rooms.Store) : Store :=
  { s with
    groups := { s.groups with app := r.app }
    roomBlocks := r.roomBlocks
    roomAssignments := r.roomAssignments }

/-- The store after a statement of the shifts. -/
def putOnCall (o : OnCall.Store) : Store :=
  { s with groups := { s.groups with app := o.app }, onCallShifts := o.onCallShifts }

end Store

/-- The statements on the groups and what is below them, on the rooms, and on the shifts. -/
abbrev sig : Sig := (Groups.sig.sum ⟨Rooms.Stmt, Rooms.Resp⟩).sum ⟨OnCall.Stmt, OnCall.Resp⟩

def backend : Backend sig Store Env where
  exec
    | .inl (.inl c), e, s =>
      ((Groups.backend.exec c e s.groups).1, { s with groups := (Groups.backend.exec c e s.groups).2 })
    | .inl (.inr c), e, s => ((Rooms.exec c e s.rooms).1, s.putRooms (Rooms.exec c e s.rooms).2)
    | .inr c, _, s => ((OnCall.exec c s.onCall).1, s.putOnCall (OnCall.exec c s.onCall).2)

/-- The statements of the rooms among these. -/
def roomsHom : Rooms.sig.Hom sig where
  stmt
    | .inl c => .inl (.inl (.inl (.inl c)))
    | .inr c => .inl (.inr c)
  resp
    | .inl _, r => r
    | .inr _, r => r

/-- The statements of the shifts among these. -/
def onCallHom : OnCall.sig.Hom sig where
  stmt
    | .inl c => .inl (.inl (.inl (.inl c)))
    | .inr c => .inr c
  resp
    | .inl _, r => r
    | .inr _, r => r

/-- A request handler. -/
abbrev Req := Prog sig Erreur

/-- A handler of the services of the groups and of what is below them. -/
abbrev ofGroups {α : Type} (p : Groups.Req α) : Req α :=
  Prog.left (Prog.left p : Prog (Groups.sig.sum ⟨Rooms.Stmt, Rooms.Resp⟩) Erreur α)

inductive Request where
  | groups (q : Groups.Request)
  | createBlock (ownerId : UserId) (dto : Rooms.CreateRoomBlockDto)
  | updateBlock (ownerId : UserId) (id : Rooms.RoomBlockId) (dto : Rooms.RoomBlockUpdate)
  | deleteBlock (ownerId : UserId) (id : Rooms.RoomBlockId)
  | shift (q : OnCall.ShiftRequest)

/-- The handler of a request, without the value that it returns. -/
def handler : Request → Req Unit
  | .groups q => ofGroups (Groups.handler q)
  | .createBlock ownerId dto => (Rooms.RoomsService.createBlock ownerId dto).void.via roomsHom
  | .updateBlock ownerId id dto => (Rooms.RoomsService.updateBlock ownerId id dto).void.via roomsHom
  | .deleteBlock ownerId id => (Rooms.RoomsService.deleteBlock ownerId id).via roomsHom
  | .shift q => (OnCall.handler q).via onCallHom

/-- The requests run at once, from the store `s`. -/
def poolOf {ι : Type} (requests : ι → Request) (s : Store) : Pool sig ι Store Erreur Unit :=
  ⟨fun t => handler (requests t), s⟩

end OumraHajj.Tenancy
