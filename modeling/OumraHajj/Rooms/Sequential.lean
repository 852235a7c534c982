import OumraHajj.Async.Embed
import OumraHajj.Rooms.Occupancy
import OumraHajj.Spec.Packages

/-!
# Bookings and rooms, one request after the other

The requests that create and cancel bookings and those of the agency on its blocks, each to its end
before the next one starts. `Effect s q s'`: what the request `q` may do to the store `s`, with what
its checks have established; `request_effect` proves it of the handlers.
-/

namespace OumraHajj.Rooms

open Async

inductive BedRequest where
  | createBooking (pilgrimId : UserId) (packageId : PackageId)
  | cancelBooking (pilgrimId : UserId) (bookingId : BookingId)
  | createBlock (ownerId : UserId) (dto : CreateRoomBlockDto)
  | updateBlock (ownerId : UserId) (id : RoomBlockId) (dto : RoomBlockUpdate)
  | assign (ownerId : UserId) (blockId : RoomBlockId) (dto : AssignRoomDto)
  | unassign (ownerId : UserId) (blockId : RoomBlockId) (bookingId : BookingId)

/-- The handler of a request, in one session after the other. -/
def BedRequest.handler : BedRequest → Prog (sig.tx Unit) Erreur Unit
  | .createBooking pilgrimId packageId =>
    (Prog.left (BookingsService.create pilgrimId packageId)).auto.void
  | .cancelBooking pilgrimId bookingId =>
    (Prog.left (BookingsService.cancel pilgrimId bookingId)).auto.void
  | .createBlock ownerId dto => (RoomsService.createBlock ownerId dto).auto.void
  | .updateBlock ownerId id dto => (RoomsService.updateBlock ownerId id dto).auto.void
  | .assign ownerId blockId dto => (RoomsService.assign () ownerId blockId dto).void
  | .unassign ownerId blockId bookingId =>
    (RoomsService.unassign ownerId blockId bookingId).auto.void

/-- The backend in which the requests follow each other. -/
abbrev sessions : Backend (sig.tx Unit) (TxState sig Unit Store Env Key) Env := backend.tx locks

/-- What a request does to the store (module doc). -/
inductive Effect (s : Store) : BedRequest → Store → Prop
  | rien (q : BedRequest) : Effect s q s
  | forfait {pilgrimId : UserId} {packageId : PackageId} (p : Package) :
    Effect s (.createBooking pilgrimId packageId) { s with app := s.app.putPackage packageId p }
  | reserve {pilgrimId : UserId} {packageId : PackageId} (p : Package) (b : Booking)
    (hst : b.status = .pendingPayment) :
    Effect s (.createBooking pilgrimId packageId)
      { s with app := { s.app.putPackage packageId p with bookings := s.app.bookings ++ [b] } }
  | annule {pilgrimId : UserId} {id : BookingId} {b : Booking} {p : Package}
    (h : s.app.cancelled pilgrimId id = some (b, p)) :
    Effect s (.cancelBooking pilgrimId id)
      { s with
        app := (s.app.putPackage b.packageId p.released).putBooking id
          { b with status := .cancelled } }
  | bloc {ownerId : UserId} {dto : CreateRoomBlockDto} (data : RoomBlock) :
    Effect s (.createBlock ownerId dto) { s with roomBlocks := s.roomBlocks ++ [some data] }
  | modifie {ownerId : UserId} {id : RoomBlockId} {dto : RoomBlockUpdate} (bloc : RoomBlock)
    (complet : BlocComplet) (hb : s.block id = some bloc) (hc : s.complet id bloc = some complet)
    (hocc : dto.roomCount.any (· < RoomsService.derniereOccupee complet) = false) :
    Effect s (.updateBlock ownerId id dto)
      { s with roomBlocks := s.roomBlocks.set id (some (dto.apply bloc)) }
  | place {ownerId : UserId} {blockId : RoomBlockId} {dto : AssignRoomDto} (bloc : RoomBlock)
    (booking : Booking) (n : Nat) (now : Time) (hb : s.block blockId = some bloc)
    (hk : s.app.bookings[dto.bookingId]? = some booking)
    (hforfait : booking.agencyId = bloc.agencyId ∧ booking.packageId = bloc.packageId)
    (hactive : booking.status ≠ .cancelled) (hn : 1 ≤ n ∧ n ≤ bloc.roomCount)
    (hfree : autres s blockId dto.bookingId n < capacite bloc.roomType) :
    Effect s (.assign ownerId blockId dto)
      { s with roomAssignments := Store.upsert s.roomAssignments blockId dto.bookingId n now }
  | libere {ownerId : UserId} {blockId : RoomBlockId} {bookingId : BookingId} :
    Effect s (.unassign ownerId blockId bookingId)
      { s with
        roomAssignments := s.roomAssignments.filter fun a => !Store.surPlace blockId bookingId a }

section Runs

variable {s s' : Store} {α : Type} {r : Except Erreur α}

/-- The rest of the database. -/
def appPortion : Portion Store Db where
  get s := s.app
  set s app := { s with app }
  get_set _ _ := rfl
  set_get _ := rfl
  set_set _ _ _ := rfl

theorem actsOn_app : prisma.ActsOn appPortion backend id := fun _ _ _ => rfl

/-- A handler of the other services. -/
theorem runs_left {p : OumraHajj.Req α} (h : backend.Runs (Prog.left p) s r s') :
    ∃ app, prisma.Runs p s.app r app ∧ s' = { s with app } :=
  ⟨s'.app, runs_portion actsOn_app h⟩

theorem Reads.exec {c : sig.Stmt} (hc : Reads c) (e : Env) (s : Store) :
    (backend.exec c e s).2 = s := by
  rcases c with c | c
  · cases c with
    | agencyFindUnique ownerId => rfl
    | bookingFindUnique id => rfl
    | packageFindUnique id => rfl
    | _ => exact hc.elim
  · cases c with
    | roomBlockFindUnique id => rfl
    | bookingFindManyActive agencyId packageId => rfl
    | _ => exact hc.elim

theorem reads_runs {p : Req α} (hp : p.Uses Reads) (h : backend.Runs p s r s') : s' = s :=
  h.frame (R := fun s s' => s' = s) (fun _ => rfl) (fun _ _ _ h h' => h'.trans h)
    (fun _ hc e s => hc.exec e s) hp

theorem findOwnedOrFail_runs {ownerId : UserId} {id : RoomBlockId} {r : Except Erreur BlocComplet}
    (h : backend.Runs (RoomsService.findOwnedOrFail ownerId id) s r s') :
    s' = s ∧ ∀ complet, r = .ok complet →
      ∃ bloc, s.block id = some bloc ∧ s.complet id bloc = some complet := by
  refine ⟨reads_runs (findOwnedOrFail_reads ownerId id) h, ?_⟩
  rintro complet rfl
  rcases Backend.runs_bind.mp h with ⟨agencyId, s₁, ha, hrest⟩ | ⟨x, -, hx⟩
  swap
  · cases hx
  obtain rfl := reads_runs (agencyIdOf_reads ownerId) ha
  obtain ⟨e, hrest⟩ := hrest
  rcases hr : (s₁.block id).bind (s₁.complet id) with - | found
  · have hans : (backend.exec (.inr (.roomBlockFindUnique id)) e s₁).1 = none := hr
    rw [hans] at hrest
    cases hrest.1
  have hans : (backend.exec (.inr (.roomBlockFindUnique id)) e s₁).1 = some found := hr
  rw [hans] at hrest
  change backend.Runs (ite _ _ _) _ _ _ at hrest
  split at hrest
  · cases hrest.1
  · cases hrest.1
    exact Option.bind_eq_some_iff.mp hr

theorem getBlock_runs {ownerId : UserId} {id : RoomBlockId} {r : Except Erreur RoomBlockShape}
    (h : backend.Runs (RoomsService.getBlock ownerId id) s r s') :
    s' = s ∧ ∀ shape, r = .ok shape → ∃ bloc complet reservations, s.block id = some bloc ∧
      s.complet id bloc = some complet ∧ shape = toRoomBlockShape complet reservations := by
  refine ⟨reads_runs (getBlock_reads ownerId id) h, ?_⟩
  rintro shape rfl
  rcases Backend.runs_bind.mp h with ⟨complet, s₁, hf, hrest⟩ | ⟨x, -, hx⟩
  · obtain ⟨rfl, hfound⟩ := findOwnedOrFail_runs hf
    obtain ⟨bloc, hb, hc⟩ := hfound complet rfl
    obtain ⟨e, hrest⟩ := hrest
    cases hrest.1
    exact ⟨bloc, complet, _, hb, hc, rfl⟩
  · cases hx

theorem verifier_runs {bloc : BlocComplet} {bookingId : BookingId} {r : Except Erreur Unit}
    (h : backend.Runs (RoomsService.verifier bloc bookingId) s r s') :
    s' = s ∧ ∀ u, r = .ok u → ∃ booking, s.app.bookings[bookingId]? = some booking ∧
      booking.agencyId = bloc.bloc.agencyId ∧ booking.packageId = bloc.bloc.packageId ∧
      booking.status ≠ .cancelled := by
  refine ⟨reads_runs (verifier_reads bloc bookingId) h, ?_⟩
  rintro u rfl
  obtain ⟨e, h⟩ := h
  rcases hk : s.app.bookings[bookingId]? with - | booking
  · have hans : (backend.exec (.inl (.bookingFindUnique bookingId)) e s).1 = none := hk
    rw [hans] at h
    cases h.1
  have hans : (backend.exec (.inl (.bookingFindUnique bookingId)) e s).1 = some booking := hk
  rw [hans] at h
  change backend.Runs (ite _ _ (ite _ _ _)) _ _ _ at h
  split at h
  · cases h.1
  rename_i hforfait
  split at h
  · cases h.1
  rename_i hactive
  rw [not_or, not_not, not_not] at hforfait
  exact ⟨booking, rfl, hforfait.1, hforfait.2, hactive⟩

theorem complet_bloc {id : RoomBlockId} {bloc : RoomBlock} {complet : BlocComplet}
    (h : s.complet id bloc = some complet) : complet.bloc = bloc := by
  obtain ⟨_, _, rfl⟩ := Option.map_eq_some_iff.mp h
  rfl

theorem mem_assignments {id : RoomBlockId} {bloc : RoomBlock} {complet : BlocComplet}
    (h : s.complet id bloc = some complet) {x : RoomAssignment × String} (hx : x ∈ complet.assignments) :
    x.1 ∈ s.ofBlock id ∧ s.pilgrimOf x.1.bookingId = some x.2 := by
  obtain ⟨package, -, rfl⟩ := Option.map_eq_some_iff.mp h
  rw [List.mem_insertionSort] at hx
  obtain ⟨a, ha, hname⟩ := List.mem_filterMap.mp hx
  obtain ⟨name, hn, rfl⟩ := Option.map_eq_some_iff.mp hname
  exact ⟨ha, hn⟩

theorem upsert_exec (b : RoomBlockId) (k : BookingId) (n : Nat) (e : Env) (s : Store) :
    backend.exec (.inr (.roomAssignmentUpsert b k n)) e s = (.error "P2003", s) ∨
      backend.exec (.inr (.roomAssignmentUpsert b k n)) e s =
        (.ok (), { s with roomAssignments := Store.upsert s.roomAssignments b k n e.now }) := by
  simp only [backend, exec]
  split
  · exact .inr rfl
  · exact .inl rfl

/-- A place is given in a room of the block that is not full, or nothing is written. -/
theorem placer_runs {bloc : BlocComplet} {blockId : RoomBlockId} {dto : AssignRoomDto}
    {r : Except Erreur Unit} (h : backend.Runs (RoomsService.placer bloc blockId dto) s r s') :
    (∃ x, r = .error x) ∨ ∃ n now, (1 ≤ n ∧ n ≤ bloc.bloc.roomCount) ∧
      autres s blockId dto.bookingId n < capacite bloc.bloc.roomType ∧
      s' = { s with roomAssignments := Store.upsert s.roomAssignments blockId dto.bookingId n now } := by
  obtain ⟨e₁, e₂, h⟩ := h
  have hfind : ∀ e s, backend.exec (.inr (.roomAssignmentFindMany blockId dto.bookingId)) e s =
      (((s.ofBlock blockId).filter (·.bookingId ≠ dto.bookingId)).map (·.roomNumber), s) :=
    fun _ _ => rfl
  have hlock : ∀ e s, backend.exec (.inr (.roomBlockLock blockId)) e s = ((), s) := fun _ _ => rfl
  simp only [hlock, hfind, Prog.bind] at h
  split at h
  · exact .inl ⟨_, h.1⟩
  rename_i n hn
  split at h
  · exact .inl ⟨_, h.1⟩
  rename_i hmax
  split at h
  · exact .inl ⟨_, h.1⟩
  rename_i hfull
  have hfree : autres s blockId dto.bookingId n < capacite bloc.bloc.roomType :=
    lt_of_eq_of_lt (count_places s blockId dto.bookingId n).symm (not_le.mp hfull)
  obtain ⟨e₃, h⟩ := h
  rcases upsert_exec blockId dto.bookingId n e₃ s with hx | hx
  · rw [hx] at h
    exact .inl ⟨_, h.1⟩
  · rw [hx] at h
    exact .inr ⟨n, e₃.now, ⟨chambre_pos hn, not_lt.mp hmax⟩, hfree, h.2⟩

theorem assign_effect {x y : TxState sig Unit Store Env Key} {ownerId : UserId}
    {blockId : RoomBlockId} {dto : AssignRoomDto} {r : Except Erreur RoomBlockShape}
    (h : sessions.Runs (RoomsService.assign () ownerId blockId dto) x r y) :
    Effect x.db (.assign ownerId blockId dto) y.db := by
  rcases Backend.runs_bind.mp h with ⟨complet, x₁, hf, h₁⟩ | ⟨e, hf, -⟩
  swap
  · rw [(findOwnedOrFail_runs (runs_auto hf)).1]
    exact .rien _
  obtain ⟨hx₁, hfound⟩ := findOwnedOrFail_runs (runs_auto hf)
  obtain ⟨bloc, hb, hc⟩ := hfound complet rfl
  obtain rfl := complet_bloc hc
  rcases Backend.runs_bind.mp h₁ with ⟨u, x₂, hv, h₂⟩ | ⟨e, hv, -⟩
  swap
  · rw [(verifier_runs (runs_auto hv)).1, hx₁]
    exact .rien _
  obtain ⟨hx₂, hverified⟩ := verifier_runs (runs_auto hv)
  obtain ⟨booking, hk, hagency, hpackage, hactive⟩ := hverified u rfl
  rw [hx₁] at hx₂ hk
  rcases Backend.runs_bind.mp h₂ with ⟨v, x₃, hp, hg⟩ | ⟨e, hp, -⟩
  · rw [(getBlock_runs (runs_auto hg)).1]
    obtain ⟨s, hs, ⟨a, -, hx₃⟩ | ⟨e, he, -⟩⟩ := runs_transaction hp
    · rw [hx₂] at hs
      rcases placer_runs hs with ⟨e, he⟩ | ⟨n, now, hn, hfree, rfl⟩
      · cases he
      · rw [hx₃]
        exact .place complet.bloc booking n now hb hk ⟨hagency, hpackage⟩ hactive hn hfree
    · cases he
  · obtain ⟨s, hs, ⟨a, ha, -⟩ | ⟨e, -, hx₃⟩⟩ := runs_transaction hp
    · cases ha
    · rw [hx₃, hx₂]
      exact .rien _

/-- The insertion of a block, before what only reads. -/
theorem roomBlockCreate_runs {data : RoomBlock} {k : Except String RoomBlockId → Req α}
    (h : backend.Runs (.call (.inr (.roomBlockCreate data)) k) s r s')
    (hk : ∀ created, (k created).Uses Reads) :
    s' = s ∨ s' = { s with roomBlocks := s.roomBlocks ++ [some data] } := by
  obtain ⟨e, h⟩ := h
  rw [reads_runs (hk _) h]
  simp only [backend, exec]
  split
  · exact .inr rfl
  · exact .inl rfl

/-- A block is created for a package of its agency. -/
theorem createBlock_row {ownerId : UserId} {dto : CreateRoomBlockDto}
    {r : Except Erreur RoomBlockShape}
    (h : backend.Runs (RoomsService.createBlock ownerId dto) s r s') :
    s' = s ∨ ∃ data p, s.app.packages[data.packageId]? = some p ∧ p.agencyId = data.agencyId ∧
      s' = { s with roomBlocks := s.roomBlocks ++ [some data] } := by
  rcases Backend.runs_bind.mp h with ⟨agencyId, s₁, ha, hrest⟩ | ⟨x, ha, -⟩
  swap
  · exact .inl (reads_runs (agencyIdOf_reads ownerId) ha)
  obtain rfl := reads_runs (agencyIdOf_reads ownerId) ha
  obtain ⟨e, hrest⟩ := hrest
  rcases hp : s₁.app.packages[dto.packageId]? with - | forfait
  · have hans : (backend.exec (.inl (.packageFindUnique dto.packageId)) e s₁).1 = none := hp
    rw [hans] at hrest
    exact .inl hrest.2
  have hans : (backend.exec (.inl (.packageFindUnique dto.packageId)) e s₁).1 = some forfait := hp
  rw [hans] at hrest
  change backend.Runs (ite _ _ (ite _ _ _)) _ _ _ at hrest
  split at hrest
  · exact .inl hrest.2
  rename_i hagency
  split at hrest
  · exact .inl hrest.2
  split at hrest
  · refine (roomBlockCreate_runs hrest fun created => ?_).imp_right fun hs =>
      ⟨_, forfait, hp, not_not.mp hagency, hs⟩
    cases created with
    | error code => trivial
    | ok id => exact getBlock_reads ownerId id
  · exact .inl hrest.2

theorem createBlock_runs {ownerId : UserId} {dto : CreateRoomBlockDto}
    {r : Except Erreur RoomBlockShape}
    (h : backend.Runs (RoomsService.createBlock ownerId dto) s r s') :
    s' = s ∨ ∃ data, s' = { s with roomBlocks := s.roomBlocks ++ [some data] } :=
  (createBlock_row h).imp_right fun ⟨data, _, _, _, hs⟩ => ⟨data, hs⟩

theorem updateBlock_runs {ownerId : UserId} {id : RoomBlockId} {dto : RoomBlockUpdate}
    {r : Except Erreur RoomBlockShape}
    (h : backend.Runs (RoomsService.updateBlock ownerId id dto) s r s') :
    s' = s ∨ ∃ bloc complet, s.block id = some bloc ∧ s.complet id bloc = some complet ∧
      dto.roomCount.any (· < RoomsService.derniereOccupee complet) = false ∧
      s' = { s with roomBlocks := s.roomBlocks.set id (some (dto.apply bloc)) } := by
  rcases Backend.runs_bind.mp h with ⟨complet, s₁, hf, hrest⟩ | ⟨x, hf, -⟩
  swap
  · exact .inl (findOwnedOrFail_runs hf).1
  obtain ⟨rfl, hfound⟩ := findOwnedOrFail_runs hf
  obtain ⟨bloc, hb, hc⟩ := hfound complet rfl
  split at hrest
  · exact .inl hrest.2
  rename_i hocc
  obtain ⟨e, hrest⟩ := hrest
  have hx : backend.exec (.inr (.roomBlockUpdate id dto)) e s₁ =
      (some (), { s₁ with roomBlocks := s₁.roomBlocks.set id (some (dto.apply bloc)) }) := by
    simp only [backend, exec, hb]
    rfl
  rw [hx] at hrest
  refine .inr ⟨bloc, complet, hb, hc, Bool.eq_false_of_not_eq_true hocc, ?_⟩
  exact reads_runs (getBlock_reads ownerId id) hrest

theorem unassign_runs {ownerId : UserId} {blockId : RoomBlockId} {bookingId : BookingId}
    {r : Except Erreur RoomBlockShape}
    (h : backend.Runs (RoomsService.unassign ownerId blockId bookingId) s r s') :
    s' = s ∨ s' = { s with
      roomAssignments := s.roomAssignments.filter fun a => !Store.surPlace blockId bookingId a } := by
  rcases Backend.runs_bind.mp h with ⟨complet, s₁, hf, hrest⟩ | ⟨x, hf, -⟩
  swap
  · exact .inl (findOwnedOrFail_runs hf).1
  obtain ⟨rfl, -⟩ := findOwnedOrFail_runs hf
  obtain ⟨e, hrest⟩ := hrest
  refine .inr ?_
  have hcount : backend.Runs
      (if s₁.roomAssignments.countP (Store.surPlace blockId bookingId) = 0 then .fail _
        else RoomsService.getBlock ownerId blockId)
      { s₁ with
        roomAssignments := s₁.roomAssignments.filter fun a => !Store.surPlace blockId bookingId a }
      r s' := hrest
  split at hcount
  · exact hcount.2
  · exact reads_runs (getBlock_reads ownerId blockId) hcount

end Runs

/-- **What a request does.** -/
theorem request_effect {x y : TxState sig Unit Store Env Key} {q : BedRequest}
    {r : Except Erreur Unit} (h : sessions.Runs q.handler x r y) : Effect x.db q y.db := by
  cases q with
  | createBooking pilgrimId packageId =>
    obtain ⟨r', h⟩ := Backend.runs_void h
    obtain ⟨app, ha, hy⟩ := runs_left (runs_auto h)
    rw [hy]
    rcases create_runs ha with rfl | ⟨p, -, rfl⟩ | ⟨p, b, -, -, -, -, hst, -, rfl⟩
    · exact .rien _
    · exact .forfait _
    · exact .reserve _ b hst
  | cancelBooking pilgrimId bookingId =>
    obtain ⟨r', h⟩ := Backend.runs_void h
    obtain ⟨app, ha, hy⟩ := runs_left (runs_auto h)
    rw [hy]
    rcases cancel_runs ha with ⟨-, rfl⟩ | ⟨b, p, hc, rfl⟩
    · exact .rien _
    · exact .annule hc
  | createBlock ownerId dto =>
    obtain ⟨r', h⟩ := Backend.runs_void h
    rcases createBlock_runs (runs_auto h) with hy | ⟨data, hy⟩
    · rw [hy]
      exact .rien _
    · rw [hy]
      exact .bloc data
  | updateBlock ownerId id dto =>
    obtain ⟨r', h⟩ := Backend.runs_void h
    rcases updateBlock_runs (runs_auto h) with hy | ⟨bloc, complet, hb, hc, hocc, hy⟩
    · rw [hy]
      exact .rien _
    · rw [hy]
      exact .modifie bloc complet hb hc hocc
  | assign ownerId blockId dto =>
    obtain ⟨r', h⟩ := Backend.runs_void h
    exact assign_effect h
  | unassign ownerId blockId bookingId =>
    obtain ⟨r', h⟩ := Backend.runs_void h
    rcases unassign_runs (runs_auto h) with hy | hy
    · rw [hy]
      exact .rien _
    · rw [hy]
      exact .libere

end OumraHajj.Rooms
