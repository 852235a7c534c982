import OumraHajj.Common.Sorted
import OumraHajj.Rooms.Regular
import OumraHajj.Rooms.Views

/-!
# The room plan

In every run of the requests, the view of a block has each active booking of its package once, in a
room or in the list of those without one; it counts the beds of the rooms that it shows, and the
rooming list has a line for each place (`plan_complete`).
-/

namespace OumraHajj.Rooms

open Async

/-- The line of a place in the rooming list of the block. -/
def ligneDePlace (s : Store) (bloc : RoomBlock) (a : RoomAssignment) : String :=
  Csv.ligne ";" [bloc.hotelName, bloc.city, libelleType bloc.roomType, toString a.roomNumber,
    (s.pilgrimOf a.bookingId).getD ""]

/-- The numbers of the rooms. -/
def numeros (bloc : RoomBlock) : List Nat := (List.range bloc.roomCount).map (· + 1)

/-- What the view of a block shows of its package (module doc). -/
structure Complete (s : Store) (bloc : RoomBlock) (vue : RoomBlockShape) : Prop where
  une : ∀ (k : BookingId) (b : Booking), s.app.bookings[k]? = some b →
    b.packageId = bloc.packageId → b.status ≠ .cancelled →
      (vue.rooms.flatMap (·.occupants) ++ vue.unassigned).countP (·.bookingId = k) = 1
  chambres : vue.rooms.map (·.number) = numeros bloc
  lits : vue.assignedBeds = (vue.rooms.map (·.occupants.length)).sum

/-- The plan of every block, for the owner of its agency. -/
def Plan (s : Store) : Prop :=
  ∀ id bloc, s.block id = some bloc →
    ∀ ownerId agency, s.app.agencyOf ownerId = some (bloc.agencyId, agency) →
      (∀ r s', backend.Runs (RoomsService.getBlock ownerId id) s r s' →
        ∃ vue, r = .ok vue ∧ Complete s bloc vue) ∧
      ∀ r s', backend.Runs (RoomsService.getRoomingListCsv ownerId id) s r s' →
        ∃ lignes, r = .ok (Csv.fichier "\r\n" enTete lignes) ∧
          lignes.Perm ((s.ofBlock id).map (ligneDePlace s bloc))

/-! ## The view -/

section Vue

variable {s : Store} {id : RoomBlockId} {bloc : RoomBlock} {complet : BlocComplet}

theorem numeros_nodup (bloc : RoomBlock) : (numeros bloc).Nodup :=
  List.nodup_range.map fun _ _ => Nat.succ.inj

theorem mem_numeros {n : Nat} (h : 1 ≤ n ∧ n ≤ bloc.roomCount) : n ∈ numeros bloc :=
  List.mem_map.mpr ⟨n - 1, List.mem_range.mpr (by omega), by omega⟩

/-- Who is placed in the block, with the number of the room. -/
def occupants (complet : BlocComplet) : List (Nat × RoomOccupantShape) :=
  complet.assignments.map fun (a, name) => (a.roomNumber, ⟨a.bookingId, name⟩)

/-- The rooms that are shown have all the occupants. -/
theorem occupants_perm (h : Regulier s) (hb : s.block id = some bloc)
    (hc : s.complet id bloc = some complet) :
    ((numeros bloc).flatMap fun n => (occupants complet).filter (·.1 = n)).Perm (occupants complet) := by
  refine Sorted.flatMap_filter_perm (numeros_nodup bloc) fun x hx => ?_
  obtain ⟨y, hy, rfl⟩ := List.mem_map.mp hx
  exact mem_numeros (h.ranged id bloc hb y.1 (mem_assignments hc hy).1)

theorem vue_rooms (s : Store) (complet : BlocComplet) :
    (s.vue complet).rooms = (numeros complet.bloc).map fun n =>
      { number := n, occupants := ((occupants complet).filter (·.1 = n)).map Prod.snd } := by
  rw [numeros, List.map_map]
  rfl

theorem flatMap_rooms (h : Regulier s) (hb : s.block id = some bloc)
    (hc : s.complet id bloc = some complet) :
    ((s.vue complet).rooms.flatMap (·.occupants)).Perm ((occupants complet).map Prod.snd) := by
  obtain rfl := complet_bloc hc
  rw [vue_rooms, List.flatMap_map, ← List.map_flatMap]
  exact (occupants_perm h hb hc).map _

/-- A booking is shown in the rooms as often as it has a place. -/
theorem countP_rooms (h : Regulier s) (hb : s.block id = some bloc)
    (hc : s.complet id bloc = some complet) (k : BookingId) :
    ((s.vue complet).rooms.flatMap (·.occupants)).countP (·.bookingId = k) = placesDe s id k := by
  rw [(flatMap_rooms h hb hc).countP_eq, occupants, List.map_map, List.countP_map, placesDe,
    ← (h.assignments hc).countP_eq, List.countP_map]
  rfl

/-- An active booking of the package is one of those that the view gets. -/
theorem countP_actives (h : Liens s.app) {k : BookingId} {b : Booking}
    (hk : s.app.bookings[k]? = some b) (hactive : b.status ≠ .cancelled) :
    (s.actives b.agencyId b.packageId).countP (·.bookingId = k) = 1 := by
  rw [Store.actives, List.countP_filterMap, (List.perm_insertionSort _ _).countP_eq,
    ← Table.countP_findMany hk (P := fun x =>
      x.agencyId = b.agencyId ∧ x.packageId = b.packageId ∧ x.status ≠ .cancelled) (by simpa using hactive)]
  refine List.countP_congr fun x hx => ?_
  have hx := Table.mem_withIds.mp (List.mem_filter.mp hx).1
  obtain ⟨u, hu⟩ := Option.isSome_iff_exists.mp (h.pilgrim _ _ hx)
  dsimp only
  rw [hu]
  rfl

/-- Who is not in a room has no place in the block. -/
theorem vue_unassigned (h : Regulier s) (hc : s.complet id bloc = some complet) :
    (s.vue complet).unassigned = (s.actives complet.bloc.agencyId complet.bloc.packageId).filter
      fun r => placesDe s id r.bookingId = 0 := by
  refine List.filter_congr fun r _ => ?_
  have hplaces : (occupants complet).countP (·.2.bookingId = r.bookingId) =
      placesDe s id r.bookingId := by
    rw [occupants, List.countP_map, placesDe, ← (h.assignments hc).countP_eq, List.countP_map]
    rfl
  show (!(occupants complet).any fun x => decide (x.2.bookingId = r.bookingId)) = _
  rw [Bool.eq_iff_iff, Bool.not_eq_true', decide_eq_true_eq, ← hplaces, List.countP_eq_zero,
    List.any_eq_false]

theorem countP_unassigned (h : Regulier s) (hc : s.complet id bloc = some complet) (k : BookingId) :
    (s.vue complet).unassigned.countP (·.bookingId = k) =
      if placesDe s id k = 0 then
        (s.actives complet.bloc.agencyId complet.bloc.packageId).countP (·.bookingId = k)
      else 0 := by
  rw [vue_unassigned h hc, List.countP_filter]
  split
  · next hzero =>
    refine List.countP_congr fun r _ => ?_
    by_cases hr : r.bookingId = k
    · simp [hr, hzero]
    · simp [hr]
  · next hpos =>
    refine List.countP_eq_zero.mpr fun r _ => ?_
    by_cases hr : r.bookingId = k
    · simp [hr, hpos]
    · simp [hr]

theorem vue_complete (h : Regulier s) (hb : s.block id = some bloc)
    (hc : s.complet id bloc = some complet) : Complete s bloc (s.vue complet) := by
  obtain rfl := complet_bloc hc
  refine ⟨fun k b hk hpackage hactive => ?_, ?_, ?_⟩
  · have hagency : b.agencyId = complet.bloc.agencyId := by
      have hbloc := h.bloc id complet.bloc hb
      rw [← hpackage, h.liens.agency k b hk] at hbloc
      exact Option.some.inj hbloc
    have hone := h.bounded.booking id k
    rw [List.countP_append, countP_rooms h hb hc, countP_unassigned h hc, ← hagency, ← hpackage,
      countP_actives h.liens hk hactive]
    split <;> omega
  · rw [vue_rooms, List.map_map]
    exact List.map_id _
  · have hlen := (flatMap_rooms h hb hc).length_eq
    rw [List.length_flatMap, List.length_map] at hlen
    exact hlen.symm

/-- The rooming list has a line for each place. -/
theorem lignes_perm (h : Regulier s) (hb : s.block id = some bloc)
    (hc : s.complet id bloc = some complet) :
    (lignesOccupants (s.vue complet)).Perm ((s.ofBlock id).map (ligneDePlace s bloc)) := by
  obtain rfl := complet_bloc hc
  let ligne (x : Nat × RoomOccupantShape) : String :=
    ligneOccupant (s.vue complet) { number := x.1, occupants := [] } x.2
  have hrooms : lignesOccupants (s.vue complet) =
      ((numeros complet.bloc).flatMap fun n => (occupants complet).filter (·.1 = n)).map ligne := by
    rw [lignesOccupants, vue_rooms, List.flatMap_map, List.map_flatMap]
    refine List.flatMap_congr fun n _ => ?_
    rw [List.map_map]
    refine List.map_congr_left fun x hx => ?_
    have hn : x.1 = n := by simpa using (List.mem_filter.mp hx).2
    subst hn
    rfl
  have hlignes : (occupants complet).map ligne =
      (complet.assignments.map Prod.fst).map (ligneDePlace s complet.bloc) := by
    rw [occupants, List.map_map, List.map_map]
    refine List.map_congr_left fun x hx => ?_
    show _ = ligneDePlace s complet.bloc x.1
    rw [ligneDePlace, (mem_assignments hc hx).2]
    rfl
  rw [hrooms]
  refine ((occupants_perm h hb hc).map ligne).trans ?_
  rw [hlignes]
  exact (h.assignments hc).map _

/-- A regular store has the plan of every block. -/
theorem Regulier.plan (h : Regulier s) : Plan s := by
  intro id bloc hb ownerId agency howner
  have hbloc := h.bloc id bloc hb
  obtain ⟨package, hpackage, -⟩ := Option.map_eq_some_iff.mp hbloc
  obtain ⟨complet, hc⟩ : ∃ complet, s.complet id bloc = some complet := by
    rw [Store.complet, hpackage]
    exact ⟨_, rfl⟩
  have hp : s.Possede ownerId id complet := by
    refine ⟨⟨agency, ?_⟩, Option.bind_eq_some_iff.mpr ⟨bloc, hb, hc⟩⟩
    rw [complet_bloc hc]
    exact howner
  refine ⟨fun r s' hg => ⟨s.vue complet, ?_, vue_complete h hb hc⟩,
    fun r s' hg => ⟨lignesOccupants (s.vue complet), ?_, lignes_perm h hb hc⟩⟩
  · exact ((getBlock_iff hg).2 _).mpr ⟨complet, hp, rfl⟩
  · exact ((getRoomingListCsv_iff hg).2 _).mpr ⟨complet, hp, rfl⟩

end Vue

/-- **The room plan is complete.** In every run of the requests from a regular store, such as one
without bookings, blocks and places, before and after each request: the view of every block has each
active booking of its package exactly once and counts the beds of the rooms that it shows, and the
rooming list has one line for each place. -/
theorem plan_complete {x : TxState sig Unit Store Env Key}
    {tr : Trace BedRequest (TxState sig Unit Store Env Key)} (h₀ : Regulier x.db)
    (hr : sessions.Run BedRequest.handler x tr) (hq : ∀ y ∈ tr, Connu x.db y.1) :
    Plan x.db ∧ ∀ y ∈ tr, Plan y.2.db :=
  ⟨h₀.plan, fun y hy => (regulier_run h₀ hr hq y hy).plan⟩

instance (s : Store) (q : BedRequest) : Decidable (Connu s q) :=
  match q with
  | .createBooking pilgrimId _ => inferInstanceAs (Decidable ((s.app.users[pilgrimId]?).isSome = true))
  | .cancelBooking _ _ => isTrue trivial
  | .createBlock _ _ => isTrue trivial
  | .updateBlock _ _ _ => isTrue trivial
  | .assign _ _ _ => isTrue trivial
  | .unassign _ _ _ => isTrue trivial

/-- A booking is created, and gets a bed of a new block. -/
private def placerUne : Trace BedRequest (TxState sig Unit Store Env Key) :=
  sessions.evalAll BedRequest.handler {} { db := { app := .exemple } }
    [.createBooking 0 0,
      .createBlock 1 { packageId := 0, hotelName := some "Hôtel", city := some "La Mecque",
                       roomType := .double, roomCount := 2 },
      .assign 1 0 (.enChambre 0 1)]

theorem plan_complete_exemple :
    (Trace.last { db := { app := .exemple } } placerUne).db.roomAssignments.map (·.roomNumber) = [2] ∧
      ∀ y ∈ placerUne, Plan y.2.db := by
  have h₀ : Regulier { app := .exemple } := regulier_of_empty rfl rfl rfl
  have hq : ∀ y ∈ placerUne, Connu { app := .exemple } y.1 := by decide +kernel
  exact ⟨by decide +kernel, (plan_complete h₀ (Backend.evalAll_run _ _ _) hq).2⟩

end OumraHajj.Rooms
