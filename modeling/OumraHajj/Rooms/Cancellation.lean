import OumraHajj.Rooms.Sequential

/-!
# The beds of cancelled bookings

`assign` refuses a cancelled booking, but a booking that is cancelled later keeps its places, and the
block still shows them and names them to the hotel. `Liberee` is the exact condition under which no
cancelled booking holds a bed: a booking that is cancelled has no place (`beds_iff`).
-/

namespace OumraHajj.Rooms

open Async

/-- The booking is cancelled. -/
def annulee (s : Store) (k : BookingId) : Bool :=
  (s.app.bookings[k]?).any fun b => b.status = .cancelled

/-- No place belongs to a cancelled booking. -/
def Places (s : Store) : Prop := ∀ a ∈ s.roomAssignments, annulee s a.bookingId = false

/-- What is shown of a block counts and names no cancelled booking. -/
structure Shown (s : Store) (bloc : RoomBlockShape) : Prop where
  assignedBeds : bloc.assignedBeds = (s.ofBlock bloc.id).countP fun a =>
    !annulee s a.bookingId && (s.pilgrimOf a.bookingId).isSome
  occupants : ∀ chambre ∈ bloc.rooms, ∀ o ∈ chambre.occupants, annulee s o.bookingId = false
  lignes : ∀ ligne ∈ lignesOccupants bloc, ∃ a ∈ s.ofBlock bloc.id, annulee s a.bookingId = false ∧
    ∃ chambre name, s.pilgrimOf a.bookingId = some name ∧
      ligne = ligneOccupant bloc chambre ⟨a.bookingId, name⟩

/-- No cancelled booking holds a bed, is shown in a block or named in a rooming list. -/
structure Beds (s : Store) : Prop where
  places : Places s
  blocs : ∀ ownerId id bloc s',
    backend.Runs (RoomsService.getBlock ownerId id) s (.ok bloc) s' → Shown s bloc
  listes : ∀ ownerId id texte s',
    backend.Runs (RoomsService.getRoomingListCsv ownerId id) s (.ok texte) s' →
      ∃ bloc entete, Shown s bloc ∧ texte = Csv.fichier "\r\n" entete (lignesOccupants bloc)

/-- A booking that the request cancels has no place (module doc). -/
def Liberee (s : Store) : BedRequest → Prop
  | .cancelBooking pilgrimId id =>
    ∀ x ∈ s.app.cancelled pilgrimId id, ∀ a ∈ s.roomAssignments, a.bookingId ≠ id
  | _ => True

/-! ## What is shown -/

section Shown

variable {s : Store} {id : RoomBlockId} {bloc : RoomBlock} {complet : BlocComplet}

theorem length_assignments (h : s.complet id bloc = some complet) :
    complet.assignments.length =
      (s.ofBlock id).countP fun a => (s.pilgrimOf a.bookingId).isSome := by
  obtain ⟨package, -, rfl⟩ := Option.map_eq_some_iff.mp h
  rw [List.length_insertionSort, List.length_filterMap_eq_countP]
  refine List.countP_congr fun a _ => ?_
  rw [Option.isSome_map]

/-- Who is in the rooms that are shown. -/
theorem mem_rooms {reservations : List RoomOccupantShape} {chambre : RoomShape}
    (hc : chambre ∈ (toRoomBlockShape complet reservations).rooms) {o : RoomOccupantShape}
    (ho : o ∈ chambre.occupants) : ∃ x ∈ complet.assignments, o = ⟨x.1.bookingId, x.2⟩ := by
  obtain ⟨i, -, rfl⟩ := List.mem_map.mp hc
  obtain ⟨y, hy, rfl⟩ := List.mem_map.mp ho
  obtain ⟨x, hx, rfl⟩ := List.mem_map.mp (List.mem_filter.mp hy).1
  exact ⟨x, hx, rfl⟩

theorem toRoomBlockShape_shown (hp : Places s) (h : s.complet id bloc = some complet)
    (reservations : List RoomOccupantShape) : Shown s (toRoomBlockShape complet reservations) := by
  have hid : complet.id = id := by
    obtain ⟨package, -, rfl⟩ := Option.map_eq_some_iff.mp h
    rfl
  have hactive : ∀ a ∈ s.ofBlock id, annulee s a.bookingId = false :=
    fun a ha => hp a (List.mem_filter.mp ha).1
  refine ⟨?_, fun chambre hc o ho => ?_, fun ligne hl => ?_⟩
  · have hlen : (toRoomBlockShape complet reservations).assignedBeds = complet.assignments.length :=
      List.length_map _
    rw [hlen, length_assignments h]
    show _ = (s.ofBlock complet.id).countP _
    rw [hid]
    refine List.countP_congr fun a ha => ?_
    rw [hactive a ha]
    rfl
  · obtain ⟨x, hx, rfl⟩ := mem_rooms hc ho
    exact hactive x.1 (mem_assignments h hx).1
  · obtain ⟨chambre, hc, hl⟩ := List.mem_flatMap.mp hl
    obtain ⟨o, ho, rfl⟩ := List.mem_map.mp hl
    obtain ⟨x, hx, rfl⟩ := mem_rooms hc ho
    obtain ⟨hx₁, hx₂⟩ := mem_assignments h hx
    exact ⟨x.1, by rw [← hid] at hx₁; exact hx₁, hactive x.1 hx₁, chambre, x.2, hx₂, rfl⟩

/-- What is shown follows from the places. -/
theorem Places.beds (hp : Places s) : Beds s := by
  have hblocs : ∀ ownerId id bloc s',
      backend.Runs (RoomsService.getBlock ownerId id) s (.ok bloc) s' → Shown s bloc := by
    intro ownerId id bloc s' h
    obtain ⟨row, complet, reservations, -, hc, rfl⟩ := (getBlock_runs h).2 bloc rfl
    exact toRoomBlockShape_shown hp hc reservations
  refine ⟨hp, hblocs, fun ownerId id texte s' h => ?_⟩
  rcases Backend.runs_bind.mp h with ⟨bloc, s₁, hg, htexte, -⟩ | ⟨x, -, hx⟩
  · cases htexte
    exact ⟨bloc, _, hblocs ownerId id bloc s₁ hg, rfl⟩
  · cases hx

end Shown

/-! ## The steps -/

section Steps

variable {s s' : Store} {q : BedRequest}

theorem annulee_append {b : Booking} (h : s'.app.bookings = s.app.bookings ++ [b])
    (hb : b.status ≠ .cancelled) {k : BookingId} (hk : annulee s k = false) :
    annulee s' k = false := by
  rw [annulee, h, Table.get_append]
  split
  · exact decide_eq_false hb
  · exact hk

theorem annulee_set {id : BookingId} {b b' : Booking} (hb : s.app.bookings[id]? = some b)
    (h : s'.app.bookings = s.app.bookings.set id b') (k : BookingId) :
    annulee s' k = if id = k then decide (b'.status = .cancelled) else annulee s k := by
  rw [annulee, h, Table.get_set hb]
  split <;> rfl

/-- A request that cancels no booking with a place. -/
theorem Effect.places (h : Effect s q s') (hp : Places s) (hq : Liberee s q) : Places s' := by
  cases h with
  | rien q => exact hp
  | forfait p => exact hp
  | reserve p b hst =>
    have hne : b.status ≠ .cancelled := by rw [hst]; decide
    exact fun a ha => annulee_append rfl hne (hp a ha)
  | annule hc =>
    intro a ha
    have hne := hq _ hc a ha
    rw [annulee_set (Db.cancelled_eq_some.mp hc).1 rfl, if_neg (Ne.symm hne)]
    exact hp a ha
  | bloc data => exact hp
  | modifie bloc complet hb hc hocc => exact hp
  | place bloc booking n now hb hk hforfait hactive hn hfree =>
    intro a ha
    rcases upsert_bookingId ha with hid | ⟨a₀, ha₀, hid⟩
    · rw [hid]
      show (Option.any _ _) = false
      rw [hk]
      exact decide_eq_false hactive
    · rw [← hid]
      exact hp a₀ ha₀
  | libere => exact fun a ha => hp a (List.mem_filter.mp ha).1

/-- A request that cancels a booking with a place. -/
theorem not_places {x y : TxState sig Unit Store Env Key} {r : Except Erreur Unit}
    (h : sessions.Runs q.handler x r y) (hq : ¬ Liberee x.db q) : ¬ Places y.db := by
  cases q with
  | cancelBooking pilgrimId id =>
    intro hp
    refine hq fun z hz a ha hid => ?_
    obtain ⟨r', h⟩ := Backend.runs_void h
    obtain ⟨app, happ, hy⟩ := runs_left (runs_auto h)
    rcases cancel_runs happ with ⟨hnone, -⟩ | ⟨b, p, hc, rfl⟩
    · rw [Option.mem_def, hnone] at hz
      cases hz
    · have hplace := hp a (by rw [hy]; exact ha)
      rw [hy, annulee_set (Db.cancelled_eq_some.mp hc).1 rfl, if_pos hid.symm] at hplace
      cases hplace
  | _ => exact absurd trivial hq

end Steps

/-- **No bed for a cancelled booking.** From a store in which no cancelled booking has a place, this
holds after every request of a sequential run, with what is shown of the blocks and written in the
rooming lists, if and only if no request cancels a booking that has a place. -/
theorem beds_iff {s : Store} (h₀ : Places s)
    {tr : Trace BedRequest (TxState sig Unit Store Env Key)}
    (hr : sessions.Run BedRequest.handler { db := s } tr) :
    (∀ x ∈ tr, Beds x.2.db) ↔ Trace.Steps (fun x q _ => Liberee x.db q) { db := s } tr := by
  rw [← Trace.steps_after (P := fun x : TxState sig Unit Store Env Key => Beds x.db)
    (s := { db := s })]
  refine hr.steps_iff (I := fun x => Places x.db) (A := fun _ => True) ?_ ?_ (fun _ _ => trivial) h₀
  · intro x q r y hp _ h hq
    have hp' : Places y.db := (request_effect h).places hp hq
    exact ⟨hp', hp'.beds⟩
  · intro x q r y _ _ h hq hb
    exact not_places h hq hb.places

/-! ## Runs on fixed inputs -/

instance (s : Store) (q : BedRequest) : Decidable (Liberee s q) :=
  match q with
  | .cancelBooking pilgrimId id =>
    inferInstanceAs (Decidable (∀ x ∈ s.app.cancelled pilgrimId id, ∀ a ∈ s.roomAssignments,
      a.bookingId ≠ id))
  | .createBooking _ _ => isTrue trivial
  | .createBlock _ _ => isTrue trivial
  | .updateBlock _ _ _ => isTrue trivial
  | .assign _ _ _ => isTrue trivial
  | .unassign _ _ _ => isTrue trivial

/-- The run of the requests from the two bookings and the block of the example. -/
private def suite (qs : List BedRequest) : Trace BedRequest (TxState sig Unit Store Env Key) :=
  sessions.evalAll BedRequest.handler {} { db := .exemple } qs

/-- The agency frees the bed before the pilgrim cancels. -/
private def libererAnnuler : List BedRequest :=
  [.assign 1 0 (.enChambre 0 1), .unassign 1 0 0, .cancelBooking 0 0]

theorem beds_exemple :
    (Trace.last { db := .exemple } (suite libererAnnuler)).db.app.bookings[0]?.map (·.status) =
      some .cancelled ∧ ∀ x ∈ suite libererAnnuler, Beds x.2.db := by
  have h₀ : Places Store.exemple := by rintro a ⟨⟩
  have hfree : Trace.Steps (fun x q _ => Liberee x.db q) { db := .exemple } (suite libererAnnuler) := by
    decide +kernel
  exact ⟨by decide +kernel, (beds_iff h₀ (Backend.evalAll_run _ _ _)).mpr hfree⟩

/-- The pilgrim cancels a booking that has a bed. -/
theorem bed_kept : ¬ ∀ (s : Store) (tr : Trace BedRequest (TxState sig Unit Store Env Key)),
    Places s → sessions.Run BedRequest.handler { db := s } tr → ∀ x ∈ tr, Beds x.2.db := by
  intro h
  have h₀ : Places Store.exemple := by rintro a ⟨⟩
  have hrun : sessions.Run BedRequest.handler { db := .exemple }
      (suite [.assign 1 0 (.enChambre 0 1), .cancelBooking 0 0]) := Backend.evalAll_run _ _ _
  have hbad : ∃ x ∈ suite [.assign 1 0 (.enChambre 0 1), .cancelBooking 0 0],
      ∃ a ∈ x.2.db.roomAssignments, annulee x.2.db a.bookingId = true := by decide +kernel
  obtain ⟨x, hx, a, ha, hannulee⟩ := hbad
  have hfalse := (h _ _ h₀ hrun x hx).places a ha
  rw [hannulee] at hfalse
  cases hfalse

end OumraHajj.Rooms
