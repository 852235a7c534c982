import Mathlib.Order.Bounds.Basic
import OumraHajj.Rooms.Views

/-!
# The choice of a room

`assign` without a room number puts the booking in the lowest room that has a bed left for it, and
refuses exactly if there is none; where it refuses, with or without a number, it changes nothing
(`assign_choice`).
-/

namespace OumraHajj.Rooms

open Async

variable {s s' : Store} {ownerId : UserId} {blockId : RoomBlockId} {bloc : RoomBlock}
  {complet : BlocComplet} {dto : AssignRoomDto} {k : BookingId} {n : Nat}

/-- The room has a bed that no other booking has. -/
def Libre (s : Store) (blockId : RoomBlockId) (bloc : RoomBlock) (k : BookingId) (n : Nat) : Prop :=
  (1 ≤ n ∧ n ≤ bloc.roomCount) ∧ autres s blockId k n < capacite bloc.roomType

/-- The owner may place the booking in the block. -/
structure Eligible (s : Store) (ownerId : UserId) (blockId : RoomBlockId) (k : BookingId)
    (complet : BlocComplet) : Prop where
  bloc : s.Possede ownerId blockId complet
  booking : ∃ b, s.app.bookings[k]? = some b ∧ b.agencyId = complet.bloc.agencyId ∧
    b.packageId = complet.bloc.packageId ∧ b.status ≠ .cancelled

/-- The booking has one place in the block, in room `n`, and nothing else has changed. -/
structure Placee (blockId : RoomBlockId) (k : BookingId) (n : Nat) (s s' : Store) : Prop where
  une : s'.roomAssignments.countP (Store.surPlace blockId k) = 1
  chambre : ∀ a ∈ s'.roomAssignments, Store.surPlace blockId k a = true → a.roomNumber = n
  autres : s'.roomAssignments.filter (fun a => !Store.surPlace blockId k a) =
    s.roomAssignments.filter fun a => !Store.surPlace blockId k a
  reste : s' = { s with roomAssignments := s'.roomAssignments }

/-! ## The write -/

theorem surPlace_deplace (a : RoomAssignment) :
    Store.surPlace blockId k (deplace blockId k n a) = Store.surPlace blockId k a := by
  unfold Store.surPlace
  rw [deplace_roomBlockId, deplace_bookingId]

theorem countP_surPlace (s : Store) (blockId : RoomBlockId) (k : BookingId) :
    s.roomAssignments.countP (Store.surPlace blockId k) = placesDe s blockId k := by
  rw [placesDe, Store.ofBlock, List.countP_filter]
  refine List.countP_congr fun a _ => ?_
  simp [Store.surPlace, and_comm]

theorem upsert_placee (hone : placesDe s blockId k ≤ 1) (n : Nat) (now : Time) :
    Placee blockId k n s
      { s with roomAssignments := Store.upsert s.roomAssignments blockId k n now } := by
  rw [← countP_surPlace] at hone
  unfold Store.upsert
  split
  · next hany =>
    show Placee blockId k n s { s with roomAssignments := s.roomAssignments.map (deplace blockId k n) }
    have hpos : 0 < s.roomAssignments.countP (Store.surPlace blockId k) :=
      List.countP_pos_iff.mpr (List.any_eq_true.mp hany)
    refine ⟨?_, fun a ha hplace => ?_, ?_, rfl⟩
    · rw [List.countP_map, List.countP_congr (q := Store.surPlace blockId k) fun a _ => by
        rw [Function.comp_apply, surPlace_deplace]]
      omega
    · obtain ⟨a₀, -, rfl⟩ := List.mem_map.mp ha
      rw [surPlace_deplace] at hplace
      unfold deplace
      rw [if_pos hplace]
    · rw [List.filter_map, List.filter_congr (q := fun a => !Store.surPlace blockId k a) fun a _ => by
        rw [Function.comp_apply, surPlace_deplace]]
      conv => rhs; rw [← List.map_id (s.roomAssignments.filter _)]
      refine List.map_congr_left fun a ha => ?_
      have hnot : Store.surPlace blockId k a = false := by simpa using List.of_mem_filter ha
      unfold deplace
      rw [if_neg (by rw [hnot]; exact Bool.false_ne_true), id]
  · next hany =>
    have hnone : ∀ a ∈ s.roomAssignments, Store.surPlace blockId k a = false := by simpa using hany
    have hself : Store.surPlace blockId k ⟨blockId, k, n, now⟩ = true := by simp [Store.surPlace]
    refine ⟨?_, fun a ha hplace => ?_, ?_, rfl⟩
    · rw [List.countP_append, List.countP_eq_zero.mpr fun a ha => by simp [hnone a ha],
        List.countP_singleton, if_pos hself]
    · rcases List.mem_append.mp ha with ha | ha
      · rw [hnone a ha] at hplace
        cases hplace
      · rw [List.mem_singleton.mp ha]
    · rw [List.filter_append, List.filter_cons_of_neg (by simp [hself]), List.filter_nil, List.append_nil]

/-! ## The search -/

/-- The rooms of the block that the search takes. -/
def Ouvertes (complet : BlocComplet) (places : List Nat) : Set Nat :=
  {n | (1 ≤ n ∧ n ≤ complet.bloc.roomCount) ∧ places.count n < capacite complet.bloc.roomType}

/-- The rooms are searched from the first one on. -/
theorem chambre_some (hauto : dto.roomNumber = none) {places : List Nat}
    (h : RoomsService.chambre complet dto places = some n) : IsLeast (Ouvertes complet places) n := by
  rw [RoomsService.chambre, hauto, Option.none_or, List.find?_map] at h
  obtain ⟨i, hi, rfl⟩ := Option.map_eq_some_iff.mp h
  obtain ⟨hfree, hrange, hfirst⟩ := List.find?_range_eq_some.mp hi
  have hlt := List.mem_range.mp hrange
  refine ⟨⟨⟨by omega, hlt⟩, by simpa using hfree⟩, ?_⟩
  rintro m ⟨⟨hpos, hle⟩, hm⟩
  by_contra! hlt'
  have hfull := hfirst (m - 1) (by omega)
  rw [Function.comp_apply, Nat.sub_add_cancel hpos] at hfull
  simp [hm] at hfull

theorem chambre_none (hauto : dto.roomNumber = none) {places : List Nat}
    (h : RoomsService.chambre complet dto places = none) : n ∉ Ouvertes complet places := by
  rw [RoomsService.chambre, hauto, Option.none_or, List.find?_map, Option.map_eq_none_iff] at h
  rintro ⟨⟨hpos, hle⟩, hn⟩
  have hfull := List.find?_range_eq_none.mp h (n - 1) (by omega)
  rw [Function.comp_apply, Nat.sub_add_cancel hpos] at hfull
  simp [hn] at hfull

/-! ## The transaction -/

theorem ouvertes_iff (s : Store) (blockId : RoomBlockId) (complet : BlocComplet) (k : BookingId)
    (n : Nat) :
    n ∈ Ouvertes complet (((s.ofBlock blockId).filter (·.bookingId ≠ k)).map (·.roomNumber)) ↔
      Libre s blockId complet.bloc k n := by
  show _ ∧ List.count n _ < _ ↔ _
  rw [count_places]
  rfl

/-- Without a number the booking gets the lowest room that is free for it, or there is none. -/
theorem placer_auto (hauto : dto.roomNumber = none) (hblock : (s.block blockId).isSome)
    (hbooking : (s.app.bookings[dto.bookingId]?).isSome) {r : Except Erreur Unit}
    (h : backend.Runs (RoomsService.placer complet blockId dto) s r s') :
    (∃ n now, r = .ok () ∧ IsLeast {n | Libre s blockId complet.bloc dto.bookingId n} n ∧
        s' = { s with roomAssignments := Store.upsert s.roomAssignments blockId dto.bookingId n now }) ∨
      (∃ x, r = .error x) ∧ ∀ n, ¬ Libre s blockId complet.bloc dto.bookingId n := by
  obtain ⟨e₁, e₂, h⟩ := h
  have hfind : ∀ e s, backend.exec (.inr (.roomAssignmentFindMany blockId dto.bookingId)) e s =
      (((s.ofBlock blockId).filter (·.bookingId ≠ dto.bookingId)).map (·.roomNumber), s) :=
    fun _ _ => rfl
  have hlock : ∀ e s, backend.exec (.inr (.roomBlockLock blockId)) e s = ((), s) := fun _ _ => rfl
  have hlibres : Ouvertes complet
      (((s.ofBlock blockId).filter (·.bookingId ≠ dto.bookingId)).map (·.roomNumber)) =
      {n | Libre s blockId complet.bloc dto.bookingId n} :=
    Set.ext fun n => ouvertes_iff s blockId complet dto.bookingId n
  simp only [hlock, hfind, Prog.bind] at h
  split at h
  · next hnone =>
    refine .inr ⟨⟨_, h.1⟩, fun n hn => chambre_none hauto hnone ((ouvertes_iff _ _ _ _ _).mpr hn)⟩
  · next n hn =>
    have hleast := chambre_some hauto hn
    rw [if_neg (not_lt.mpr hleast.1.1.2), if_neg (not_le.mpr hleast.1.2)] at h
    rw [hlibres] at hleast
    obtain ⟨e₃, h⟩ := h
    have hwrite : backend.exec (.inr (.roomAssignmentUpsert blockId dto.bookingId n)) e₃ s =
        (.ok (), { s with
          roomAssignments := Store.upsert s.roomAssignments blockId dto.bookingId n e₃.now }) := by
      obtain ⟨bloc, hbloc⟩ := Option.isSome_iff_exists.mp hblock
      obtain ⟨b, hb⟩ := Option.isSome_iff_exists.mp hbooking
      simp only [backend, exec, hbloc, hb]
      rfl
    rw [hwrite] at h
    exact .inl ⟨n, e₃.now, h.1, hleast, h.2⟩

/-! ## The handler -/

theorem Eligible.verifier (he : Eligible s ownerId blockId k complet) {r : Except Erreur Unit}
    (h : backend.Runs (RoomsService.verifier complet k) s r s') : r = .ok () ∧ s' = s := by
  obtain ⟨b, hb, hagency, hpackage, hactive⟩ := he.booking
  obtain ⟨e, h⟩ := h
  have hans : (backend.exec (.inl (.bookingFindUnique k)) e s).1 = some b := hb
  rw [hans] at h
  change backend.Runs (ite _ _ (ite _ _ _)) _ _ _ at h
  rw [if_neg (by rw [not_or]; exact ⟨not_not.mpr hagency, not_not.mpr hpackage⟩), if_neg hactive] at h
  exact h

/-- The block is still found after a change of its places. -/
theorem Store.Possede.places (h : s.Possede ownerId blockId complet) (rows : List RoomAssignment) :
    ∃ complet', Store.Possede { s with roomAssignments := rows } ownerId blockId complet' := by
  obtain ⟨hagency, hfound⟩ := h
  obtain ⟨bloc, hbloc, hcomplet⟩ := Option.bind_eq_some_iff.mp hfound
  obtain rfl := complet_bloc hcomplet
  obtain ⟨package, hpackage, -⟩ := Option.map_eq_some_iff.mp hcomplet
  obtain ⟨complet', hcomplet'⟩ :
      ∃ complet', Store.complet { s with roomAssignments := rows } blockId complet.bloc = some complet' := by
    rw [Store.complet, hpackage]
    exact ⟨_, rfl⟩
  refine ⟨complet', ?_, Option.bind_eq_some_iff.mpr ⟨complet.bloc, hbloc, hcomplet'⟩⟩
  rw [complet_bloc hcomplet']
  exact hagency

/-- Once a place is written the block is shown. -/
theorem getBlock_placed (h : s.Possede ownerId blockId complet) {rows : List RoomAssignment}
    {r : Except Erreur RoomBlockShape}
    (hg : backend.Runs (RoomsService.getBlock ownerId blockId) { s with roomAssignments := rows } r s') :
    (∃ shape, r = .ok shape) ∧ s' = { s with roomAssignments := rows } := by
  obtain ⟨complet', hfound⟩ := h.places rows
  obtain ⟨hs, hshape⟩ := getBlock_iff hg
  exact ⟨⟨_, (hshape _).mpr ⟨complet', hfound, rfl⟩⟩, hs⟩

section Assign

variable {x y : TxState sig Unit Store Env Key} {r : Except Erreur RoomBlockShape}

/-- A request that is refused changes nothing. -/
theorem assign_error {e : Erreur}
    (h : sessions.Runs (RoomsService.assign () ownerId blockId dto) x (.error e) y) : y.db = x.db := by
  rcases Backend.runs_bind.mp h with ⟨complet, x₁, hf, h₁⟩ | ⟨e, hf, -⟩
  swap
  · exact (findOwnedOrFail_iff (runs_auto hf)).1
  obtain ⟨hx₁, hfound⟩ := findOwnedOrFail_iff (runs_auto hf)
  have hp := (hfound complet).mp rfl
  rcases Backend.runs_bind.mp h₁ with ⟨u, x₂, hv, h₂⟩ | ⟨e, hv, -⟩
  swap
  · exact (verifier_runs (runs_auto hv)).1.trans hx₁
  have hx₂ := (verifier_runs (runs_auto hv)).1
  rw [hx₁] at hx₂
  rcases Backend.runs_bind.mp h₂ with ⟨v, x₃, ht, hg⟩ | ⟨e, ht, -⟩
  · obtain ⟨s, hs, ⟨a, -, hx₃⟩ | ⟨e, he, -⟩⟩ := runs_transaction ht
    · rw [hx₂] at hs
      rcases placer_runs hs with ⟨e, he⟩ | ⟨n, now, -, -, rfl⟩
      · cases he
      · have hg := runs_auto hg
        rw [hx₃] at hg
        obtain ⟨⟨shape, hshape⟩, -⟩ := getBlock_placed hp hg
        cases hshape
    · cases he
  · obtain ⟨s, hs, ⟨a, ha, -⟩ | ⟨e, -, hx₃⟩⟩ := runs_transaction ht
    · cases ha
    · exact hx₃.trans hx₂

/-- What `assign` without a number does with an eligible booking. -/
theorem assign_auto (hauto : dto.roomNumber = none)
    (he : Eligible x.db ownerId blockId dto.bookingId complet)
    (h : sessions.Runs (RoomsService.assign () ownerId blockId dto) x r y) :
    (∃ v n now, r = .ok v ∧ IsLeast {n | Libre x.db blockId complet.bloc dto.bookingId n} n ∧
        y.db = { x.db with
          roomAssignments := Store.upsert x.db.roomAssignments blockId dto.bookingId n now }) ∨
      (∃ e, r = .error e) ∧ ∀ n, ¬ Libre x.db blockId complet.bloc dto.bookingId n := by
  obtain ⟨b, hb, -⟩ := he.booking
  obtain ⟨bloc, hbloc, -⟩ := Option.bind_eq_some_iff.mp he.bloc.2
  rcases Backend.runs_bind.mp h with ⟨found, x₁, hf, h₁⟩ | ⟨e, hf, -⟩
  swap
  · cases ((findOwnedOrFail_iff (runs_auto hf)).2 complet).mpr he.bloc
  obtain ⟨hx₁, hfound⟩ := findOwnedOrFail_iff (runs_auto hf)
  obtain rfl := Except.ok.inj ((hfound complet).mpr he.bloc)
  rcases Backend.runs_bind.mp h₁ with ⟨u, x₂, hv, h₂⟩ | ⟨e, hv, -⟩
  swap
  · have hv := runs_auto hv
    rw [hx₁] at hv
    cases (he.verifier hv).1
  have hx₂ := (verifier_runs (runs_auto hv)).1
  rw [hx₁] at hx₂
  rcases Backend.runs_bind.mp h₂ with ⟨v, x₃, ht, hg⟩ | ⟨e, ht, rfl⟩
  · obtain ⟨s, hs, ⟨a, -, hx₃⟩ | ⟨e, he, -⟩⟩ := runs_transaction ht
    · rw [hx₂] at hs
      rcases placer_auto hauto (by rw [hbloc]; rfl) (by rw [hb]; rfl) hs with
        ⟨n, now, -, hleast, rfl⟩ | ⟨⟨e, hx⟩, -⟩
      · have hg := runs_auto hg
        rw [hx₃] at hg
        obtain ⟨⟨shape, hshape⟩, hy⟩ := getBlock_placed he.bloc hg
        exact .inl ⟨shape, n, now, hshape, hleast, hy⟩
      · cases hx
    · cases he
  · obtain ⟨s, hs, -⟩ := runs_transaction ht
    rw [hx₂] at hs
    rcases placer_auto hauto (by rw [hbloc]; rfl) (by rw [hb]; rfl) hs with
      ⟨n, now, hx, -⟩ | ⟨-, hfull⟩
    · cases hx
    · exact .inr ⟨⟨e, rfl⟩, hfull⟩

end Assign

/-- **The choice of a room.** Where every room is within its capacity, an eligible booking without a
number gets a place exactly if a room is free for it, and then in the lowest such room; a request
that is refused changes nothing. -/
theorem assign_choice (x : TxState sig Unit Store Env Key) (hbound : Bounded x.db) :
    (∀ ownerId blockId dto complet r y, dto.roomNumber = none →
      Eligible x.db ownerId blockId dto.bookingId complet →
      sessions.Runs (RoomsService.assign () ownerId blockId dto) x r y →
      ((∃ v, r = .ok v) ↔ ∃ n, Libre x.db blockId complet.bloc dto.bookingId n) ∧
        ∀ v, r = .ok v → ∃ n, IsLeast {n | Libre x.db blockId complet.bloc dto.bookingId n} n ∧
          Placee blockId dto.bookingId n x.db y.db) ∧
      ∀ ownerId blockId dto e y,
        sessions.Runs (RoomsService.assign () ownerId blockId dto) x (.error e) y → y.db = x.db := by
  refine ⟨fun ownerId blockId dto complet r y hauto he h => ?_, fun _ _ _ _ _ h => assign_error h⟩
  rcases assign_auto hauto he h with ⟨v, n, now, rfl, hleast, hy⟩ | ⟨⟨e, rfl⟩, hfull⟩
  · refine ⟨iff_of_true ⟨v, rfl⟩ ⟨n, hleast.1⟩, fun _ _ => ⟨n, hleast, ?_⟩⟩
    rw [hy]
    exact upsert_placee (hbound.booking blockId dto.bookingId) n now
  · refine ⟨iff_of_false ?_ fun ⟨n, hn⟩ => hfull n hn, ?_⟩
    · rintro ⟨v, ⟨⟩⟩
    · rintro v ⟨⟩

/-- The two bookings share the only room of a block. -/
def Store.pleine : Store where
  app := { Db.exemple with bookings := List.replicate 2 Booking.exemple }
  roomBlocks := [some { agencyId := 0, packageId := 0, hotelName := "Hôtel", city := "La Mecque",
                        roomType := .double, roomCount := 1 }]
  roomAssignments := [⟨0, 0, 1, 0⟩, ⟨0, 1, 1, 0⟩]

theorem two_le_capacite (t : RoomType) : 2 ≤ capacite t := by cases t <;> decide

theorem Store.pleine_bounded : Bounded Store.pleine := by
  refine ⟨fun b bloc _ n => ?_, fun b k => ?_⟩
  · calc occupes Store.pleine b n ≤ (Store.pleine.ofBlock b).length := List.countP_le_length
      _ ≤ 2 := List.length_filter_le _ _
      _ ≤ capacite bloc.roomType := two_le_capacite bloc.roomType
  · rw [← countP_surPlace]
    simp only [Store.pleine, List.countP_cons, List.countP_nil, Store.surPlace, decide_eq_true_eq]
    split <;> split <;> grind

/-- A booking in a full block keeps its room. -/
theorem assign_choice_pleine : Bounded Store.pleine ∧ ∃ v y n,
    sessions.Runs (RoomsService.assign () 1 0 ⟨0, none, by rintro _ ⟨⟩⟩) { db := .pleine } (.ok v) y ∧
      Placee 0 0 n .pleine y.db := by
  have heligible : Eligible Store.pleine 1 0 0 _ := ⟨⟨⟨_, rfl⟩, rfl⟩, _, rfl, rfl, rfl, by decide⟩
  have hrun := Backend.eval_runs (B := sessions) ({} : Env)
    (RoomsService.assign () 1 0 ⟨0, none, by rintro _ ⟨⟩⟩) { db := Store.pleine }
  obtain ⟨hiff, hplace⟩ := (assign_choice { db := .pleine } Store.pleine_bounded).1 1 0
    ⟨0, none, by rintro _ ⟨⟩⟩ _ _ _ rfl heligible hrun
  obtain ⟨v, hv⟩ := hiff.mpr ⟨1, by decide, by decide⟩
  obtain ⟨n, -, hn⟩ := hplace v hv
  exact ⟨Store.pleine_bounded, v, _, n, hv ▸ hrun, hn⟩

end OumraHajj.Rooms
