import Mathlib.Data.List.Fold
import Mathlib.Data.List.MinMax
import OumraHajj.Rooms.Sequential

/-!
# Regular stores

What holds of the blocks, the bookings and the places in every run of the requests: the places are
within their rooms and of rows that exist, a booking is of an existing pilgrim, and bookings and
blocks are of the agency of their package (`Regulier`). `request_regulier` is the step.
-/

namespace OumraHajj.Rooms

open Async

/-- The agency of a package. -/
def agenceDe (app : Db) (id : PackageId) : Option AgencyId := (app.packages[id]?).map (·.agencyId)

/-- The bookings are of existing pilgrims, and of the agency of their package. -/
structure Liens (app : Db) : Prop where
  pilgrim : ∀ (k : BookingId) (b : Booking), app.bookings[k]? = some b →
    (app.users[b.pilgrimId]?).isSome
  agency : ∀ (k : BookingId) (b : Booking), app.bookings[k]? = some b →
    agenceDe app b.packageId = some b.agencyId

/-- The invariant (module doc). -/
structure Regulier (s : Store) : Prop where
  bounded : Bounded s
  ranged : Ranged s
  liens : Liens s.app
  bloc : ∀ id bloc, s.block id = some bloc → agenceDe s.app bloc.packageId = some bloc.agencyId
  place : ∀ a ∈ s.roomAssignments,
    (s.block a.roomBlockId).isSome ∧ (s.app.bookings[a.bookingId]?).isSome

/-- The pilgrim of a booking that the request creates is a user. -/
def Connu (s : Store) : BedRequest → Prop
  | .createBooking pilgrimId _ => (s.app.users[pilgrimId]?).isSome
  | _ => True

theorem regulier_of_empty {s : Store} (hb : s.app.bookings = []) (hr : s.roomBlocks = [])
    (ha : s.roomAssignments = []) : Regulier s where
  bounded := bounded_of_empty ha
  ranged := ranged_of_empty ha
  liens := by constructor <;> rw [hb] <;> rintro k b ⟨⟩
  bloc := by unfold Store.block; rw [hr]; rintro id bloc ⟨⟩
  place := by rw [ha]; rintro a ⟨⟩

/-! ## Packages and bookings -/

section App

variable {app : Db} {id : PackageId} {p p' : Package}

/-- A package keeps its agency. -/
theorem agenceDe_putPackage (hp : app.packages[id]? = some p) (ha : p'.agencyId = p.agencyId)
    (x : PackageId) : agenceDe (app.putPackage id p') x = agenceDe app x := by
  unfold agenceDe Db.putPackage
  rw [Table.get_set hp]
  split
  · subst_vars
    rw [hp, Option.map_some, Option.map_some, ha]
  · rfl

theorem Liens.putPackage (h : Liens app) (hp : app.packages[id]? = some p)
    (ha : p'.agencyId = p.agencyId) : Liens (app.putPackage id p') where
  pilgrim := h.pilgrim
  agency k b hb := by rw [agenceDe_putPackage hp ha]; exact h.agency k b hb

theorem Liens.append (h : Liens app) {b : Booking} (hu : (app.users[b.pilgrimId]?).isSome)
    (ha : agenceDe app b.packageId = some b.agencyId) :
    Liens { app with bookings := app.bookings ++ [b] } := by
  constructor <;> intro k b' hb'
  · rw [Table.get_append] at hb'
    split at hb'
    · obtain rfl := Option.some.inj hb'
      exact hu
    · exact h.pilgrim k b' hb'
  · rw [Table.get_append] at hb'
    split at hb'
    · obtain rfl := Option.some.inj hb'
      exact ha
    · exact h.agency k b' hb'

theorem Liens.putBooking (h : Liens app) {k : BookingId} {b b' : Booking}
    (hb : app.bookings[k]? = some b) (hu : b'.pilgrimId = b.pilgrimId)
    (hp : b'.packageId = b.packageId) (ha : b'.agencyId = b.agencyId) :
    Liens (app.putBooking k b') := by
  unfold Db.putBooking
  constructor <;> intro j c hc
  · rw [Table.get_set hb] at hc
    split at hc
    · obtain rfl := Option.some.inj hc
      rw [hu]
      exact h.pilgrim k b hb
    · exact h.pilgrim j c hc
  · rw [Table.get_set hb] at hc
    split at hc
    · obtain rfl := Option.some.inj hc
      rw [hp, ha]
      exact h.agency k b hb
    · exact h.agency j c hc

end App

/-! ## The step -/

section Step

variable {s : Store}

/-- What the other services change: no booking goes away, and every package keeps its agency. -/
theorem Regulier.of_app (h : Regulier s) {app : Db} (hl : Liens app)
    (ha : ∀ x, agenceDe app x = agenceDe s.app x)
    (hb : ∀ k : BookingId, (s.app.bookings[k]?).isSome → (app.bookings[k]?).isSome) :
    Regulier { s with app } where
  bounded := ⟨h.bounded.room, h.bounded.booking⟩
  ranged := h.ranged
  liens := hl
  bloc id bloc hbloc := by rw [ha]; exact h.bloc id bloc hbloc
  place a ha := (h.place a ha).imp id (hb _)

theorem isSome_append {α : Type} {t : Table α} {i : Nat} (h : (t[i]?).isSome) (x : α) :
    ((t ++ [x])[i]?).isSome := by
  rw [Table.get_append]
  split
  · rfl
  · exact h

theorem isSome_set {α : Type} {t : Table α} {i : Nat} {x y : α} (hi : t[i]? = some x) {j : Nat}
    (h : (t[j]?).isSome) : ((t.set i y)[j]?).isSome := by
  rw [Table.get_set hi]
  split
  · rfl
  · exact h

theorem create_regulier (h : Regulier s) {pilgrimId : UserId} {packageId : PackageId}
    {r : Except Erreur BookingShape} {app : Db}
    (hu : (s.app.users[pilgrimId]?).isSome)
    (hr : prisma.Runs (BookingsService.create pilgrimId packageId) s.app r app) :
    Regulier { s with app } ∧ app.users = s.app.users := by
  rcases create_row hr with ⟨-, rfl | ⟨p, hp, rfl⟩⟩ | ⟨p, b, hp, -, -, hb, rfl⟩
  · exact ⟨h, rfl⟩
  · exact ⟨h.of_app (h.liens.putPackage hp rfl) (agenceDe_putPackage hp rfl) fun _ hk => hk, rfl⟩
  · have hl : Liens (s.app.putPackage packageId p.reserved) := h.liens.putPackage hp rfl
    have hagency : ∀ x, agenceDe (s.app.putPackage packageId p.reserved) x = agenceDe s.app x :=
      agenceDe_putPackage hp rfl
    refine ⟨h.of_app (hl.append ?_ ?_) hagency fun k hk => isSome_append hk b, rfl⟩
    · rw [hb.pilgrim]
      exact hu
    · rw [hagency, hb.package, hb.agency, agenceDe, hp, Option.map_some]

theorem cancel_regulier (h : Regulier s) {pilgrimId : UserId} {id : BookingId}
    {r : Except Erreur BookingShape} {app : Db}
    (hr : prisma.Runs (BookingsService.cancel pilgrimId id) s.app r app) :
    Regulier { s with app } ∧ app.users = s.app.users := by
  rcases cancel_runs hr with ⟨-, rfl⟩ | ⟨b, p, hc, rfl⟩
  · exact ⟨h, rfl⟩
  · obtain ⟨hb, -, -, hp⟩ := Db.cancelled_eq_some.mp hc
    have hl : Liens (s.app.putPackage b.packageId p.released) := h.liens.putPackage hp rfl
    exact ⟨h.of_app (hl.putBooking hb rfl rfl rfl) (agenceDe_putPackage hp rfl)
      fun k hk => isSome_set hb hk, rfl⟩

/-- A new block has no place yet. -/
theorem createBlock_regulier (h : Regulier s) {data : RoomBlock} {p : Package}
    (hp : s.app.packages[data.packageId]? = some p) (ha : p.agencyId = data.agencyId) :
    Regulier { s with roomBlocks := s.roomBlocks ++ [some data] } := by
  have hblock : ∀ b, Store.block { s with roomBlocks := s.roomBlocks ++ [some data] } b =
      if b = s.roomBlocks.length then some data else s.block b := Table.row_append _ _
  have hnone : s.ofBlock s.roomBlocks.length = [] := by
    refine List.filter_eq_nil_iff.mpr fun a hmem hid => ?_
    obtain ⟨bloc, hbloc⟩ := Option.isSome_iff_exists.mp (h.place a hmem).1
    have := Table.lt_of_get (Table.get_of_row hbloc)
    rw [of_decide_eq_true hid] at this
    exact lt_irrefl _ this
  refine ⟨⟨fun b bloc hb n => ?_, h.bounded.booking⟩, fun b bloc hb a hmem => ?_, h.liens,
    fun b bloc hb => ?_, fun a hmem => (h.place a hmem).imp (fun hsome => ?_) id⟩
  · rw [hblock] at hb
    split at hb
    · subst_vars
      show (s.ofBlock _).countP _ ≤ _
      rw [hnone]
      exact Nat.zero_le _
    · exact h.bounded.room b bloc hb n
  · rw [hblock] at hb
    split at hb
    · subst_vars
      have hmem : a ∈ s.ofBlock s.roomBlocks.length := hmem
      rw [hnone] at hmem
      cases hmem
    · exact h.ranged b bloc hb a hmem
  · rw [hblock] at hb
    split at hb
    · obtain rfl := Option.some.inj hb
      show (Option.map _ (s.app.packages[data.packageId]?)) = _
      rw [hp, Option.map_some, ha]
    · exact h.bloc b bloc hb
  · rw [hblock]
    split
    · rfl
    · exact hsome

theorem Regulier.pilgrimOf (h : Regulier s) {a : RoomAssignment} (ha : a ∈ s.roomAssignments) :
    ∃ name, s.pilgrimOf a.bookingId = some name := by
  obtain ⟨b, hb⟩ := Option.isSome_iff_exists.mp (h.place a ha).2
  obtain ⟨u, hu⟩ := Option.isSome_iff_exists.mp (h.liens.pilgrim _ b hb)
  exact ⟨u.fullName, by rw [Store.pilgrimOf, hb, Option.bind_some, hu, Option.map_some]⟩

/-- Every place of a block is shown. -/
theorem Regulier.assignments (h : Regulier s) {id : RoomBlockId} {bloc : RoomBlock}
    {complet : BlocComplet} (hc : s.complet id bloc = some complet) :
    (complet.assignments.map Prod.fst).Perm (s.ofBlock id) := by
  obtain ⟨package, -, rfl⟩ := Option.map_eq_some_iff.mp hc
  refine ((List.perm_insertionSort _ _).map _).trans (List.Perm.of_eq ?_)
  rw [List.map_filterMap]
  refine (List.filterMap_congr fun a ha => ?_).trans (List.filterMap_some)
  obtain ⟨name, hname⟩ := h.pilgrimOf (List.mem_filter.mp ha).1
  rw [hname, Option.map_some, Option.map_some]

/-- The last occupied room bounds all of them: every place is shown. -/
theorem Regulier.inRange (h : Regulier s) {id : RoomBlockId} {bloc : RoomBlock} {complet : BlocComplet}
    {dto : RoomBlockUpdate} (hc : s.complet id bloc = some complet)
    (hocc : dto.roomCount.any (· < RoomsService.derniereOccupee complet) = false) :
    InRange (.inr (.roomBlockUpdate id dto)) s := by
  intro n hn a ha
  have hle : RoomsService.derniereOccupee complet ≤ n := by
    rw [Option.mem_def.mp hn] at hocc
    simpa using hocc
  obtain ⟨x, hx, rfl⟩ := List.mem_map.mp ((h.assignments hc).mem_iff.mpr ha)
  refine le_trans ?_ hle
  rw [RoomsService.derniereOccupee, List.foldl_eq_foldr]
  exact List.le_max_of_le (List.mem_map.mpr ⟨x, hx, rfl⟩) le_rfl

/-- What changes the blocks and the places only, and keeps what they refer to. -/
theorem Regulier.of_inv (h : Regulier s) {s' : Store} (happ : s'.app = s.app)
    (hi : (discipline True).inv s')
    (hb : ∀ id bloc', s'.block id = some bloc' → ∃ bloc, s.block id = some bloc ∧
      bloc'.packageId = bloc.packageId ∧ bloc'.agencyId = bloc.agencyId)
    (hsome : ∀ id, (s.block id).isSome → (s'.block id).isSome)
    (ha : ∀ a ∈ s'.roomAssignments, (s.block a.roomBlockId).isSome ∧
      (s.app.bookings[a.bookingId]?).isSome) : Regulier s' := by
  refine ⟨hi.1, hi.2 trivial, happ ▸ h.liens, fun id bloc' hbloc' => ?_, fun a hmem => ?_⟩
  · obtain ⟨bloc, hbloc, hpackage, hagency⟩ := hb id bloc' hbloc'
    rw [happ, hpackage, hagency]
    exact h.bloc id bloc hbloc
  · rw [happ]
    exact (ha a hmem).imp_left (hsome _)

theorem updateBlock_regulier (h : Regulier s) {id : RoomBlockId} {bloc : RoomBlock}
    {complet : BlocComplet} {dto : RoomBlockUpdate} (hb : s.block id = some bloc)
    (hc : s.complet id bloc = some complet)
    (hocc : dto.roomCount.any (· < RoomsService.derniereOccupee complet) = false) :
    Regulier { s with roomBlocks := s.roomBlocks.set id (some (dto.apply bloc)) } := by
  have hx : (backend.exec (.inr (.roomBlockUpdate id dto)) {} s).2 =
      { s with roomBlocks := s.roomBlocks.set id (some (dto.apply bloc)) } := by
    simp only [backend, exec, hb]
  have hblock : ∀ b, Store.block { s with roomBlocks := s.roomBlocks.set id (some (dto.apply bloc)) } b =
      if id = b then some (dto.apply bloc) else s.block b := Table.row_set hb _
  have hkeeps := roomBlockUpdate_keeps (e := {}) ⟨h.bounded, fun _ : True => h.ranged⟩
    fun _ => h.inRange hc hocc
  rw [hx] at hkeeps
  refine h.of_inv rfl hkeeps.1 (fun b bloc' hb' => ?_) (fun b hsome => ?_) h.place
  · rw [hblock] at hb'
    split at hb'
    · subst_vars
      obtain rfl := Option.some.inj hb'
      exact ⟨bloc, hb, rfl, rfl⟩
    · exact ⟨bloc', hb', rfl, rfl⟩
  · rw [hblock]
    split
    · rfl
    · exact hsome

theorem assign_regulier (h : Regulier s) {blockId : RoomBlockId} {k : BookingId} {bloc : RoomBlock}
    {booking : Booking} {n : Nat} {now : Time} (hb : s.block blockId = some bloc)
    (hk : s.app.bookings[k]? = some booking) (hn : 1 ≤ n ∧ n ≤ bloc.roomCount)
    (hfree : autres s blockId k n < capacite bloc.roomType) :
    Regulier { s with roomAssignments := Store.upsert s.roomAssignments blockId k n now } := by
  have hx : (exec (.roomAssignmentUpsert blockId k n) { now } s).2 =
      { s with roomAssignments := Store.upsert s.roomAssignments blockId k n now } := by
    simp only [exec, hb, hk]
  have hverrou : Verrou blockId (fun _ => True) s (∀ bloc, s.block blockId = some bloc →
      autres s blockId k n + 1 ≤ capacite bloc.roomType ∧ (True → 1 ≤ n ∧ n ≤ bloc.roomCount)) := by
    refine .inr ⟨trivial, fun bloc' hb' => ?_⟩
    obtain rfl := Option.some.inj (hb.symm.trans hb')
    exact ⟨hfree, fun _ => hn⟩
  obtain ⟨hi, -⟩ := ecrit_commits (e := { now }) ⟨h.bounded, fun _ : True => h.ranged⟩ hverrou
  rw [hx] at hi
  refine h.of_inv rfl hi (fun b bloc' hb' => ⟨bloc', hb', rfl, rfl⟩) (fun _ => id) fun a ha => ?_
  rcases mem_upsert ha with rfl | ⟨a₀, ha₀, hblock, hbooking⟩
  · exact ⟨by rw [hb]; rfl, by rw [hk]; rfl⟩
  · rw [← hblock, ← hbooking]
    exact h.place a₀ ha₀

theorem unassign_regulier (h : Regulier s) (blockId : RoomBlockId) (k : BookingId) :
    Regulier { s with
      roomAssignments := s.roomAssignments.filter fun a => !Store.surPlace blockId k a } :=
  h.of_inv rfl (roomAssignmentDeleteMany_keeps (e := {}) ⟨h.bounded, fun _ : True => h.ranged⟩).1
    (fun _ bloc' hb' => ⟨bloc', hb', rfl, rfl⟩) (fun _ => id)
    fun a ha => h.place a (List.mem_filter.mp ha).1

/-- **Every request keeps the store regular**, and the users. -/
theorem request_regulier {x y : TxState sig Unit Store Env Key} {q : BedRequest}
    {r : Except Erreur Unit} (h : sessions.Runs q.handler x r y) (hx : Regulier x.db)
    (hq : Connu x.db q) : Regulier y.db ∧ y.db.app.users = x.db.app.users := by
  cases q with
  | createBooking pilgrimId packageId =>
    obtain ⟨r', h⟩ := Backend.runs_void h
    obtain ⟨app, ha, hy⟩ := runs_left (runs_auto h)
    rw [hy]
    exact create_regulier hx hq ha
  | cancelBooking pilgrimId bookingId =>
    obtain ⟨r', h⟩ := Backend.runs_void h
    obtain ⟨app, ha, hy⟩ := runs_left (runs_auto h)
    rw [hy]
    exact cancel_regulier hx ha
  | createBlock ownerId dto =>
    obtain ⟨r', h⟩ := Backend.runs_void h
    rcases createBlock_row (runs_auto h) with hy | ⟨data, p, hp, hagency, hy⟩
    · rw [hy]
      exact ⟨hx, rfl⟩
    · rw [hy]
      exact ⟨createBlock_regulier hx hp hagency, rfl⟩
  | updateBlock ownerId id dto =>
    obtain ⟨r', h⟩ := Backend.runs_void h
    rcases updateBlock_runs (runs_auto h) with hy | ⟨bloc, complet, hb, hc, hocc, hy⟩
    · rw [hy]
      exact ⟨hx, rfl⟩
    · rw [hy]
      exact ⟨updateBlock_regulier hx hb hc hocc, rfl⟩
  | assign ownerId blockId dto =>
    obtain ⟨r', h⟩ := Backend.runs_void h
    have heffect := assign_effect h
    clear h
    generalize y.db = s' at heffect ⊢
    cases heffect with
    | rien => exact ⟨hx, rfl⟩
    | place bloc booking n now hb hk hforfait hactive hn hfree =>
      exact ⟨assign_regulier hx hb hk hn hfree, rfl⟩
  | unassign ownerId blockId bookingId =>
    obtain ⟨r', h⟩ := Backend.runs_void h
    rcases unassign_runs (runs_auto h) with hy | hy
    · rw [hy]
      exact ⟨hx, rfl⟩
    · rw [hy]
      exact ⟨unassign_regulier hx blockId bookingId, rfl⟩

end Step

/-- **Every store reached is regular.** -/
theorem regulier_run {x : TxState sig Unit Store Env Key}
    {tr : Trace BedRequest (TxState sig Unit Store Env Key)} (h₀ : Regulier x.db)
    (hr : sessions.Run BedRequest.handler x tr) (hq : ∀ y ∈ tr, Connu x.db y.1) :
    ∀ y ∈ tr, Regulier y.2.db := by
  have hstep : ∀ y q r z, Regulier y.db ∧ y.db.app.users = x.db.app.users → Connu x.db q → True →
      sessions.Runs (BedRequest.handler q) y r z →
      (Regulier z.db ∧ z.db.app.users = x.db.app.users) ∧ Regulier z.db := by
    rintro y q r z ⟨hy, husers⟩ hconnu - h
    have hconnu : Connu y.db q := by
      cases q with
      | createBooking pilgrimId packageId =>
        show (y.db.app.users[pilgrimId]?).isSome
        rw [husers]
        exact hconnu
      | _ => trivial
    obtain ⟨hz, husers'⟩ := request_regulier h hy hconnu
    exact ⟨⟨hz, husers'.trans husers⟩, hz⟩
  have hsteps := (hr.steps (A := Connu x.db) (C := fun _ _ _ => True) hstep hq ⟨h₀, rfl⟩
    (Trace.steps_after.mpr fun _ _ => trivial)).1
  exact Trace.steps_after.mp hsteps

end OumraHajj.Rooms
