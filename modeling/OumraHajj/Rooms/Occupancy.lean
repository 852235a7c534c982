import OumraHajj.Rooms.Place
import OumraHajj.Rooms.Service

/-!
# Occupancy of the rooms

Under any interleaving of `assign`, `unassign`, `updateBlock` and `deleteBlock`, no room holds more
bookings than its capacity, and a booking has one place in a block (`rooms_bounded`). The lock of the
block covers the count and the write: who holds it may add places of the block, the others only
remove some (`Guar`). The type of a block never changes, so the capacity that `assign` reads before
its transaction is still the one of the block.

The same discipline carries the range of the room numbers (`strict`), which needs a condition on the
schedule (`InRange`): `assign` checks its room against a `roomCount` read before the lock, and
`updateBlock` checks its `roomCount` against rooms read before its update.
-/

namespace OumraHajj.Rooms

open Async

/-- The places in a room. -/
def occupes (s : Store) (b : RoomBlockId) (n : Nat) : Nat :=
  (s.ofBlock b).countP (·.roomNumber = n)

/-- The places of a booking in a block. -/
def placesDe (s : Store) (b : RoomBlockId) (k : BookingId) : Nat :=
  (s.ofBlock b).countP (·.bookingId = k)

/-- The places of the other bookings in a room. -/
def autres (s : Store) (b : RoomBlockId) (k : BookingId) (n : Nat) : Nat :=
  (s.ofBlock b).countP fun a => a.bookingId ≠ k ∧ a.roomNumber = n

/-- Every room of every block is within its capacity, and each booking has at most one place in a
block. -/
structure Bounded (s : Store) : Prop where
  room : ∀ b bloc, s.block b = some bloc → ∀ n, occupes s b n ≤ capacite bloc.roomType
  booking : ∀ b k, placesDe s b k ≤ 1

/-- Every place of an existing block is in one of its rooms. -/
def Ranged (s : Store) : Prop :=
  ∀ b bloc, s.block b = some bloc → ∀ a ∈ s.ofBlock b, 1 ≤ a.roomNumber ∧
    a.roomNumber ≤ bloc.roomCount

/-- What the holder of the locks `h` may do to the blocks and the places. -/
structure Guar (h : Key → Prop) (s s' : Store) : Prop where
  type : ∀ b bloc', s'.block b = some bloc' → ∃ bloc, s.block b = some bloc ∧
    bloc'.roomType = bloc.roomType
  block : ∀ b, ¬ h (.block b) → s'.block b = s.block b
  places : ∀ b, ¬ h (.block b) → (s'.ofBlock b).Sublist (s.ofBlock b)

/-- The points of the transaction of `assign`. -/
inductive Ph where
  | debut
  | verrou (b : RoomBlockId)
  | compte (b : RoomBlockId) (k : BookingId) (places : List Nat)
  | ecrit (b : RoomBlockId) (k : BookingId) (n : Nat)

/-- The transaction has written nothing. -/
def Silent (log : List (sig.Stmt × Env)) : Prop := ∀ s, backend.replay log s = s

/-- The lock of the block is held and `P` holds, or there is no such block. -/
def Verrou (b : RoomBlockId) (h : Key → Prop) (s : Store) (P : Prop) : Prop :=
  s.block b = none ∨ h (.block b) ∧ P

/-- What each point of the transaction knows (module doc). -/
def Ph.holds (strict : Prop) : Ph → (Key → Prop) → List (sig.Stmt × Env) → Store → Prop
  | .debut, _, log, _ => Silent log
  | .verrou b, h, log, s => Silent log ∧ Verrou b h s True
  | .compte b k places, h, log, s =>
    Silent log ∧ Verrou b h s (∀ n, autres s b k n ≤ places.count n)
  | .ecrit b k n, h, log, s =>
    (∃ e, ∀ s, backend.replay log s = (exec (.roomAssignmentUpsert b k n) e s).2) ∧
      Verrou b h s (∀ bloc, s.block b = some bloc → autres s b k n + 1 ≤ capacite bloc.roomType ∧
        (strict → 1 ≤ n ∧ n ≤ bloc.roomCount))

theorem autres_le {s s' : Store} {b : RoomBlockId} (h : (s'.ofBlock b).Sublist (s.ofBlock b))
    (k : BookingId) (n : Nat) : autres s' b k n ≤ autres s b k n := h.countP_le

theorem occupes_le {s s' : Store} {b : RoomBlockId} (h : (s'.ofBlock b).Sublist (s.ofBlock b))
    (n : Nat) : occupes s' b n ≤ occupes s b n := h.countP_le

theorem placesDe_le {s s' : Store} {b : RoomBlockId} (h : (s'.ofBlock b).Sublist (s.ofBlock b))
    (k : BookingId) : placesDe s' b k ≤ placesDe s b k := h.countP_le

theorem Guar.none {h : Key → Prop} {s s' : Store} (hg : Guar h s s') {b : RoomBlockId}
    (hb : s.block b = none) : s'.block b = none := by
  cases hs : s'.block b with
  | none => rfl
  | some bloc' =>
    obtain ⟨bloc, hbloc, -⟩ := hg.type b bloc' hs
    rw [hb] at hbloc
    cases hbloc

theorem Guar.refl (h : Key → Prop) (s : Store) : Guar h s s where
  type _ bloc' hb := ⟨bloc', hb, rfl⟩
  block _ _ := rfl
  places _ _ := List.Sublist.refl _

/-- What is known under the lock of a block is stable if it is under what adds no place to the block
and does not change it. -/
theorem Guar.verrou {h h' : Key → Prop} {s s' : Store} {b : RoomBlockId} {P P' : Prop}
    (hg : Guar h' s s') (hd : ∀ k, h k → ¬ h' k) (hv : Verrou b h s P)
    (hP : s'.block b = s.block b → (s'.ofBlock b).Sublist (s.ofBlock b) → P → P') :
    Verrou b h s' P' := by
  rcases hv with hb | ⟨hb, hp⟩
  · exact .inl (hg.none hb)
  · exact .inr ⟨hb, hP (hg.block b (hd _ hb)) (hg.places b (hd _ hb)) hp⟩

/-- Only the holder of its lock changes a block or adds places to it. -/
theorem Ph.holds_stable {strict : Prop} {p : Ph} {h h' : Key → Prop} {log : List (sig.Stmt × Env)}
    {s s' : Store} (hp : p.holds strict h log s) (hg : Guar h' s s') (hd : ∀ k, h k → ¬ h' k) :
    p.holds strict h log s' := by
  cases p with
  | debut => exact hp
  | verrou b => exact ⟨hp.1, hg.verrou hd hp.2 fun _ _ _ => trivial⟩
  | compte b k places =>
    refine ⟨hp.1, hg.verrou hd hp.2 fun _ hsub hle n => ?_⟩
    exact le_trans (autres_le hsub k n) (hle n)
  | ecrit b k n =>
    refine ⟨hp.1, hg.verrou hd hp.2 fun hblock hsub hbloc bloc hs => ?_⟩
    obtain ⟨hc, hr⟩ := hbloc bloc (by rw [← hblock, hs])
    have := autres_le hsub k n
    exact ⟨by omega, hr⟩

/-- What `assign` has read of the block before its transaction. -/
def knows (n : Option (RoomBlockId × RoomType)) (s : Store) : Prop :=
  ∀ x ∈ n, ∀ bloc, s.block x.1 = some bloc → bloc.roomType = x.2

theorem knows_stable {n : Option (RoomBlockId × RoomType)} {h : Key → Prop} {s s' : Store}
    (hn : knows n s) (hg : Guar h s s') : knows n s' := by
  intro x hx bloc' hb
  obtain ⟨bloc, hbloc, ht⟩ := hg.type x.1 bloc' hb
  rw [ht]
  exact hn x hx bloc hbloc

/-- The discipline of the places (module doc). -/
def discipline (strict : Prop) : Discipline sig Store Env Key where
  Ph := Ph
  Kn := Option (RoomBlockId × RoomType)
  inv s := Bounded s ∧ (strict → Ranged s)
  knows := knows
  holds := Ph.holds strict
  guar := Guar
  knows_stable _ hn hg := knows_stable hn hg
  holds_stable _ hp hg hd := Ph.holds_stable hp hg hd

/-- No block is cut below a room that is occupied, and no place is given in a room that the block
does not have, at the time of the statement. -/
def InRange : sig.Stmt → Store → Prop
  | .inr (.roomBlockUpdate id data), s => ∀ n ∈ data.roomCount, ∀ a ∈ s.ofBlock id, a.roomNumber ≤ n
  | .inr (.roomAssignmentUpsert b _ n), s => ∀ bloc ∈ s.block b, n ≤ bloc.roomCount
  | _, _ => True

/-! ## The statements -/

theorem Guar.of_eq {h : Key → Prop} {s s' : Store} (hb : s'.roomBlocks = s.roomBlocks)
    (ha : s'.roomAssignments = s.roomAssignments) : Guar h s s' := by
  have hblock : ∀ b, s'.block b = s.block b := fun b => by rw [Store.block, hb, Store.block]
  have hof : ∀ b, s'.ofBlock b = s.ofBlock b := fun b => by rw [Store.ofBlock, ha, Store.ofBlock]
  exact ⟨fun b bloc' hs => ⟨bloc', by rw [← hblock, hs], rfl⟩, fun b _ => hblock b,
    fun b _ => by rw [hof]⟩

/-- Blocks that keep their type and their number of rooms, and places that only become fewer, keep
the invariant. -/
theorem inv_of_fewer {strict : Prop} {s s' : Store} (hi : (discipline strict).inv s)
    (ht : ∀ b bloc', s'.block b = some bloc' → ∃ bloc, s.block b = some bloc ∧
      bloc'.roomType = bloc.roomType)
    (hc : strict → ∀ b bloc', s'.block b = some bloc' → ∀ a ∈ s'.ofBlock b,
      a.roomNumber ≤ bloc'.roomCount)
    (hp : ∀ b, (s'.ofBlock b).Sublist (s.ofBlock b)) : (discipline strict).inv s' := by
  obtain ⟨⟨hroom, hbooking⟩, hrange⟩ := hi
  refine ⟨⟨fun b bloc' hs n => ?_, fun b k => le_trans (placesDe_le (hp b) k) (hbooking b k)⟩,
    fun hstrict b bloc' hs a ha => ⟨?_, hc hstrict b bloc' hs a ha⟩⟩
  · obtain ⟨bloc, hbloc, htype⟩ := ht b bloc' hs
    rw [htype]
    exact le_trans (occupes_le (hp b) n) (hroom b bloc hbloc n)
  · obtain ⟨bloc, hbloc, -⟩ := ht b bloc' hs
    exact (hrange hstrict b bloc hbloc a ((hp b).subset ha)).1

/-- What every statement outside of a transaction does: the invariant is kept, within the guarantee
of its locks. -/
def Keeps (strict : Prop) (c : sig.Stmt) (s s' : Store) : Prop :=
  (discipline strict).inv s' ∧ Guar (· ∈ locks c s) s s'

theorem Keeps.of_eq {strict : Prop} {c : sig.Stmt} {s s' : Store} (hi : (discipline strict).inv s)
    (hb : s'.roomBlocks = s.roomBlocks) (ha : s'.roomAssignments = s.roomAssignments) :
    Keeps strict c s s' := by
  have hg : Guar (fun _ => False) s s' := .of_eq hb ha
  refine ⟨inv_of_fewer hi hg.type ?_ fun b => hg.places b id, .of_eq hb ha⟩
  intro hstrict b bloc' hs a ha'
  rw [hg.block b id] at hs
  exact (hi.2 hstrict b bloc' hs a ((hg.places b id).subset ha')).2

theorem roomBlockUpdate_keeps {strict : Prop} {id : RoomBlockId} {data : RoomBlockUpdate} {e : Env}
    {s : Store} (hi : (discipline strict).inv s)
    (hfit : strict → InRange (.inr (.roomBlockUpdate id data)) s) :
    Keeps strict (.inr (.roomBlockUpdate id data)) s
      (backend.exec (.inr (.roomBlockUpdate id data)) e s).2 := by
  rcases hid : s.block id with - | bloc
  · have hs : (backend.exec (.inr (.roomBlockUpdate id data)) e s).2 = s := by
      simp only [backend, exec, hid]
    exact .of_eq hi (by rw [hs]) (by rw [hs])
  have hs : (backend.exec (.inr (.roomBlockUpdate id data)) e s).2 =
      { s with roomBlocks := s.roomBlocks.set id (some (data.apply bloc)) } := by
    simp only [backend, exec, hid]
  have hblock : ∀ b, Store.block { s with roomBlocks := s.roomBlocks.set id (some (data.apply bloc)) } b =
      if id = b then some (data.apply bloc) else s.block b := Table.row_set hid _
  rw [hs]
  have htype : ∀ b bloc', Store.block
      { s with roomBlocks := s.roomBlocks.set id (some (data.apply bloc)) } b = some bloc' →
      ∃ bloc, s.block b = some bloc ∧ bloc'.roomType = bloc.roomType := by
    intro b bloc' h
    rw [hblock] at h
    split at h
    · subst_vars; cases h; exact ⟨bloc, hid, rfl⟩
    · exact ⟨bloc', h, rfl⟩
  refine ⟨inv_of_fewer hi htype ?_ fun _ => List.Sublist.refl _, htype, ?_,
    fun _ _ => List.Sublist.refl _⟩
  · intro hstrict b bloc' h a ha
    rw [hblock] at h
    split at h
    · subst_vars
      cases h
      show a.roomNumber ≤ data.roomCount.getD bloc.roomCount
      cases hn : data.roomCount with
      | none => exact (hi.2 hstrict _ bloc hid a ha).2
      | some n => exact hfit hstrict n (by rw [hn]; rfl) a ha
    · exact (hi.2 hstrict b bloc' h a ha).2
  · intro b hb
    rw [hblock]
    split
    · subst_vars
      exact absurd (by simp [locks, hid]) hb
    · rfl

theorem ofBlock_filter (s : Store) (P : RoomAssignment → Bool) (b : RoomBlockId) :
    (Store.ofBlock { s with roomAssignments := s.roomAssignments.filter P } b).Sublist
      (s.ofBlock b) := List.filter_sublist.filter _

theorem roomBlockDelete_keeps {strict : Prop} {id : RoomBlockId} {e : Env} {s : Store}
    (hi : (discipline strict).inv s) :
    Keeps strict (.inr (.roomBlockDelete id)) s
      (backend.exec (.inr (.roomBlockDelete id)) e s).2 := by
  rcases hid : s.block id with - | bloc
  · have hs : (backend.exec (.inr (.roomBlockDelete id)) e s).2 = s := by
      simp only [backend, exec, hid]
    exact .of_eq hi (by rw [hs]) (by rw [hs])
  have hs : (backend.exec (.inr (.roomBlockDelete id)) e s).2 =
      { s with
        roomBlocks := s.roomBlocks.set id none
        roomAssignments := s.roomAssignments.filter (·.roomBlockId ≠ id) } := by
    simp only [backend, exec, hid]
  generalize (backend.exec (.inr (.roomBlockDelete id)) e s).2 = s' at hs ⊢
  have hblock : ∀ b, s'.block b = if id = b then none else s.block b := by
    rw [hs]; exact Table.row_set hid _
  have hsub : ∀ b, (s'.ofBlock b).Sublist (s.ofBlock b) := by
    rw [hs]; exact ofBlock_filter s _
  have hsame : ∀ b bloc', s'.block b = some bloc' → s.block b = some bloc' := by
    intro b bloc' h
    rw [hblock] at h
    split at h
    · cases h
    · exact h
  refine ⟨inv_of_fewer hi (fun b bloc' h => ⟨bloc', hsame b bloc' h, rfl⟩) ?_ hsub,
    fun b bloc' h => ⟨bloc', hsame b bloc' h, rfl⟩, ?_, fun b _ => hsub b⟩
  · intro hstrict b bloc' h a ha
    exact (hi.2 hstrict b bloc' (hsame b bloc' h) a ((hsub b).subset ha)).2
  · intro b hb
    rw [hblock]
    split
    · subst_vars
      exact absurd (by simp [locks, hid]) hb
    · rfl

theorem roomAssignmentDeleteMany_keeps {strict : Prop} {b : RoomBlockId} {k : BookingId} {e : Env}
    {s : Store} (hi : (discipline strict).inv s) :
    Keeps strict (.inr (.roomAssignmentDeleteMany b k)) s
      (backend.exec (.inr (.roomAssignmentDeleteMany b k)) e s).2 := by
  have hsub := ofBlock_filter s fun a => !Store.surPlace b k a
  refine ⟨inv_of_fewer hi (fun b bloc h => ⟨bloc, h, rfl⟩) ?_ hsub, fun b bloc h => ⟨bloc, h, rfl⟩,
    fun _ _ => rfl, fun b _ => hsub b⟩
  intro hstrict b bloc h a ha
  exact (hi.2 hstrict b bloc h a ((hsub b).subset ha)).2

/-- The statements that change neither the blocks nor the places. -/
def quiet : sig.Stmt → Bool
  | .inl _ => true
  | .inr (.roomBlockCreate _) => false
  | .inr (.roomBlockUpdate _ _) => false
  | .inr (.roomBlockDelete _) => false
  | .inr (.roomAssignmentUpsert _ _ _) => false
  | .inr (.roomAssignmentDeleteMany _ _) => false
  | .inr _ => true

theorem quiet_eq {c : sig.Stmt} (h : quiet c = true) (e : Env) (s : Store) :
    (backend.exec c e s).2.roomBlocks = s.roomBlocks ∧
      (backend.exec c e s).2.roomAssignments = s.roomAssignments := by
  rcases c with c | c
  · exact ⟨rfl, rfl⟩
  · cases c <;> first | exact ⟨rfl, rfl⟩ | cases h

/-- The statements of these requests outside of the transaction. -/
def Dehors : sig.Stmt → Prop
  | .inr (.roomBlockCreate _) => False
  | .inr (.roomAssignmentUpsert _ _ _) => False
  | _ => True

/-- Every such statement keeps the invariant, within the guarantee of its locks. -/
theorem exec_keeps {strict : Prop} {c : sig.Stmt} (hc : Dehors c)
    {e : Env} {s : Store} (hi : (discipline strict).inv s) (hfit : strict → InRange c s) :
    Keeps strict c s (backend.exec c e s).2 := by
  by_cases hq : quiet c = true
  · exact .of_eq hi (quiet_eq hq e s).1 (quiet_eq hq e s).2
  rcases c with c | c
  · exact absurd rfl hq
  cases c with
  | roomBlockUpdate id data => exact roomBlockUpdate_keeps hi hfit
  | roomBlockDelete id => exact roomBlockDelete_keeps hi
  | roomAssignmentDeleteMany b k => exact roomAssignmentDeleteMany_keeps hi
  | roomBlockCreate data => exact hc.elim
  | roomAssignmentUpsert b k n => exact hc.elim
  | roomBlockFindUnique _ => exact absurd rfl hq
  | roomBlockLock _ => exact absurd rfl hq
  | roomAssignmentFindMany _ _ => exact absurd rfl hq
  | bookingFindManyActive _ _ => exact absurd rfl hq

/-! ## The transaction -/

/-- The commit of a place: the invariant is kept, within the guarantee of the lock of the block. -/
theorem ecrit_commits {strict : Prop} {b : RoomBlockId} {k : BookingId} {n : Nat} {e : Env}
    {h : Key → Prop} {s : Store} (hi : (discipline strict).inv s)
    (hv : Verrou b h s (∀ bloc, s.block b = some bloc → autres s b k n + 1 ≤ capacite bloc.roomType ∧
      (strict → 1 ≤ n ∧ n ≤ bloc.roomCount))) :
    (discipline strict).inv (exec (.roomAssignmentUpsert b k n) e s).2 ∧
      Guar h s (exec (.roomAssignmentUpsert b k n) e s).2 := by
  have hunchanged (hs : (exec (.roomAssignmentUpsert b k n) e s).2 = s) :
      (discipline strict).inv (exec (.roomAssignmentUpsert b k n) e s).2 ∧
        Guar h s (exec (.roomAssignmentUpsert b k n) e s).2 := by
    rw [hs]; exact ⟨hi, .refl h s⟩
  rcases hv with hb | ⟨hlock, hbloc⟩
  · exact hunchanged (by simp only [exec, hb])
  rcases hb : s.block b with - | bloc
  · exact hunchanged (by simp only [exec, hb])
  rcases hk : s.app.bookings[k]? with - | reservation
  · exact hunchanged (by simp only [exec, hb, hk])
  have hs : (exec (.roomAssignmentUpsert b k n) e s).2 =
      { s with roomAssignments := Store.upsert s.roomAssignments b k n e.now } := by
    simp only [exec, hb, hk]
  generalize (exec (.roomAssignmentUpsert b k n) e s).2 = s' at hs ⊢
  have hblock : ∀ b', s'.block b' = s.block b' := by intro b'; rw [hs]; rfl
  have hof : ∀ b', b' ≠ b → s'.ofBlock b' = s.ofBlock b' := by
    intro b' hne; rw [hs]; exact upsert_ofBlock_ne hne
  have hw : Written b k n e.now (s.ofBlock b) (s'.ofBlock b) := by rw [hs]; exact upsert_written
  have hl : ∀ a ∈ s.ofBlock b, a.roomBlockId = b := by
    intro a ha; simpa using List.of_mem_filter ha
  obtain ⟨⟨hroom, hbooking⟩, hrange⟩ := hi
  obtain ⟨hfree, hin⟩ := hbloc bloc hb
  refine ⟨⟨⟨fun b' bloc' hs' m => ?_, fun b' k' => ?_⟩, fun hstrict b' bloc' hs' a ha => ?_⟩,
    fun b' bloc' hs' => ⟨bloc', by rw [← hblock, hs'], rfl⟩, fun b' _ => hblock b', fun b' hb' => ?_⟩
  · rw [hblock] at hs'
    by_cases hne : b' = b
    · subst hne
      obtain rfl : bloc = bloc' := Option.some.inj (hb.symm.trans hs')
      exact hw.occupes hl (hbooking b') hfree (hroom b' bloc hb) m
    · rw [occupes, hof b' hne]; exact hroom b' bloc' hs' m
  · by_cases hne : b' = b
    · subst hne; exact hw.booking (hbooking b') k'
    · rw [placesDe, hof b' hne]; exact hbooking b' k'
  · rw [hblock] at hs'
    by_cases hne : b' = b
    · subst hne
      obtain rfl : bloc = bloc' := Option.some.inj (hb.symm.trans hs')
      rcases hw.mem ha with ha' | hk'
      · exact hrange hstrict b' bloc hb a ha'
      · rw [hw.room hl ha hk']; exact hin hstrict
    · rw [hof b' hne] at ha
      exact hrange hstrict b' bloc' hs' a ha
  · have hne : b' ≠ b := by rintro rfl; exact hb' hlock
    rw [hof b' hne]

/-- A room that is chosen is one of the rooms: they are numbered from 1. -/
theorem chambre_pos {bloc : BlocComplet} {dto : AssignRoomDto} {places : List Nat} {n : Nat}
    (h : RoomsService.chambre bloc dto places = some n) : 1 ≤ n := by
  unfold RoomsService.chambre at h
  cases hr : dto.roomNumber with
  | some m =>
    rw [hr] at h
    cases h
    exact dto.roomNumber_pos n (by rw [hr]; rfl)
  | none =>
    rw [hr] at h
    have hm := List.mem_of_find?_eq_some h
    rw [List.mem_map] at hm
    obtain ⟨i, -, rfl⟩ := hm
    omega

/-- What `roomAssignment.findMany` counts. -/
theorem count_places (s : Store) (b : RoomBlockId) (k : BookingId) (n : Nat) :
    (((s.ofBlock b).filter (·.bookingId ≠ k)).map (·.roomNumber)).count n = autres s b k n := by
  rw [List.count_eq_countP, List.countP_map, List.countP_filter]
  refine List.countP_congr fun a _ => ?_
  simp [and_comm]

/-- The transaction of `assign` keeps the discipline. -/
theorem placer_body (strict : Prop) (bloc : BlocComplet) (blockId : RoomBlockId)
    (dto : AssignRoomDto) :
    (discipline strict).Body backend locks (fun c s => strict → InRange c s) (fun _ _ => True)
      (some (blockId, bloc.bloc.roomType)) (RoomsService.placer bloc blockId dto) .debut := by
  refine Discipline.body_exec fun h log s e _ _ hlog _ => ?_
  have hlog : Silent log := hlog
  refine ⟨.verrou blockId, ⟨Backend.replay_append_silent hlog fun _ => rfl, ?_⟩, ?_⟩
  · rw [hlog s]
    by_cases hb : s.block blockId = none
    · exact .inl hb
    · exact .inr ⟨.inr (by simp [locks, Option.isSome_iff_ne_none, hb]), trivial⟩
  refine Discipline.body_exec fun h log s e _ _ hp _ => ?_
  obtain ⟨hlog, hv⟩ := hp
  have hread := fun n => le_of_eq (count_places s blockId dto.bookingId n).symm
  refine ⟨.compte blockId dto.bookingId
    (backend.exec (.inr (.roomAssignmentFindMany blockId dto.bookingId)) e s).1,
    ⟨Backend.replay_append_silent hlog fun _ => rfl, hv.imp_right fun hl => ⟨.inl hl.1, hread⟩⟩, ?_⟩
  rw [hlog s]
  generalize (backend.exec (.inr (.roomAssignmentFindMany blockId dto.bookingId)) e s).1 = places
  split
  · trivial
  rename_i n hn
  split
  · trivial
  split
  · trivial
  rename_i hfull
  refine Discipline.body_exec fun h log s e _ hkn hp hfit => ?_
  obtain ⟨hlog, hv⟩ := hp
  refine ⟨.ecrit blockId dto.bookingId n, ⟨⟨e, fun s => ?_⟩, hv.imp_right fun hl => ⟨.inl hl.1, ?_⟩⟩, ?_⟩
  · rw [Backend.replay_append, hlog]; rfl
  · intro bloc' hb'
    have htype : bloc'.roomType = bloc.bloc.roomType := hkn _ rfl bloc' hb'
    have hle := hl.2 n
    rw [htype]
    exact ⟨by omega, fun hstrict => ⟨chambre_pos hn, hfit hstrict bloc' hb'⟩⟩
  rcases (backend.exec (.inr (.roomAssignmentUpsert blockId dto.bookingId n)) e
      (backend.replay log s)).1 with code | u
  · trivial
  · intro h log s hi hkn hp
    obtain ⟨⟨e, hlog⟩, hv⟩ := hp
    obtain ⟨hi', hg⟩ := ecrit_commits (e := e) hi hv
    rw [hlog]
    exact ⟨hi', hg, _, knows_stable hkn hg, trivial⟩

/-! ## The handlers -/

/-- The statements that only read. -/
def Reads : sig.Stmt → Prop
  | .inl (.agencyFindUnique _) => True
  | .inl (.bookingFindUnique _) => True
  | .inl (.packageFindUnique _) => True
  | .inr (.roomBlockFindUnique _) => True
  | .inr (.bookingFindManyActive _ _) => True
  | _ => False

theorem Reads.dehors {c : sig.Stmt} (h : Reads c) : Dehors c := by
  rcases c with c | c
  · trivial
  · cases c with
    | roomBlockCreate data => exact h.elim
    | roomAssignmentUpsert b k n => exact h.elim
    | _ => trivial

theorem agencyIdOf_reads (ownerId : UserId) : (RoomsService.agencyIdOf ownerId).Uses Reads := by
  refine ⟨trivial, fun found => ?_⟩
  cases found with
  | none => trivial
  | some agency => trivial

theorem findOwnedOrFail_reads (ownerId : UserId) (id : RoomBlockId) :
    (RoomsService.findOwnedOrFail ownerId id).Uses Reads := by
  refine (agencyIdOf_reads ownerId).bind fun agencyId => ?_
  refine Prog.uses_exec_bind trivial fun r => ?_
  rcases r with - | bloc
  · trivial
  · dsimp only
    split <;> trivial

theorem getBlock_reads (ownerId : UserId) (id : RoomBlockId) :
    (RoomsService.getBlock ownerId id).Uses Reads :=
  (findOwnedOrFail_reads ownerId id).bind fun _ => Prog.uses_exec_bind trivial fun _ => trivial

theorem verifier_reads (bloc : BlocComplet) (bookingId : BookingId) :
    (RoomsService.verifier bloc bookingId).Uses Reads := by
  refine Prog.uses_left_exec_bind trivial fun r => ?_
  rcases r with - | reservation
  · trivial
  · dsimp only
    split
    · trivial
    · split <;> trivial

/-- A handler that only reads. -/
theorem reads_dehors {α : Type} {p : Req α} (hp : p.Uses Reads) : p.Uses Dehors :=
  hp.mono fun _ => Reads.dehors

theorem updateBlock_dehors (ownerId : UserId) (id : RoomBlockId) (dto : RoomBlockUpdate) :
    (RoomsService.updateBlock ownerId id dto).Uses Dehors := by
  refine (reads_dehors (findOwnedOrFail_reads ownerId id)).bind fun bloc => ?_
  split
  · trivial
  · refine Prog.uses_exec_bind trivial fun r => ?_
    rcases r with - | u
    · trivial
    · exact reads_dehors (getBlock_reads ownerId id)

theorem deleteBlock_dehors (ownerId : UserId) (id : RoomBlockId) :
    (RoomsService.deleteBlock ownerId id).Uses Dehors := by
  refine (reads_dehors (findOwnedOrFail_reads ownerId id)).bind fun bloc => ?_
  split
  · trivial
  · refine Prog.uses_exec_bind trivial fun r => ?_
    rcases r with - | u <;> trivial

theorem unassign_dehors (ownerId : UserId) (blockId : RoomBlockId) (bookingId : BookingId) :
    (RoomsService.unassign ownerId blockId bookingId).Uses Dehors := by
  refine (reads_dehors (findOwnedOrFail_reads ownerId blockId)).bind fun bloc => ?_
  refine Prog.uses_exec_bind trivial fun count => ?_
  split
  · trivial
  · exact reads_dehors (getBlock_reads ownerId blockId)

section Handlers

variable {ι : Type} [DecidableEq ι] {strict : Prop} {t : ι}

/-- Thread `t` keeps the discipline of the places and ends with `Q`. -/
abbrev Safe {α : Type} (strict : Prop) (t : ι) (p : Prog (sig.tx ι) Erreur α)
    (Q : Except Erreur α → Option (RoomBlockId × RoomType) → Prop)
    (n : Option (RoomBlockId × RoomType)) : Prop :=
  (discipline strict).Safe backend locks (fun c s => strict → InRange c s) t p Q n

theorem dehors_safe {α : Type} {p : Req α} (hp : p.Uses Dehors)
    {Q : Except Erreur α → Option (RoomBlockId × RoomType) → Prop}
    {n : Option (RoomBlockId × RoomType)} (hQ : ∀ r, Q r n) : Safe strict t p.auto Q n :=
  Discipline.safe_uses hp (fun _ hc _ _ hi hfit => exec_keeps hc hi hfit) hQ

/-- The block is found, and its type is known from then on. -/
theorem findOwnedOrFail_safe (ownerId : UserId) (id : RoomBlockId) :
    Safe strict t (RoomsService.findOwnedOrFail ownerId id).auto
      (fun r n => ∀ bloc, r = .ok bloc → n = some (id, bloc.bloc.roomType)) none := by
  unfold RoomsService.findOwnedOrFail
  rw [Prog.auto_bind]
  refine Discipline.safe_bind (R := fun _ n => n = none)
    (dehors_safe (reads_dehors (agencyIdOf_reads ownerId)) fun _ => rfl) ?_ (fun _ _ _ _ h => by cases h)
  rintro agencyId n rfl
  refine Discipline.safe_auto_exec fun s e hi _ hfit => ?_
  have hc : Dehors (.inr (.roomBlockFindUnique id)) := trivial
  obtain ⟨hi', hg⟩ := exec_keeps (e := e) hc hi hfit
  refine ⟨hi', hg, ?_⟩
  rcases hr : (s.block id).bind (s.complet id) with - | bloc
  · have hans : (backend.exec (.inr (.roomBlockFindUnique id)) e s).1 = none := hr
    rw [hans]
    refine ⟨none, ?_, rfl, ?_⟩
    · rintro x ⟨⟩
    · rintro _ ⟨⟩
  · have hans : (backend.exec (.inr (.roomBlockFindUnique id)) e s).1 = some bloc := hr
    have hkn : knows (some (id, bloc.bloc.roomType)) s := by
      rintro x ⟨⟩ b hb
      obtain ⟨b', hb', hcomplet⟩ := Option.bind_eq_some_iff.mp hr
      obtain rfl : b = b' := Option.some.inj (hb.symm.trans hb')
      obtain ⟨_, _, rfl⟩ := Option.map_eq_some_iff.mp hcomplet
      rfl
    rw [hans]
    refine ⟨some (id, bloc.bloc.roomType), hkn, ?_⟩
    dsimp only
    split
    · refine ⟨rfl, ?_⟩
      rintro _ ⟨⟩
    · refine ⟨rfl, ?_⟩
      rintro _ ⟨⟩
      rfl

theorem assign_safe (ownerId : UserId) (blockId : RoomBlockId) (dto : AssignRoomDto) :
    Safe strict t (RoomsService.assign t ownerId blockId dto) (fun _ _ => True) none := by
  refine Discipline.safe_bind (findOwnedOrFail_safe ownerId blockId) (fun bloc n hn => ?_)
    fun _ _ _ => trivial
  obtain rfl := hn bloc rfl
  refine Discipline.safe_bind (R := fun _ n => n = some (blockId, bloc.bloc.roomType))
    (dehors_safe (reads_dehors (verifier_reads bloc dto.bookingId)) fun _ => rfl) ?_ fun _ _ _ => trivial
  rintro _ n rfl
  refine Discipline.safe_bind (Discipline.safe_transaction .debut (fun _ _ _ _ => rfl)
    (placer_body strict bloc blockId dto)) (fun _ n _ => ?_) fun _ _ _ => trivial
  exact dehors_safe (reads_dehors (getBlock_reads ownerId blockId)) fun _ => trivial

/-- Every handler keeps the discipline of the places. -/
theorem handler_safe (t : ι) (q : RoomRequest) :
    Safe strict t (handler t q) (fun _ _ => True) none := by
  cases q with
  | assign ownerId blockId dto =>
    exact Discipline.safe_bind (assign_safe ownerId blockId dto) (fun _ _ _ => ⟨rfl, trivial⟩)
      fun _ _ _ => trivial
  | unassign ownerId blockId bookingId =>
    exact Discipline.safe_bind (R := fun _ _ => True) (dehors_safe (unassign_dehors ownerId blockId bookingId)
      fun _ => trivial) (fun _ _ _ => ⟨rfl, trivial⟩) fun _ _ _ => trivial
  | updateBlock ownerId id dto =>
    exact Discipline.safe_bind (R := fun _ _ => True) (dehors_safe (updateBlock_dehors ownerId id dto)
      fun _ => trivial) (fun _ _ _ => ⟨rfl, trivial⟩) fun _ _ _ => trivial
  | deleteBlock ownerId id =>
    exact dehors_safe (deleteBlock_dehors ownerId id) fun _ => trivial

end Handlers

/-! ## Results -/

theorem bounded_of_empty {s : Store} (h : s.roomAssignments = []) : Bounded s := by
  have hof : ∀ b, s.ofBlock b = [] := by simp [Store.ofBlock, h]
  exact ⟨fun b bloc _ n => by simp [occupes, hof], fun b k => by simp [placesDe, hof]⟩

theorem ranged_of_empty {s : Store} (h : s.roomAssignments = []) : Ranged s := by
  intro b bloc _ a ha
  simp [Store.ofBlock, h] at ha

section Results

variable {ι : Type} [DecidableEq ι] {requests : ι → RoomRequest} {s : Store}
  {c : Pool (sig.tx ι) ι (TxState sig ι Store Env Key) Erreur Unit}

/-- **Occupancy bound.** In every interleaving, no room of a block holds more bookings than the
capacity of its type, and each booking has at most one place in a block. -/
theorem rooms_bounded (h₀ : Bounded s)
    (hr : Pool.Reach (backend.tx locks) (ready backend locks fun _ _ => True) (poolOf requests s) c) :
    Bounded c.st.db := by
  have hr' : Pool.Reach (backend.tx locks)
      (ready backend locks fun c s => False → InRange c s) (poolOf requests s) c :=
    hr.mono fun _ _ _ _ hok x hx => ⟨(hok x hx).1, False.elim⟩
  exact ((discipline False).reach ⟨h₀, False.elim⟩ (fun _ => by rintro x ⟨⟩)
    (fun t => handler_safe t (requests t)) hr').1.1

/-- **No placement outside the block.** In every interleaving in which no block is cut below an
occupied room and no place is given in a room that the block does not have, at the time of the
write, every place of an existing block is in one of its rooms. -/
theorem rooms_ranged (h₀ : Bounded s) (hranged : Ranged s)
    (hr : Pool.Reach (backend.tx locks) (ready backend locks InRange) (poolOf requests s) c) :
    Ranged c.st.db := by
  have hr' : Pool.Reach (backend.tx locks)
      (ready backend locks fun c s => True → InRange c s) (poolOf requests s) c :=
    hr.mono fun _ _ _ _ hok x hx => ⟨(hok x hx).1, fun _ => (hok x hx).2⟩
  exact ((discipline True).reach ⟨h₀, fun _ => hranged⟩ (fun _ => by rintro x ⟨⟩)
    (fun t => handler_safe t (requests t)) hr').1.2 trivial

end Results

/-! ## Schedules on fixed inputs -/

instance (c : sig.Stmt) (s : Store) : Decidable (InRange c s) :=
  match c with
  | .inr (.roomBlockUpdate id data) =>
    inferInstanceAs (Decidable (∀ n ∈ data.roomCount, ∀ a ∈ s.ofBlock id, a.roomNumber ≤ n))
  | .inr (.roomAssignmentUpsert b _ n) =>
    inferInstanceAs (Decidable (∀ bloc ∈ s.block b, n ≤ bloc.roomCount))
  | .inl _ => isTrue trivial
  | .inr (.roomBlockCreate _) => isTrue trivial
  | .inr (.roomBlockFindUnique _) => isTrue trivial
  | .inr (.roomBlockDelete _) => isTrue trivial
  | .inr (.roomBlockLock _) => isTrue trivial
  | .inr (.roomAssignmentFindMany _ _) => isTrue trivial
  | .inr (.roomAssignmentDeleteMany _ _) => isTrue trivial
  | .inr (.bookingFindManyActive _ _) => isTrue trivial

private def placerDeux : Fin 2 → RoomRequest
  | 0 => .assign 1 0 (.enChambre 0 1)
  | 1 => .assign 1 0 (.enChambre 1 1)

private def placerReduire : Fin 2 → RoomRequest
  | 0 => .assign 1 0 (.enChambre 0 1)
  | 1 => .updateBlock 1 0 { roomCount := some 1 }

/-- Both check before either takes the lock. -/
private def places : Pool (sig.tx (Fin 2)) (Fin 2) (TxState sig (Fin 2) Store Env Key) Erreur Unit :=
  Pool.run (backend.tx locks) (turns [0, 0, 0, 1, 1, 1, 0, 1, 0, 0, 0, 0, 1, 1, 1, 1])
    (poolOf placerDeux .exemple)

theorem rooms_bounded_exemple :
    Bounded places.st.db ∧ places.st.db.roomAssignments.map (·.roomNumber) = [2, 2] := by
  have hallowed : Pool.Allowed (backend.tx locks) (ready backend locks fun _ _ => True)
      (poolOf placerDeux .exemple) (turns [0, 0, 0, 1, 1, 1, 0, 1, 0, 0, 0, 0, 1, 1, 1, 1]) := by
    decide +kernel
  exact ⟨rooms_bounded (bounded_of_empty rfl) (hallowed.reach .refl), by decide +kernel⟩

/-- The place is given first, and the agency may not reduce the block. -/
private def refuse : Pool (sig.tx (Fin 2)) (Fin 2) (TxState sig (Fin 2) Store Env Key) Erreur Unit :=
  Pool.run (backend.tx locks) (turns [0, 0, 0, 0, 0, 0, 0, 0, 1, 1, 1])
    (poolOf placerReduire .exemple)

theorem rooms_ranged_exemple :
    Ranged refuse.st.db ∧ refuse.st.db.roomAssignments.map (·.roomNumber) = [2] := by
  have hallowed : Pool.Allowed (backend.tx locks) (ready backend locks InRange)
      (poolOf placerReduire .exemple) (turns [0, 0, 0, 0, 0, 0, 0, 0, 1, 1, 1]) := by decide +kernel
  exact ⟨rooms_ranged (bounded_of_empty rfl) (ranged_of_empty rfl) (hallowed.reach .refl),
    by decide +kernel⟩

/-- The agency reduces the block after `assign` has read it. -/
private def dehors : Pool (sig.tx (Fin 2)) (Fin 2) (TxState sig (Fin 2) Store Env Key) Erreur Unit :=
  Pool.run (backend.tx locks) (turns [0, 0, 0, 1, 1, 1, 0, 0, 0, 0, 0])
    (poolOf placerReduire .exemple)

theorem placed_outside : ¬ ∀ (requests : Fin 2 → RoomRequest) (s : Store)
    (c : Pool (sig.tx (Fin 2)) (Fin 2) (TxState sig (Fin 2) Store Env Key) Erreur Unit),
    Bounded s → Ranged s →
    Pool.Reach (backend.tx locks) (ready backend locks fun _ _ => True) (poolOf requests s) c →
    Ranged c.st.db := by
  intro h
  have hallowed : Pool.Allowed (backend.tx locks) (ready backend locks fun _ _ => True)
      (poolOf placerReduire .exemple) (turns [0, 0, 0, 1, 1, 1, 0, 0, 0, 0, 0]) := by decide +kernel
  have hranged := h placerReduire .exemple dehors (bounded_of_empty rfl) (ranged_of_empty rfl)
    (hallowed.reach .refl)
  have hbad : ∃ bloc ∈ dehors.st.db.block 0, ∃ a ∈ dehors.st.db.ofBlock 0,
      bloc.roomCount < a.roomNumber := by decide +kernel
  obtain ⟨bloc, hb, a, ha, hlt⟩ := hbad
  have := (hranged 0 bloc hb a ha).2
  omega

end OumraHajj.Rooms
