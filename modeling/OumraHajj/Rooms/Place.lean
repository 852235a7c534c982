import OumraHajj.Rooms.Store

/-!
# The write of a place

What `upsert` on `@@unique([roomBlockId, bookingId])` does to the places: the other blocks keep
theirs (`upsert_ofBlock_ne`), and in the block the booking moves or gets its only place (`Written`).
-/

namespace OumraHajj.Rooms

open Async

section Upsert

variable {rows : List RoomAssignment} {b : RoomBlockId} {k : BookingId} {n : Nat} {now : Time}

/-- A booking that moves to room `n`. -/
def deplace (b : RoomBlockId) (k : BookingId) (n : Nat) (a : RoomAssignment) : RoomAssignment :=
  if Store.surPlace b k a then { a with roomNumber := n } else a

theorem deplace_roomBlockId (a : RoomAssignment) :
    (deplace b k n a).roomBlockId = a.roomBlockId := by
  unfold deplace
  split <;> rfl

theorem deplace_bookingId (a : RoomAssignment) : (deplace b k n a).bookingId = a.bookingId := by
  unfold deplace
  split <;> rfl

theorem deplace_of_ne {a : RoomAssignment} (h : a.roomBlockId ≠ b ∨ a.bookingId ≠ k) :
    deplace b k n a = a := by
  unfold deplace Store.surPlace
  rw [if_neg]
  rintro ha
  simp only [decide_eq_true_eq] at ha
  rcases h with h | h
  · exact h ha.1
  · exact h ha.2

theorem deplace_roomNumber {a : RoomAssignment} (hb : a.roomBlockId = b) (hk : a.bookingId = k) :
    (deplace b k n a).roomNumber = n := by
  unfold deplace Store.surPlace
  rw [if_pos (by simp [hb, hk])]

theorem map_deplace_filter (b' : RoomBlockId) :
    (rows.map (deplace b k n)).filter (·.roomBlockId = b') =
      (rows.filter (·.roomBlockId = b')).map (deplace b k n) := by
  rw [List.filter_map]
  refine congrArg _ (List.filter_congr fun a _ => ?_)
  simp only [Function.comp, deplace_roomBlockId]

/-- What a place after the write is of. -/
theorem mem_upsert {a : RoomAssignment} (h : a ∈ Store.upsert rows b k n now) :
    a = ⟨b, k, n, now⟩ ∨
      ∃ a₀ ∈ rows, a₀.roomBlockId = a.roomBlockId ∧ a₀.bookingId = a.bookingId := by
  unfold Store.upsert at h
  split at h
  · obtain ⟨a₀, ha₀, rfl⟩ := List.mem_map.mp h
    exact .inr ⟨a₀, ha₀, (@deplace_roomBlockId b k n a₀).symm, (@deplace_bookingId b k n a₀).symm⟩
  · rcases List.mem_append.mp h with h | h
    · exact .inr ⟨a, h, rfl, rfl⟩
    · exact .inl (List.mem_singleton.mp h)

/-- The bookings that have a place after the write. -/
theorem upsert_bookingId {a : RoomAssignment} (h : a ∈ Store.upsert rows b k n now) :
    a.bookingId = k ∨ ∃ a₀ ∈ rows, a₀.bookingId = a.bookingId := by
  rcases mem_upsert h with rfl | ⟨a₀, ha₀, -, hid⟩
  · exact .inl rfl
  · exact .inr ⟨a₀, ha₀, hid⟩

/-- The other blocks keep their places. -/
theorem upsert_ofBlock_ne {b' : RoomBlockId} (hb : b' ≠ b) :
    (Store.upsert rows b k n now).filter (·.roomBlockId = b') =
      rows.filter (·.roomBlockId = b') := by
  unfold Store.upsert
  split
  · rw [show (fun a => if Store.surPlace b k a then { a with roomNumber := n } else a) =
      deplace b k n from rfl, map_deplace_filter]
    conv => rhs; rw [← List.map_id (rows.filter (·.roomBlockId = b'))]
    refine List.map_congr_left fun a ha => deplace_of_ne (.inl ?_)
    have := List.of_mem_filter ha
    simp only [decide_eq_true_eq] at this
    exact this ▸ hb
  · rw [List.filter_append, List.filter_cons_of_neg (by simpa using Ne.symm hb)]
    simp

/-- The places of the block after the write. -/
inductive Written (b : RoomBlockId) (k : BookingId) (n : Nat) (now : Time)
    (l : List RoomAssignment) : List RoomAssignment → Prop
  | moved : Written b k n now l (l.map (deplace b k n))
  | added (h : ∀ a ∈ l, a.bookingId ≠ k) : Written b k n now l (l ++ [⟨b, k, n, now⟩])

theorem upsert_written : Written b k n now (rows.filter (·.roomBlockId = b))
    ((Store.upsert rows b k n now).filter (·.roomBlockId = b)) := by
  unfold Store.upsert
  split
  · rw [show (fun a => if Store.surPlace b k a then { a with roomNumber := n } else a) =
      deplace b k n from rfl, map_deplace_filter]
    exact .moved
  · rename_i hany
    rw [List.filter_append, List.filter_cons_of_pos (by simp), List.filter_nil]
    refine .added fun a ha hk => hany ?_
    rw [List.mem_filter] at ha
    exact List.any_eq_true.mpr ⟨a, ha.1, by simpa [Store.surPlace, hk] using ha.2⟩

end Upsert

variable {b : RoomBlockId} {k : BookingId} {n : Nat} {now : Time} {l l' : List RoomAssignment}

/-- The places of the other bookings stay. -/
theorem Written.autres (h : Written b k n now l l') (m : Nat) :
    l'.countP (fun a => a.bookingId ≠ k ∧ a.roomNumber = m) =
      l.countP fun a => a.bookingId ≠ k ∧ a.roomNumber = m := by
  cases h with
  | moved =>
    rw [List.countP_map]
    refine List.countP_congr fun a _ => ?_
    by_cases hk : a.bookingId = k
    · simp [deplace_bookingId, hk]
    · simp [deplace_of_ne (.inr hk)]
  | added _ => simp

/-- A booking still has at most one place. -/
theorem Written.booking (h : Written b k n now l l') (hl : ∀ k, l.countP (·.bookingId = k) ≤ 1)
    (k' : BookingId) : l'.countP (·.bookingId = k') ≤ 1 := by
  cases h with
  | moved =>
    rw [List.countP_map]
    refine le_trans (le_of_eq (List.countP_congr fun a _ => ?_)) (hl k')
    simp [deplace_bookingId]
  | added hnone =>
    rw [List.countP_append]
    by_cases hk : k = k'
    · subst hk
      have hzero : l.countP (·.bookingId = k) = 0 := by
        rw [List.countP_eq_zero]
        exact fun a ha => by simpa using hnone a ha
      rw [hzero]
      simp
    · simpa [hk] using hl k'

/-- The booking is in room `n` only. -/
theorem Written.room (h : Written b k n now l l') (hl : ∀ a ∈ l, a.roomBlockId = b)
    {a : RoomAssignment} (ha : a ∈ l') (hk : a.bookingId = k) : a.roomNumber = n := by
  cases h with
  | moved =>
    obtain ⟨a₀, ha₀, rfl⟩ := List.mem_map.mp ha
    rw [deplace_bookingId] at hk
    exact deplace_roomNumber (hl a₀ ha₀) hk
  | added hnone =>
    rcases List.mem_append.mp ha with ha | ha
    · exact absurd hk (hnone a ha)
    · rw [List.mem_singleton] at ha; rw [ha]

/-- A place after the write was there before, or is the one written. -/
theorem Written.mem (h : Written b k n now l l') {a : RoomAssignment} (ha : a ∈ l') :
    a ∈ l ∨ a.bookingId = k := by
  cases h with
  | moved =>
    obtain ⟨a₀, ha₀, rfl⟩ := List.mem_map.mp ha
    by_cases hk : a₀.bookingId = k
    · exact .inr (by rw [deplace_bookingId, hk])
    · rw [deplace_of_ne (.inr hk)]; exact .inl ha₀
  | added _ =>
    rcases List.mem_append.mp ha with ha | ha
    · exact .inl ha
    · rw [List.mem_singleton] at ha; rw [ha]; exact .inr rfl

/-- The places of a room are those of the other bookings and the one of `k`. -/
theorem countP_room (l : List RoomAssignment) (k : BookingId) (m : Nat) :
    l.countP (·.roomNumber = m) = l.countP (fun a => a.bookingId ≠ k ∧ a.roomNumber = m) +
      l.countP fun a => a.bookingId = k ∧ a.roomNumber = m := by
  induction l with
  | nil => rfl
  | cons a l ih =>
    simp only [List.countP_cons, ih]
    by_cases hk : a.bookingId = k <;> by_cases hm : a.roomNumber = m <;> simp [hk, hm] <;> omega

/-- A room that has a bed left for `k` is within its capacity after the write, and so is every room
that was. -/
theorem Written.occupes (h : Written b k n now l l') (hl : ∀ a ∈ l, a.roomBlockId = b)
    (hone : ∀ k, l.countP (·.bookingId = k) ≤ 1) {cap : Nat}
    (hfree : l.countP (fun a => a.bookingId ≠ k ∧ a.roomNumber = n) + 1 ≤ cap)
    (hcap : ∀ m, l.countP (·.roomNumber = m) ≤ cap) (m : Nat) :
    l'.countP (·.roomNumber = m) ≤ cap := by
  rw [countP_room l' k m, h.autres]
  by_cases hm : m = n
  · subst hm
    have hmine : l'.countP (fun a => a.bookingId = k ∧ a.roomNumber = m) ≤ 1 :=
      le_trans (List.countP_mono_left fun a _ ha => by simp at ha ⊢; exact ha.1) (h.booking hone k)
    omega
  · have hzero : l'.countP (fun a => a.bookingId = k ∧ a.roomNumber = m) = 0 := by
      rw [List.countP_eq_zero]
      intro a ha hk
      simp only [decide_eq_true_eq] at hk
      exact hm (hk.2.symm.trans (h.room hl ha hk.1))
    have := hcap m
    rw [countP_room l k m] at this
    omega

end OumraHajj.Rooms
