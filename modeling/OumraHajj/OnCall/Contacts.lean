import OumraHajj.Common.Sorted
import OumraHajj.OnCall.Gaps

/-!
# Whom the pilgrim calls

`getForBooking` reads the first twenty shifts that are not over, in the order of their start, so those
in progress come before those to come (`booking_answer`). It names whom to call exactly while at most
twenty shifts are in progress, and fewer than twenty if another one is to come (`getForBooking_iff`).
-/

namespace OumraHajj.OnCall

open Async

variable {s : Store} {b : Booking} {maintenant : Time}

/-- The shifts for the package of a booking that are in progress. -/
def Store.enCours (s : Store) (b : Booking) (maintenant : Time) : List OnCallShift :=
  (s.applicables b.agencyId b.packageId).filter fun c =>
    c.startsAt ≤ maintenant ∧ maintenant < c.endsAt

/-- The shifts for the package of a booking that are to come. -/
def Store.aVenir (s : Store) (b : Booking) (maintenant : Time) : List OnCallShift :=
  (s.applicables b.agencyId b.packageId).filter fun c => maintenant < c.startsAt

/-- The contacts of the shifts in progress, and the one of a first shift to come if there is one. -/
structure Renseigne (s : Store) (b : Booking) (maintenant : Time)
    (current : List OnCallContactShape) (next : Option OnCallContactShape) : Prop where
  current : current.Perm ((s.enCours b maintenant).map toContactShape)
  next_some : ∀ c ∈ next, ∃ x ∈ s.aVenir b maintenant, c = toContactShape x ∧
    ∀ y ∈ s.aVenir b maintenant, x.startsAt ≤ y.startsAt
  next_none : next = none → s.aVenir b maintenant = []

/-! ## The query -/

/-- The order of the query: by their start, and among equals as the database finds them. -/
def Avant (e : Env) (x y : OnCallShiftId × OnCallShift) : Prop :=
  x.2.startsAt < y.2.startsAt ∨ (x.2.startsAt = y.2.startsAt ∧ e.ordre x.1 ≤ e.ordre y.1)

instance (e : Env) : DecidableRel (Avant e) := fun _ _ => inferInstanceAs (Decidable (_ ∨ _))

theorem avant_total (e : Env) (x y : OnCallShiftId × OnCallShift) : Avant e x y ∨ Avant e y x := by
  rcases lt_trichotomy x.2.startsAt y.2.startsAt with h | h | h
  · exact .inl (.inl h)
  · rcases le_total (e.ordre x.1) (e.ordre y.1) with ho | ho
    · exact .inl (.inr ⟨h, ho⟩)
    · exact .inr (.inr ⟨h.symm, ho⟩)
  · exact .inr (.inl h)

theorem Avant.startsAt_le {e : Env} {x y : OnCallShiftId × OnCallShift} (h : Avant e x y) :
    x.2.startsAt ≤ y.2.startsAt := by
  rcases h with h | h
  · exact h.le
  · exact h.1.le

theorem avant_trans (e : Env) {x y z : OnCallShiftId × OnCallShift} (h : Avant e x y)
    (h' : Avant e y z) : Avant e x z := by
  rcases h with h | ⟨h, ho⟩
  · exact .inl (h.trans_le h'.startsAt_le)
  · rcases h' with h' | ⟨h', ho'⟩
    · exact .inl (h.trans_lt h')
    · exact .inr ⟨h.trans h', ho.trans ho'⟩

instance (e : Env) : Std.Total (Avant e) := ⟨avant_total e⟩

instance (e : Env) : IsTrans (OnCallShiftId × OnCallShift) (Avant e) := ⟨fun _ _ _ => avant_trans e⟩

/-- A shift that has started comes before one that has not. -/
theorem avant_of_started (e : Env) {x y : OnCallShiftId × OnCallShift}
    (hx : x.2.startsAt ≤ maintenant) (hy : maintenant < y.2.startsAt) :
    Avant e x y ∧ ¬ Avant e y x := by
  refine ⟨.inl (hx.trans_lt hy), fun h => ?_⟩
  exact absurd (h.startsAt_le.trans hx) hy.not_ge

theorem Store.shifts_filter_map_snd (s : Store) (P Q : OnCallShift → Bool) :
    ((s.shifts P).filter fun x => Q x.2).map Prod.snd =
      (s.onCallShifts.filterMap id).filter fun c => Q c && P c := by
  rw [← List.filter_filter, ← s.shifts_map_snd, List.filter_map]
  rfl

/-- **The answer of the query** is cut from the shifts in progress followed by those to come. -/
theorem booking_answer (hs : s.Ordonne) (b : Booking) (maintenant : Time) (take : Nat) (e : Env) :
    ∃ l₁ l₂ : List OnCallShift, l₁.Perm (s.enCours b maintenant) ∧ l₂.Perm (s.aVenir b maintenant) ∧
      l₂.Pairwise (fun x y => x.startsAt ≤ y.startsAt) ∧
      (Query.onCallShiftFindManyForBooking b.agencyId b.packageId maintenant take).answer e s =
        (l₁ ++ l₂).take take := by
  let started : OnCallShift → Bool := fun c => c.startsAt ≤ maintenant
  let rows := s.shifts fun c => c.Applicable b.agencyId b.packageId ∧ c.endsAt > maintenant
  have hsplit := Sorted.insertionSort_split (r := Avant e) (p := fun x => started x.2)
    (fun x y hx hy => avant_of_started e (by simpa [started] using hx) (by simpa [started] using hy)) rows
  refine ⟨((rows.filter fun x => started x.2).insertionSort (Avant e)).map Prod.snd,
    ((rows.filter fun x => !started x.2).insertionSort (Avant e)).map Prod.snd, ?_, ?_, ?_, ?_⟩
  · refine ((List.perm_insertionSort _ _).map _).trans (.of_eq ?_)
    rw [s.shifts_filter_map_snd, Store.enCours, Store.applicables, List.filter_filter]
    refine List.filter_congr fun c _ => ?_
    simp only [started, gt_iff_lt, Bool.decide_and, Bool.and_assoc]
    rw [Bool.and_comm (decide (OnCallShift.Applicable _ _ _))]
  · refine ((List.perm_insertionSort _ _).map _).trans (.of_eq ?_)
    rw [s.shifts_filter_map_snd _ fun c => !started c, Store.aVenir, Store.applicables,
      List.filter_filter]
    refine List.filter_congr fun c hc => ?_
    have hfin : maintenant < c.startsAt → maintenant < c.endsAt := fun h => by
      obtain ⟨x, hx, hxc⟩ := List.mem_filterMap.mp hc
      exact h.trans (hs c (by rwa [← hxc]))
    simp only [started, gt_iff_lt, Bool.decide_and]
    by_cases h : maintenant < c.startsAt
    · simp [h, h.not_ge, hfin h]
    · simp [h, not_lt.mp h]
  · exact List.pairwise_map.mpr ((List.pairwise_insertionSort (Avant e) _).imp Avant.startsAt_le)
  · rw [← List.map_append, ← hsplit]
    rfl

/-! ## What is cut off -/

/-- The first twenty name whom to call exactly where they hold every shift in progress and the first
one to come. -/
theorem renseigne_iff {l₁ l₂ : List OnCallShift} (h₁ : l₁.Perm (s.enCours b maintenant))
    (h₂ : l₂.Perm (s.aVenir b maintenant)) (hsorted : l₂.Pairwise fun x y => x.startsAt ≤ y.startsAt)
    (take : Nat) :
    Renseigne s b maintenant ((l₁.take take).map toContactShape)
        ((l₂.take (take - l₁.length)).head?.map toContactShape) ↔
      l₁.length ≤ take ∧ (l₁.length = take → l₂ = []) := by
  constructor
  · intro h
    have hlength := h.current.length_eq
    rw [List.length_map, List.length_map, List.length_take, ← h₁.length_eq] at hlength
    refine ⟨by omega, fun heq => ?_⟩
    have hnone := h.next_none (by rw [heq, Nat.sub_self, List.take_zero]; rfl)
    exact List.Perm.eq_nil (hnone ▸ h₂)
  · rintro ⟨hle, hfull⟩
    have hhead : (l₂.take (take - l₁.length)).head? = l₂.head? := by
      rcases l₂ with - | ⟨x, l₂⟩
      · rw [List.take_nil]
      · have hlt : l₁.length ≠ take := fun heq => by cases hfull heq
        obtain ⟨n, hn⟩ := Nat.exists_eq_succ_of_ne_zero (n := take - l₁.length) (by omega)
        rw [hn, List.take_succ_cons]
        rfl
    rw [hhead]
    refine ⟨?_, fun c hc => ?_, fun hnone => ?_⟩
    · rw [List.take_of_length_le hle]
      exact h₁.map toContactShape
    · rcases l₂ with - | ⟨x, l₂⟩
      · cases hc
      · obtain rfl : toContactShape x = c := Option.some.inj hc
        refine ⟨x, h₂.mem_iff.mp List.mem_cons_self, rfl, fun y hy => ?_⟩
        rcases List.mem_cons.mp (h₂.mem_iff.mpr hy) with rfl | hy
        · exact le_refl _
        · exact (List.pairwise_cons.mp hsorted).1 y hy
    · rcases l₂ with - | ⟨x, l₂⟩
      · exact List.nil_perm.mp h₂
      · cases hnone

/-- What the pilgrim sees of an active booking. -/
theorem getForBooking_eval (hs : s.Ordonne) {bookingId : BookingId} {agency : Agency}
    (hb : s.app.bookings[bookingId]? = some b) (hagency : s.app.agencies[b.agencyId]? = some agency)
    (hactive : b.status ≠ .cancelled) (e : Env) :
    ∃ l₁ l₂ : List OnCallShift, l₁.Perm (s.enCours b e.now) ∧ l₂.Perm (s.aVenir b e.now) ∧
      l₂.Pairwise (fun x y => x.startsAt ≤ y.startsAt) ∧
      readBackend.eval e (OnCallService.getForBooking b.pilgrimId bookingId) s =
        (.ok
          { bookingId
            agencyName := agency.legalName
            agencyPhone := agency.contactPhone
            current := (l₁.take 20).map toContactShape
            next := (l₂.take (20 - l₁.length)).head?.map toContactShape }, s) := by
  obtain ⟨l₁, l₂, h₁, h₂, hsorted, hcreneaux⟩ := booking_answer hs b e.now 20 e
  refine ⟨l₁, l₂, h₁, h₂, hsorted, ?_⟩
  have hrow : s.bookingWithAgency bookingId = some (b, agency) := by
    rw [Store.bookingWithAgency, hb, Option.bind_some, hagency, Option.map_some]
  have hbooking : readBackend.exec (.inr (.bookingFindUniqueWithAgency bookingId)) e s =
      (some (b, agency), s) := congrArg (fun a => (a, s)) hrow
  have hquery : readBackend.exec
      (.inr (.onCallShiftFindManyForBooking b.agencyId b.packageId e.now 20)) e s =
      ((l₁ ++ l₂).take 20, s) := congrArg (fun a => (a, s)) hcreneaux
  have hstarted : ∀ x ∈ l₁, x.startsAt ≤ e.now := fun x hx => by
    have hx := (List.mem_filter.mp (h₁.mem_iff.mp hx)).2
    simp only [Bool.decide_and, Bool.and_eq_true, decide_eq_true_eq] at hx
    exact hx.1
  have hfuture : ∀ x ∈ l₂, e.now < x.startsAt := fun x hx => by
    simpa using (List.mem_filter.mp (h₂.mem_iff.mp hx)).2
  refine (Backend.evalBy_answer hbooking).trans ?_
  show readBackend.evalBy _ (if b.pilgrimId ≠ b.pilgrimId then _ else if b.status = .cancelled then _
    else _) s = _
  rw [if_neg (not_not.mpr rfl), if_neg hactive]
  refine (Backend.evalBy_answer (a := e.now) rfl).trans ((Backend.evalBy_answer hquery).trans ?_)
  have hcurrent : ((l₁ ++ l₂).take 20).filter (fun c => c.startsAt ≤ e.now) = l₁.take 20 :=
    Sorted.filter_take_append (fun x hx => decide_eq_true (hstarted x hx))
      (fun x hx => decide_eq_false (hfuture x hx).not_ge) 20
  have hnext : ((l₁ ++ l₂).take 20).find? (fun c => c.startsAt > e.now) =
      (l₂.take (20 - l₁.length)).head? :=
    Sorted.find?_take_append (fun x hx => decide_eq_false (hstarted x hx).not_gt)
      (fun x hx => decide_eq_true (hfuture x hx)) 20
  rw [← hcurrent, ← hnext]
  rfl

/-- **Whom to call**: the answer is right exactly while at most twenty shifts are in progress, and
fewer if another one is to come. -/
theorem getForBooking_iff (hs : s.Ordonne) {bookingId : BookingId} {agency : Agency}
    (hb : s.app.bookings[bookingId]? = some b) (hagency : s.app.agencies[b.agencyId]? = some agency)
    (hactive : b.status ≠ .cancelled) (e : Env) :
    (∃ v, readBackend.eval e (OnCallService.getForBooking b.pilgrimId bookingId) s = (.ok v, s) ∧
        Renseigne s b e.now v.current v.next) ↔
      (s.enCours b e.now).length ≤ 20 ∧
        ((s.enCours b e.now).length = 20 → s.aVenir b e.now = []) := by
  obtain ⟨l₁, l₂, h₁, h₂, hsorted, heval⟩ := getForBooking_eval hs hb hagency hactive e
  have hiff := renseigne_iff h₁ h₂ hsorted 20
  have hnil : l₂ = [] ↔ s.aVenir b e.now = [] :=
    ⟨fun h => List.nil_perm.mp (h ▸ h₂), fun h => (h ▸ h₂).eq_nil⟩
  rw [hnil, h₁.length_eq] at hiff
  rw [← hiff]
  constructor
  · rintro ⟨v, hv, h⟩
    rw [heval] at hv
    obtain rfl := Except.ok.inj (congrArg Prod.fst hv)
    rwa [h₁.length_eq] at h
  · intro h
    rw [← h₁.length_eq] at h
    exact ⟨_, heval, h⟩

/-- Twenty shifts from 0 to 10, and one from 8 on. -/
def Store.vingt (n : Nat) : Store where
  app := { Db.exemple with bookings := [Booking.exemple] }
  onCallShifts := List.replicate n (some
      { agencyId := 0, staffName := "Coordinateur", staffRole := .coordinator, phone := "+224620000000"
        startsAt := 0, endsAt := 10 }) ++
    [some { agencyId := 0, staffName := "Guide", staffRole := .guide, phone := "+224620000001"
            startsAt := 8, endsAt := 12 }]

theorem Store.vingt_ordonne (n : Nat) : (Store.vingt n).Ordonne := by
  intro c hc
  rcases List.mem_append.mp hc with hc | hc
  · obtain rfl := Option.some.inj (List.eq_of_mem_replicate hc)
    decide
  · obtain rfl := Option.some.inj (List.mem_singleton.mp hc)
    decide

/-- One shift in progress and one to come. -/
theorem getForBooking_iff_deux :
    (Store.vingt 1).Ordonne ∧ ∃ v, readBackend.eval { now := 5 } (OnCallService.getForBooking 0 0)
      (Store.vingt 1) = (.ok v, Store.vingt 1) ∧
      Renseigne (Store.vingt 1) Booking.exemple 5 v.current v.next :=
  have hb : (Store.vingt 1).app.bookings[0]? = some Booking.exemple := rfl
  ⟨Store.vingt_ordonne 1, (getForBooking_iff (Store.vingt_ordonne 1) hb rfl (by decide)
    { now := 5 }).mpr (by decide)⟩

/-- At 5 the pilgrim does not see the guide, who is on call from 8 on. -/
theorem getForBooking_vingt :
    ¬ ∀ (s : Store) (bookingId : BookingId) (b : Booking) (agency : Agency) (e : Env), s.Ordonne →
      s.app.bookings[bookingId]? = some b → s.app.agencies[b.agencyId]? = some agency →
      b.status ≠ .cancelled →
      ∃ v, readBackend.eval e (OnCallService.getForBooking b.pilgrimId bookingId) s = (.ok v, s) ∧
        Renseigne s b e.now v.current v.next := by
  intro h
  obtain ⟨v, hv, hr⟩ := h (Store.vingt 20) 0 Booking.exemple _ { now := 5 } (Store.vingt_ordonne 20) rfl
    rfl (by decide)
  have hb : (Store.vingt 20).app.bookings[0]? = some Booking.exemple := rfl
  obtain ⟨l₁, l₂, h₁, h₂, hsorted, heval⟩ := getForBooking_eval (Store.vingt_ordonne 20) hb rfl
    (by decide) { now := 5 }
  rw [heval] at hv
  obtain rfl := Except.ok.inj (congrArg Prod.fst hv)
  have hlength : ((Store.vingt 20).enCours Booking.exemple 5).length = 20 := by decide
  have hnone := ((renseigne_iff h₁ h₂ hsorted 20).mp hr).2 (h₁.length_eq.trans hlength)
  have hfuture : (Store.vingt 20).aVenir Booking.exemple 5 ≠ [] := by decide
  exact hfuture (List.nil_perm.mp (hnone ▸ h₂))

end OumraHajj.OnCall
