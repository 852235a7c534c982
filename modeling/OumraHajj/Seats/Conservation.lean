import OumraHajj.Spec.Packages

/-!
# Seats are conserved

`Db.holders s p`: the bookings that hold a seat of the package `p`, those that are not `CANCELLED`.
`SeatsConserved p s`: the counter of the package is their number, within the capacity.

Sequential runs of `create`, `cancel`, `close`, `updateStep` and `markStepDone` keep it exactly as
long as no update of a step completes a `CANCELLED` booking of the package (`Revives`): the booking
then becomes `CONFIRMED` without a seat, because `maybeConfirm` looks at the steps only and the
cancellation has given the seat back.
-/

namespace OumraHajj

open Async

namespace Db

/-- The bookings that hold a seat of the package. -/
def holders (s : Db) (p : PackageId) : Finset BookingId :=
  s.bookings.ids fun b => b.packageId = p ∧ b.status ≠ .cancelled

variable {s : Db} {p : PackageId} {id : BookingId} {b b' : Booking}

theorem mem_holders : id ∈ s.holders p ↔
    ∃ b, s.bookings[id]? = some b ∧ b.packageId = p ∧ b.status ≠ .cancelled := by
  simp [holders, Table.mem_ids]

/-- The row of a booking changes, but not whether it holds a seat. -/
theorem holders_putBooking_same (hb : s.bookings[id]? = some b) (hp : b'.packageId = b.packageId)
    (hst : b'.status = .cancelled ↔ b.status = .cancelled) :
    (s.putBooking id b').holders p = s.holders p :=
  Table.ids_set_same hb (by simp [hp, hst])

theorem holders_putBooking_other (hb : s.bookings[id]? = some b) (hp : b.packageId ≠ p)
    (hp' : b'.packageId ≠ p) : (s.putBooking id b').holders p = s.holders p :=
  Table.ids_set_same hb (by simp [hp, hp'])

/-- A booking gives its seat back. -/
theorem holders_putBooking_cancelled (hb : s.bookings[id]? = some b) (hst : b'.status = .cancelled) :
    (s.putBooking id b').holders p = (s.holders p).erase id :=
  Table.ids_set_erase hb (by simp [hst])

/-- A booking takes a seat. -/
theorem holders_putBooking_insert (hb : s.bookings[id]? = some b) (hp : b'.packageId = p)
    (hst : b'.status ≠ .cancelled) : (s.putBooking id b').holders p = insert id (s.holders p) :=
  Table.ids_set_insert hb (by simp [hp, hst])

theorem holders_append (s : Db) (b : Booking) (p : PackageId) (hst : b.status ≠ .cancelled) :
    { s with bookings := s.bookings ++ [b] }.holders p =
      if b.packageId = p then insert s.bookings.length (s.holders p) else s.holders p := by
  simp [holders, Table.ids_append, hst]

theorem length_not_mem_holders (s : Db) (p : PackageId) : s.bookings.length ∉ s.holders p :=
  Table.length_not_mem_ids _ _

end Db

/-- The counter of the package is the number of its holders, within the capacity. -/
def SeatsConserved (p : PackageId) (s : Db) : Prop :=
  ∃ pkg, s.packages[p]? = some pkg ∧ pkg.seatsTaken = (s.holders p).card ∧
    ((s.holders p).card : Int) ≤ pkg.capacity

instance (p : PackageId) (s : Db) : Decidable (SeatsConserved p s) :=
  match h : s.packages[p]? with
  | none => isFalse fun ⟨_, hp, _⟩ => by rw [h] at hp; cases hp
  | some pkg =>
    decidable_of_iff (pkg.seatsTaken = (s.holders p).card ∧
      ((s.holders p).card : Int) ≤ pkg.capacity) (by simp [SeatsConserved, h])

/-- The request completes the steps of a `CANCELLED` booking of the package. -/
def Revives (p : PackageId) (s : Db) (q : Request) : Prop :=
  ∃ id b, s.bookings[id]? = some b ∧ b.packageId = p ∧ b.status = .cancelled ∧ s.Completes q id

/-- The requests that change seats or steps. -/
def Request.IsSeat : Request → Prop
  | .createBooking _ _ => True
  | .cancelBooking _ _ => True
  | .closePackage _ _ => True
  | q => q.IsStep

namespace SeatsConserved

variable {p : PackageId} {s s' : Db}

/-- The seat counter and the capacity stay as they are. -/
theorem putPackage {q : PackageId} {x y : Package} (hx : s.packages[q]? = some x)
    (hn : y.seatsTaken = x.seatsTaken) (hc : y.capacity = x.capacity) (h : SeatsConserved p s) :
    SeatsConserved p (s.putPackage q y) := by
  obtain ⟨pkg, hp, hsum, hle⟩ := h
  by_cases hq : q = p
  · subst hq
    rw [hp, Option.some.injEq] at hx
    subst hx
    exact ⟨y, by rw [Db.putPackage, Table.get_set hp, if_pos rfl], by rw [hn, hsum]; rfl,
      by rw [hc]; exact hle⟩
  · exact ⟨pkg, by rw [Db.putPackage, Table.get_set hx, if_neg hq, hp], hsum, hle⟩

/-- A booking is created with a seat. -/
theorem create {q : PackageId} {x : Package} {b : Booking} (hx : s.packages[q]? = some x)
    (hlt : x.seatsTaken < x.capacity) (hb : b.packageId = q) (hst : b.status = .pendingPayment)
    (h : SeatsConserved p s) :
    SeatsConserved p { s.putPackage q x.reserved with bookings := s.bookings ++ [b] } := by
  obtain ⟨pkg, hp, hsum, hle⟩ := h
  have hh : Db.holders { s.putPackage q x.reserved with bookings := s.bookings ++ [b] } p =
      if b.packageId = p then insert s.bookings.length (s.holders p) else s.holders p :=
    s.holders_append b p (by simp [hst])
  by_cases hq : q = p
  · subst hq
    rw [hp, Option.some.injEq] at hx
    subst hx
    rw [if_pos hb] at hh
    have hcard := Finset.card_insert_of_notMem (s.length_not_mem_holders q)
    refine ⟨pkg.reserved, by simp only [Db.putPackage]; rw [Table.get_set hp, if_pos rfl], ?_, ?_⟩
    · rw [hh, hcard, Package.reserved]
      push_cast
      omega
    · rw [hh, hcard, Package.reserved]
      push_cast
      omega
  · rw [if_neg (by rw [hb]; exact hq)] at hh
    exact ⟨pkg, by simp only [Db.putPackage]; rw [Table.get_set hx, if_neg hq, hp],
      by rw [hh, hsum], by rw [hh]; exact hle⟩

/-- A booking that holds a seat is cancelled. -/
theorem cancel {id : BookingId} {b : Booking} {x : Package} (hb : s.bookings[id]? = some b)
    (hst : b.status ≠ .cancelled) (hx : s.packages[b.packageId]? = some x)
    (h : SeatsConserved p s) :
    SeatsConserved p
      ((s.putPackage b.packageId x.released).putBooking id { b with status := .cancelled }) := by
  obtain ⟨pkg, hp, hsum, hle⟩ := h
  by_cases hq : b.packageId = p
  · subst hq
    rw [hp, Option.some.injEq] at hx
    subst hx
    have hmem : id ∈ s.holders b.packageId := Db.mem_holders.mpr ⟨b, hb, rfl, hst⟩
    have hh : Db.holders ((s.putPackage b.packageId pkg.released).putBooking id
        { b with status := .cancelled }) b.packageId = (s.holders b.packageId).erase id :=
      Db.holders_putBooking_cancelled (s := s.putPackage b.packageId pkg.released) hb rfl
    have hcard := Finset.card_erase_of_mem hmem
    have hpos := Finset.card_pos.mpr ⟨id, hmem⟩
    refine ⟨pkg.released, by simp only [Db.putBooking, Db.putPackage]; rw [Table.get_set hp,
      if_pos rfl], ?_, ?_⟩
    · rw [hh, hcard, Package.released]
      simp only
      omega
    · rw [hh, hcard, Package.released]
      simp only
      omega
  · have hh : Db.holders ((s.putPackage b.packageId x.released).putBooking id
        { b with status := .cancelled }) p = s.holders p :=
      Db.holders_putBooking_other (s := s.putPackage b.packageId x.released) hb hq hq
    exact ⟨pkg, by simp only [Db.putBooking, Db.putPackage]; rw [Table.get_set hx, if_neg hq, hp],
      by rw [hh, hsum], by rw [hh]; exact hle⟩

/-- A step is updated: a booking gets back to life exactly when it is `CANCELLED` and the update
completes its steps. -/
theorem stepped_iff {id : BookingId} {key : DossierStepKey} {status : DossierStepStatus}
    (h : SeatsConserved p s) (hs : s.Stepped id key status s') :
    SeatsConserved p s' ↔ ∀ b, s.bookings[id]? = some b → b.packageId = p →
      (b.withStep key status 0).allDone = true → b.status ≠ .cancelled := by
  obtain ⟨pkg, hp, hsum, hle⟩ := h
  have hp' : s'.packages[p]? = some pkg := by rw [hs.packages_eq, hp]
  rcases hs.bookings_eq with ⟨hn, hbk⟩ | ⟨b, now, hb, hbk⟩
  · have hh : s'.holders p = s.holders p := by rw [Db.holders, hbk, Db.holders]
    refine ⟨fun _ b hb => ?_, fun _ => ⟨pkg, hp', by rw [hh, hsum], by rw [hh]; exact hle⟩⟩
    rw [hn] at hb
    cases hb
  · have hh : s'.holders p = (s.putBooking id (b.withStep key status now).confirmIfDone).holders p :=
      by rw [Db.holders, hbk]; rfl
    by_cases hrev : b.packageId = p ∧ (b.withStep key status 0).allDone = true ∧
        b.status = .cancelled
    · -- The booking holds a seat again, and the counter does not change.
      obtain ⟨hpk, hd, hst⟩ := hrev
      have hconf : (b.withStep key status now).confirmIfDone.status ≠ .cancelled := by
        rw [Booking.status_after_step, if_pos hd]
        decide
      have hnot : id ∉ s.holders p := by
        rw [Db.mem_holders]
        rintro ⟨b', hb', -, hst'⟩
        rw [hb, Option.some.injEq] at hb'
        subst hb'
        exact hst' hst
      have hins : s'.holders p = insert id (s.holders p) :=
        hh.trans (Db.holders_putBooking_insert hb hpk hconf)
      constructor
      · rintro ⟨pkg', hpkg', hsum', -⟩
        rw [hp', Option.some.injEq] at hpkg'
        subst hpkg'
        rw [hins, Finset.card_insert_of_notMem hnot, hsum] at hsum'
        omega
      · exact fun hall => absurd hst (hall b hb hpk hd)
    · have hsame : s'.holders p = s.holders p := by
        by_cases hpk : b.packageId = p
        · rw [hh]
          refine Db.holders_putBooking_same hb rfl ?_
          rw [Booking.status_after_step]
          by_cases hd : (b.withStep key status 0).allDone = true
          · simp [hd, show b.status ≠ .cancelled from fun hst => hrev ⟨hpk, hd, hst⟩]
          · simp [hd]
        · rw [hh]
          exact Db.holders_putBooking_other hb hpk hpk
      refine ⟨fun _ b' hb' hpk hd hst => ?_, fun _ => ⟨pkg, hp', by rw [hsame, hsum],
        by rw [hsame]; exact hle⟩⟩
      rw [hb, Option.some.injEq] at hb'
      subst hb'
      exact hrev ⟨hpk, hd, hst⟩

/-- **Step.** A request keeps the seats exactly when it does not revive a booking. -/
theorem request_iff {q : Request} (hq : q.IsSeat) {r : Except Erreur Unit}
    (h : SeatsConserved p s) (hr : prisma.Runs (handler q) s r s') :
    SeatsConserved p s' ↔ ¬ Revives p s q := by
  by_cases hstep : q.IsStep
  · have hs := stepRequest_runs hstep hr
    rcases ho : s.stepOf q with _ | ⟨id, key, status⟩
    · rw [ho] at hs
      rw [hs]
      refine ⟨fun _ ⟨_, _, _, _, _, _, _, _, ho', _⟩ => ?_, fun _ => h⟩
      rw [ho] at ho'
      cases ho'
    · rw [ho] at hs
      rw [stepped_iff h hs]
      constructor
      · rintro hall ⟨_, b, hb, hpk, hst, _, _, b', ho', hb', hd⟩
        rw [ho] at ho'
        cases ho'
        rw [hb, Option.some.injEq] at hb'
        subst hb'
        exact hall b hb hpk hd hst
      · exact fun hno b hb hpk hd hst =>
          hno ⟨id, b, hb, hpk, hst, key, status, b, ho, hb, hd⟩
  · have hno : ¬ Revives p s q := by
      rintro ⟨_, _, _, _, _, key, status, _, ho, _⟩
      cases q <;> first | exact hstep trivial | cases ho
    refine ⟨fun _ => hno, fun _ => ?_⟩
    cases q with
    | createBooking pilgrimId id =>
      obtain ⟨r', hr⟩ := Backend.runs_void hr
      rcases create_runs hr with rfl | ⟨x, hx, rfl⟩ | ⟨x, b, hx, -, hlt, hb, hst, -, rfl⟩
      · exact h
      · exact h.putPackage hx rfl rfl
      · exact h.create hx hlt hb hst
    | cancelBooking pilgrimId id =>
      obtain ⟨r', hr⟩ := Backend.runs_void hr
      rcases cancel_runs hr with ⟨-, rfl⟩ | ⟨b, x, hc, rfl⟩
      · exact h
      · obtain ⟨hb, -, hst, hx⟩ := Db.cancelled_eq_some.mp hc
        exact h.cancel hb hst hx
    | closePackage ownerId id =>
      obtain ⟨r', hr⟩ := Backend.runs_void hr
      rcases close_runs hr with rfl | ⟨x, hx, rfl⟩
      · exact h
      · exact h.putPackage hx rfl rfl
    | _ => exact absurd hq hstep

end SeatsConserved

/-- **Seat conservation.** From a package that has no booking yet, the seats are conserved after
every request of a run if and only if no request of the run revives a booking of the package. -/
theorem seats_conserved_iff {p : PackageId} {s : Db} {pkg : Package}
    (hp : s.packages[p]? = some pkg) (hn : pkg.seatsTaken = 0) (hc : 0 ≤ pkg.capacity)
    (hb : ∀ b ∈ s.bookings, b.packageId ≠ p) {tr : Trace Request Db} (hr : RunFrom s tr)
    (hq : ∀ x ∈ tr, x.1.IsSeat) :
    (∀ x ∈ tr, SeatsConserved p x.2) ↔ Trace.Steps (fun s q _ => ¬ Revives p s q) s tr := by
  have hempty : s.holders p = ∅ := by
    refine Finset.eq_empty_of_forall_notMem fun id hid => ?_
    obtain ⟨b, hb', hpk, -⟩ := Db.mem_holders.mp hid
    exact hb b (List.mem_of_getElem? hb') hpk
  have h₀ : SeatsConserved p s := ⟨pkg, hp, by simp [hempty, hn], by simp [hempty, hc]⟩
  rw [← Trace.steps_after (P := SeatsConserved p) (s := s)]
  refine hr.steps_iff (I := SeatsConserved p) (A := Request.IsSeat) ?_ ?_ hq h₀
  · intro s q r s' h ha hr hno
    have := (SeatsConserved.request_iff ha h hr).mpr hno
    exact ⟨this, this⟩
  · intro s q r s' h ha hr hrev hs'
    exact hrev ((SeatsConserved.request_iff ha h hr).mp hs')

/-- The five steps of booking `id` are completed. -/
def completeSteps (id : BookingId) : List Request := defaultSteps.map (.markStepDone id)

theorem seats_conserved_iff_exemple :
    (∀ x ∈ runAll {} .exemple [.createBooking 0 0, .cancelBooking 0 0], SeatsConserved 0 x.2) ↔
      Trace.Steps (fun s q _ => ¬ Revives 0 s q) .exemple
        (runAll {} .exemple [.createBooking 0 0, .cancelBooking 0 0]) :=
  seats_conserved_iff rfl rfl (by decide) (by simp [Db.exemple]) (Backend.evalAll_run _ _ _)
    (by simp [runAll, Backend.evalAll, Request.IsSeat])

/-- The only seat is booked, the booking cancelled, and its five steps are completed: the booking is
`CONFIRMED`, and the counter is 0. -/
theorem seats_not_conserved :
    ¬ ∀ p pkg s tr, s.packages[p]? = some pkg → pkg.seatsTaken = 0 → 0 ≤ pkg.capacity →
      (∀ b ∈ s.bookings, b.packageId ≠ p) → RunFrom s tr → (∀ x ∈ tr, x.1.IsSeat) →
      ∀ x ∈ tr, SeatsConserved p x.2 := by
  intro h
  have := h 0 _ .exemple
    (runAll {} .exemple ([.createBooking 0 0, .cancelBooking 0 0] ++ completeSteps 0)) rfl rfl
    (by decide) (by simp [Db.exemple]) (Backend.evalAll_run _ _ _)
    (by simp [runAll, Backend.evalAll, completeSteps, defaultSteps, Request.IsSeat, Request.IsStep])
  revert this
  decide

end OumraHajj
