import OumraHajj.Spec.Frame

/-!
# Bookings: what a handler does

One specification for each handler of `BookingsService` and `PackagesService`: the core of the
database after it. Completing a step (`Booking.withStep`) is always followed by
`Booking.confirmIfDone`, which sets the status to `CONFIRMED` when the five steps are done, whatever
the status was.
-/

namespace OumraHajj

open Async

namespace Booking

/-- The five steps are done. -/
def allDone (b : Booking) : Bool := defaultSteps.all fun key => (b.steps.get key).status = .done

/-- `maybeConfirm` on the row. -/
def confirmIfDone (b : Booking) : Booking :=
  { b with status := if b.allDone then .confirmed else b.status }

/-- `bookingStep.update` on the row. -/
def withStep (key : DossierStepKey) (status : DossierStepStatus) (now : Time) (b : Booking) :
    Booking :=
  { b with steps := b.steps.set key { status, updatedAt := now } }

@[simp] theorem confirmIfDone_packageId (b : Booking) :
    b.confirmIfDone.packageId = b.packageId := rfl

@[simp] theorem confirmIfDone_steps (b : Booking) : b.confirmIfDone.steps = b.steps := rfl

@[simp] theorem confirmIfDone_allDone (b : Booking) : b.confirmIfDone.allDone = b.allDone := rfl

@[simp] theorem withStep_packageId (key : DossierStepKey) (status : DossierStepStatus) (now : Time)
    (b : Booking) : (b.withStep key status now).packageId = b.packageId := rfl

@[simp] theorem withStep_status (key : DossierStepKey) (status : DossierStepStatus) (now : Time)
    (b : Booking) : (b.withStep key status now).status = b.status := rfl

theorem allDone_iff {b : Booking} : b.allDone = true ↔ ∀ key, (b.steps.get key).status = .done := by
  constructor
  · intro h key
    have hk : key ∈ defaultSteps := by cases key <;> decide
    simpa using List.all_eq_true.mp h key hk
  · intro h
    exact List.all_eq_true.mpr fun key _ => by simpa using h key

/-- The steps that are done do not depend on the time of an update. -/
theorem allDone_withStep (b : Booking) (key : DossierStepKey) (status : DossierStepStatus)
    (now : Time) : (b.withStep key status now).allDone = (b.withStep key status 0).allDone := by
  cases key <;> rfl

theorem status_after_step (b : Booking) (key : DossierStepKey) (status : DossierStepStatus)
    (now : Time) : (b.withStep key status now).confirmIfDone.status =
      if (b.withStep key status 0).allDone then .confirmed else b.status := by
  rw [confirmIfDone, allDone_withStep]
  rfl

theorem confirmIfDone_eq_of_not_allDone {b : Booking} (h : b.allDone = false) :
    b.confirmIfDone = b := by
  simp [confirmIfDone, h]

theorem confirmIfDone_eq_of_confirmed {b : Booking} (h : b.status = .confirmed) :
    b.confirmIfDone = b := by
  obtain ⟨⟩ := b
  subst h
  simp [confirmIfDone]

theorem confirmIfDone_confirmIfDone (b : Booking) : b.confirmIfDone.confirmIfDone = b.confirmIfDone := by
  by_cases hd : b.allDone = true
  · refine confirmIfDone_eq_of_confirmed ?_
    unfold confirmIfDone
    rw [if_pos hd]
  · rw [confirmIfDone_eq_of_not_allDone (by simpa using hd)]

/-- Either a step is missing, or the booking is confirmed already. -/
theorem confirmIfDone_eq_self {b : Booking} (h : ¬ (b.allDone = true ∧ b.status ≠ .confirmed)) :
    b.confirmIfDone = b := by
  by_cases hd : b.allDone = true
  · have hst : b.status = .confirmed := by simpa [hd] using h
    exact confirmIfDone_eq_of_confirmed hst
  · exact confirmIfDone_eq_of_not_allDone (by simpa using hd)

end Booking

namespace Db

/-- The row of a booking is replaced. -/
def putBooking (s : Db) (id : BookingId) (b : Booking) : Db :=
  { s with bookings := s.bookings.set id b }

/-- The row of a package is replaced. -/
def putPackage (s : Db) (id : PackageId) (p : Package) : Db :=
  { s with packages := s.packages.set id p }

theorem putBooking_self {s : Db} {id : BookingId} {b : Booking} (h : s.bookings[id]? = some b) :
    s.putBooking id b = s := by
  rw [putBooking, Table.set_self h]

@[simp] theorem putBooking_putBooking (s : Db) (id : BookingId) (b b' : Booking) :
    (s.putBooking id b).putBooking id b' = s.putBooking id b' := by
  simp [putBooking]

theorem putBooking_get {s : Db} {id : BookingId} {b : Booking} (h : s.bookings[id]? = some b)
    (b' : Booking) : (s.putBooking id b').bookings[id]? = some b' := by
  rw [putBooking, Table.get_set h, if_pos rfl]

/-- The user owns the agency of the booking. -/
def owns (s : Db) (ownerId : UserId) (id : BookingId) : Bool :=
  match s.bookings[id]?, s.agencyOf ownerId with
  | some b, some (agencyId, _) => b.agencyId = agencyId
  | _, _ => false

theorem owns_iff {s : Db} {ownerId : UserId} {id : BookingId} : s.owns ownerId id = true ↔
    ∃ b agency, s.bookings[id]? = some b ∧ s.agencyOf ownerId = some (b.agencyId, agency) := by
  unfold owns
  rcases s.bookings[id]? with _ | b
  · simp
  · rcases s.agencyOf ownerId with _ | ⟨agencyId, agency⟩
    · simp
    · simp [eq_comm]

/-- What the update of a step does to the core. -/
def Stepped (s : Db) (id : BookingId) (key : DossierStepKey) (status : DossierStepStatus)
    (s' : Db) : Prop :=
  match s.bookings[id]? with
  | none => s'.core = s.core
  | some b => ∃ now, s'.core = (s.putBooking id (b.withStep key status now).confirmIfDone).core

end Db

theorem exec_bookingStepUpdate {s : Db} {id : BookingId} {b : Booking}
    (hb : s.bookings[id]? = some b) (key : DossierStepKey) (status : DossierStepStatus) (e : Env) :
    exec (.bookingStepUpdate id key status) e s =
      (some (), s.putBooking id (b.withStep key status e.now)) := by
  simp only [exec, hb]
  rfl

/-- A request of the owner of the agency goes on; any other one ends without a change. -/
theorem assertAgencyOwnership_bind {α : Type} {ownerId : UserId} {id : BookingId} {b : Booking}
    {f : Unit → Req α} {s s' : Db} {r : Except Erreur α}
    (h : prisma.Runs
      (Prog.bind (BookingsService.assertAgencyOwnership ownerId (toBookingShape id b)) f) s r s') :
    (∃ agency, s.agencyOf ownerId = some (b.agencyId, agency) ∧ prisma.Runs (f ()) s r s') ∨
      ((∀ agencyId agency, s.agencyOf ownerId = some (agencyId, agency) → b.agencyId ≠ agencyId) ∧
        s' = s) := by
  simp only [BookingsService.assertAgencyOwnership, AgenciesService.findByOwnerOrFail, Prog.bind_eq,
    await_bind, Prog.call_bind, Backend.runs_call, prisma_exec, exec] at h
  obtain ⟨_, h⟩ := h
  rcases ha : s.agencyOf ownerId with _ | ⟨agencyId, agency⟩
  · simp only [ha, Prog.fail_bind, Backend.runs_fail] at h
    exact .inr ⟨by simp, h.2⟩
  · simp only [ha, Prog.pure_eq, Prog.ret_bind] at h
    by_cases heq : (toBookingShape id b).agencyId = (toAgencyShape agencyId agency).id
    · rw [if_neg (not_not.mpr heq)] at h
      exact .inl ⟨agency, congrArg (fun i => some (i, agency)) heq.symm, h⟩
    · rw [if_pos heq] at h
      refine .inr ⟨fun i a hi => ?_, h.2⟩
      cases hi
      exact heq

section Confirm

variable {id : BookingId} {s s' : Db} {r : Except Erreur BookingShape}

theorem allDone_toBookingShape (id : BookingId) (b : Booking) :
    BookingsService.allDone (toBookingShape id b) = b.allDone := by
  rw [BookingsService.allDone, toBookingShape, List.all_map]
  rfl

theorem maybeConfirm_core {b : Booking} (hb : s.bookings[id]? = some b)
    (h : prisma.Runs (BookingsService.maybeConfirm id) s r s') :
    s'.core = (s.putBooking id b.confirmIfDone).core := by
  simp only [BookingsService.maybeConfirm, BookingsService.findByIdOrFail, Prog.bind_eq, await_bind,
    Prog.call_bind, Backend.runs_call, prisma_exec, exec, hb, Prog.pure_eq, Prog.ret_bind,
    allDone_toBookingShape] at h
  obtain ⟨_, h⟩ := h
  split at h
  · rename_i hc
    simp only [BookingsService.updateStatus, Prog.bind_eq, await_bind, Prog.call_bind,
      Backend.runs_call, prisma_exec, exec, hb, Prog.pure_eq, Prog.ret_bind] at h
    obtain ⟨_, h⟩ := h
    rw [Booking.confirmIfDone, if_pos hc.1]
    exact core_of_uses (uses_afterConfirmation informs_quiet _ _) h
  · rename_i hc
    obtain ⟨-, rfl⟩ := h
    rw [Booking.confirmIfDone_eq_self hc, Db.putBooking_self hb]

/-- The update of a step that exists, and the confirmation after it. -/
theorem maybeConfirm_after_step {b : Booking} (hb : s.bookings[id]? = some b) {key : DossierStepKey}
    {status : DossierStepStatus} {now : Time}
    (h : prisma.Runs (BookingsService.maybeConfirm id)
      (s.putBooking id (b.withStep key status now)) r s') :
    s'.core = (s.putBooking id (b.withStep key status now).confirmIfDone).core := by
  have := maybeConfirm_core (Db.putBooking_get hb _) h
  rwa [Db.putBooking_putBooking] at this

theorem markStepDone_runs {key : DossierStepKey}
    (h : prisma.Runs (BookingsService.markStepDone id key) s r s') : s.Stepped id key .done s' := by
  rw [Db.Stepped]
  simp only [BookingsService.markStepDone, Prog.bind_eq, await_bind, Backend.runs_call, prisma_exec,
    exec] at h
  obtain ⟨e, h⟩ := h
  rcases hb : s.bookings[id]? with _ | b
  · simp only [hb, Backend.runs_fail] at h
    rw [h.2]
  · simp only [hb] at h
    refine ⟨e.now, ?_⟩
    rcases Backend.runs_bind.mp h with ⟨updated, s₁, hc, h⟩ | ⟨x, hc, -⟩
    · have hq : s'.core = s₁.core := core_of_uses (uses_afterStep informs_quiet _ _) h
      exact hq.trans (maybeConfirm_after_step hb hc)
    · exact maybeConfirm_after_step hb hc

theorem updateStep_runs {ownerId : UserId} {key : DossierStepKey} {status : DossierStepStatus}
    (h : prisma.Runs (BookingsService.updateStep ownerId id key status) s r s') :
    if s.owns ownerId id then s.Stepped id key status s' else s' = s := by
  rw [Db.Stepped, Db.owns]
  simp only [BookingsService.updateStep, BookingsService.findByIdOrFail, Prog.bind_eq, await_bind,
    Prog.call_bind, Backend.runs_call, prisma_exec, exec] at h
  obtain ⟨_, h⟩ := h
  rcases hb : s.bookings[id]? with _ | b
  · simp only [hb, Prog.fail_bind, Backend.runs_fail] at h
    simpa using h.2
  simp only [hb, Prog.pure_eq, Prog.ret_bind] at h
  rcases assertAgencyOwnership_bind h with ⟨agency, ha, h⟩ | ⟨ha, rfl⟩
  · simp only [Backend.runs_call, prisma_exec, exec, toBookingShape, hb] at h
    obtain ⟨e, h⟩ := h
    simp only [ha, decide_true, if_true]
    refine ⟨e.now, ?_⟩
    rcases Backend.runs_bind.mp h with ⟨updated, s₁, hc, h⟩ | ⟨x, hc, -⟩
    · have hq : s'.core = s₁.core := by
        split at h
        · exact core_of_uses (uses_afterStep informs_quiet _ _) h
        · rw [h.2]
      exact hq.trans (maybeConfirm_after_step hb hc)
    · exact maybeConfirm_after_step hb hc
  · rcases hx : s'.agencyOf ownerId with _ | ⟨agencyId, agency⟩
    · simp
    · simp [ha agencyId agency hx]

end Confirm

/-! ## The requests that update a step -/

namespace Db

variable {s s' : Db} {id : BookingId} {key : DossierStepKey} {status : DossierStepStatus}

/-- Only the row of the booking changes in the core. -/
theorem Stepped.core_eq (h : s.Stepped id key status s') :
    (s.bookings[id]? = none ∧ s'.core = s.core) ∨
      ∃ b now, s.bookings[id]? = some b ∧
        s'.core = (s.putBooking id (b.withStep key status now).confirmIfDone).core := by
  rw [Stepped] at h
  rcases hb : s.bookings[id]? with _ | b
  · exact .inl ⟨rfl, by simpa only [hb] using h⟩
  · rw [hb] at h
    obtain ⟨now, h⟩ := h
    exact .inr ⟨b, now, rfl, h⟩

theorem Stepped.packages_eq (h : s.Stepped id key status s') : s'.packages = s.packages := by
  rcases h.core_eq with ⟨-, hc⟩ | ⟨b, now, -, hc⟩
  · exact packages_of_core hc
  · exact (packages_of_core hc : s'.packages = (s.putBooking id _).packages)

theorem Stepped.payments_eq (h : s.Stepped id key status s') : s'.payments = s.payments := by
  rcases h.core_eq with ⟨-, hc⟩ | ⟨b, now, -, hc⟩
  · exact payments_of_core hc
  · exact (payments_of_core hc : s'.payments = (s.putBooking id _).payments)

theorem Stepped.bookings_eq (h : s.Stepped id key status s') :
    (s.bookings[id]? = none ∧ s'.bookings = s.bookings) ∨
      ∃ b now, s.bookings[id]? = some b ∧
        s'.bookings = s.bookings.set id (b.withStep key status now).confirmIfDone := by
  rcases h.core_eq with ⟨hn, hc⟩ | ⟨b, now, hb, hc⟩
  · exact .inl ⟨hn, bookings_of_core hc⟩
  · exact .inr ⟨b, now, hb, bookings_of_core hc⟩

/-- The update that a request makes on the steps of a booking, if it is one and its author may
make it. -/
def stepOf (s : Db) : Request → Option (BookingId × DossierStepKey × DossierStepStatus)
  | .updateStep ownerId id key status => if s.owns ownerId id then some (id, key, status) else none
  | .markStepDone id key => some (id, key, .done)
  | _ => none

/-- The request leaves the five steps of booking `id` done. -/
def Completes (s : Db) (q : Request) (id : BookingId) : Prop :=
  ∃ key status b, s.stepOf q = some (id, key, status) ∧ s.bookings[id]? = some b ∧
    (b.withStep key status 0).allDone = true

end Db

/-- `updateStep` or `markStepDone`. -/
def Request.IsStep : Request → Prop
  | .updateStep _ _ _ _ => True
  | .markStepDone _ _ => True
  | _ => False

theorem stepRequest_runs {q : Request} (hq : q.IsStep) {s s' : Db} {r : Except Erreur Unit}
    (h : prisma.Runs (handler q) s r s') :
    match s.stepOf q with
    | some (id, key, status) => s.Stepped id key status s'
    | none => s' = s := by
  cases q with
  | updateStep ownerId id key status =>
    obtain ⟨r', h⟩ := Backend.runs_void h
    have := updateStep_runs h
    rw [Db.stepOf]
    by_cases ho : s.owns ownerId id = true
    · simpa only [ho, if_true] using this
    · simpa [ho] using this
  | markStepDone id key =>
    obtain ⟨r', h⟩ := Backend.runs_void h
    exact markStepDone_runs h
  | _ => exact hq.elim

end OumraHajj
