import OumraHajj.Spec.Bookings

/-!
# Seats: what a handler does

The handlers that write a package: the creation of a booking takes a seat (`Package.reserved`), its
cancellation gives it back (`Package.released`), and the agency closes the package.
-/

namespace OumraHajj

open Async

namespace Package

/-- The row after `reserveSeat`. -/
def reserved (p : Package) : Package :=
  { p with
    seatsTaken := p.seatsTaken + 1
    status := if p.seatsTaken + 1 ≥ p.capacity then .full else p.status }

/-- The row after `releaseSeat`. -/
def released (p : Package) : Package :=
  { p with
    seatsTaken := max 0 (p.seatsTaken - 1)
    status := if p.status = .full ∧ max 0 (p.seatsTaken - 1) < p.capacity then .open else p.status }

end Package

section Seats

variable {id : PackageId} {s s' : Db}

theorem reserveSeat_runs {r : Except Erreur PackageShape}
    (h : prisma.Runs (PackagesService.reserveSeat id) s r s') :
    (∃ x, r = .error x ∧ (s' = s ∨ ∃ p, s.packages[id]? = some p ∧ p.capacity ≤ p.seatsTaken ∧
      s' = s.putPackage id { p with status := .full })) ∨
    ∃ p shape, s.packages[id]? = some p ∧ p.status = .open ∧ p.seatsTaken < p.capacity ∧
      r = .ok shape ∧ s' = s.putPackage id p.reserved := by
  simp only [PackagesService.reserveSeat, PackagesService.findByIdOrFail, PackagesService.update,
    Prog.bind_eq, await_bind, Prog.call_bind, Backend.runs_call, prisma_exec, exec] at h
  obtain ⟨_, h⟩ := h
  rcases hp : s.packages[id]? with _ | p
  · simp only [hp, Prog.fail_bind, Backend.runs_fail] at h
    exact .inl ⟨_, h.1, .inl h.2⟩
  simp only [hp, Prog.pure_eq, Prog.ret_bind] at h
  by_cases hst : (toPackageShape id p).status = .open
  · rw [if_neg (not_not.mpr hst)] at h
    by_cases hfull : (toPackageShape id p).seatsTaken ≥ (toPackageShape id p).capacity
    · rw [if_pos hfull] at h
      simp only [Backend.runs_call, prisma_exec, exec, toPackageShape, hp, Prog.ret_bind,
        Backend.runs_fail] at h
      obtain ⟨_, h⟩ := h
      exact .inl ⟨_, h.1, .inr ⟨p, rfl, hfull, h.2⟩⟩
    · rw [if_neg hfull] at h
      simp only [Backend.runs_call, prisma_exec, exec, toPackageShape, hp, Backend.runs_ret] at h
      obtain ⟨_, h⟩ := h
      exact .inr ⟨p, _, rfl, hst, not_le.mp hfull, h.1, h.2⟩
  · rw [if_pos hst] at h
    exact .inl ⟨_, h.1, .inl h.2⟩

theorem releaseSeat_runs {r : Except Erreur PackageShape}
    (h : prisma.Runs (PackagesService.releaseSeat id) s r s') :
    (∃ x, s.packages[id]? = none ∧ r = .error x ∧ s' = s) ∨
    ∃ p shape, s.packages[id]? = some p ∧ r = .ok shape ∧ s' = s.putPackage id p.released := by
  simp only [PackagesService.releaseSeat, PackagesService.findByIdOrFail, PackagesService.update,
    Prog.bind_eq, await_bind, Prog.call_bind, Backend.runs_call, prisma_exec, exec] at h
  obtain ⟨_, h⟩ := h
  rcases hp : s.packages[id]? with _ | p
  · simp only [hp, Prog.fail_bind, Backend.runs_fail] at h
    exact .inl ⟨_, rfl, h.1, h.2⟩
  · simp only [hp, Prog.pure_eq, Prog.ret_bind, Backend.runs_call, prisma_exec, exec,
      toPackageShape, Backend.runs_ret] at h
    obtain ⟨_, h⟩ := h
    exact .inr ⟨p, _, rfl, h.1, h.2⟩

end Seats

section Requests

variable {s s' : Db}

/-- What a booking freezes of the schedule of an agency. -/
def Db.snapshotOf (s : Db) (agencyId : AgencyId) : Option Json :=
  let paliers := (s.refundPolicyTiers.filter (·.agencyId = agencyId)).insertionSort
    fun x y => y.minDaysBeforeDeparture ≤ x.minDaysBeforeDeparture
  if paliers.length > 0 then some (tiersJson paliers) else none

/-- The row of a booking that is created. -/
structure NewBooking (s : Db) (pilgrimId : UserId) (id : PackageId) (p : Package) (b : Booking) :
    Prop where
  pilgrim : b.pilgrimId = pilgrimId
  package : b.packageId = id
  agency : b.agencyId = p.agencyId
  snapshot : b.refundPolicySnapshot = s.snapshotOf p.agencyId
  status : b.status = .pendingPayment
  steps : ∀ key, (b.steps.get key).status = .pending

/-- A booking is created with a seat, or not at all; a refusal may mark the package `FULL`. -/
theorem create_row {pilgrimId : UserId} {id : PackageId} {r : Except Erreur BookingShape}
    (h : prisma.Runs (BookingsService.create pilgrimId id) s r s') :
    ((∃ x, r = .error x) ∧
      (s' = s ∨ ∃ p, s.packages[id]? = some p ∧ s' = s.putPackage id { p with status := .full })) ∨
    ∃ p b, s.packages[id]? = some p ∧ p.status = .open ∧ p.seatsTaken < p.capacity ∧
      NewBooking s pilgrimId id p b ∧
      s' = { s.putPackage id p.reserved with bookings := s.bookings ++ [b] } := by
  simp only [BookingsService.create, PackagesService.findByIdOrFail, Prog.bind_eq, await_bind,
    Prog.call_bind, Backend.runs_call, prisma_exec, exec] at h
  obtain ⟨_, h⟩ := h
  rcases hp : s.packages[id]? with _ | p
  · simp only [hp, Prog.fail_bind, Backend.runs_fail] at h
    exact .inl ⟨⟨_, h.1⟩, .inl h.2⟩
  simp only [hp, Prog.pure_eq, Prog.ret_bind, Backend.runs_call, prisma_exec, exec] at h
  obtain ⟨_, h⟩ := h
  rcases Backend.runs_bind.mp h with ⟨shape, s₁, hr, h⟩ | ⟨x, hr, rfl⟩
  · rcases reserveSeat_runs hr with ⟨x, hx, -⟩ | ⟨p', _, hp', hst, hlt, -, rfl⟩
    · cases hx
    · simp only [Backend.runs_call, prisma_exec, exec, Backend.runs_ret] at h
      obtain ⟨e, h⟩ := h
      rw [hp, Option.some.injEq] at hp'
      subst hp'
      exact .inr ⟨p, _, rfl, hst, hlt, ⟨rfl, rfl, rfl, rfl, rfl, fun key => by cases key <;> rfl⟩, h.2⟩
  · rcases reserveSeat_runs hr with ⟨-, -, rfl | ⟨p', hp', -, rfl⟩⟩ | ⟨_, _, _, _, _, hx, _⟩
    · exact .inl ⟨⟨x, rfl⟩, .inl rfl⟩
    · exact .inl ⟨⟨x, rfl⟩, .inr ⟨p', hp ▸ hp', rfl⟩⟩
    · cases hx

/-- The same, without the pilgrim, the agency and the schedule of the booking. -/
theorem create_runs {pilgrimId : UserId} {id : PackageId} {r : Except Erreur BookingShape}
    (h : prisma.Runs (BookingsService.create pilgrimId id) s r s') :
    s' = s ∨
    (∃ p, s.packages[id]? = some p ∧ s' = s.putPackage id { p with status := .full }) ∨
    ∃ p b, s.packages[id]? = some p ∧ p.status = .open ∧ p.seatsTaken < p.capacity ∧
      b.packageId = id ∧ b.status = .pendingPayment ∧
      (∀ key, (b.steps.get key).status = .pending) ∧
      s' = { s.putPackage id p.reserved with bookings := s.bookings ++ [b] } := by
  rcases create_row h with ⟨-, h | h⟩ | ⟨p, b, hp, hst, hlt, hb, h⟩
  · exact .inl h
  · exact .inr (.inl h)
  · exact .inr (.inr ⟨p, b, hp, hst, hlt, hb.package, hb.status, hb.steps, h⟩)

/-- The booking that a call of `cancel` changes to `CANCELLED`, with its package. -/
def Db.cancelled (s : Db) (pilgrimId : UserId) (id : BookingId) : Option (Booking × Package) :=
  (s.bookings[id]?).bind fun b =>
    if b.pilgrimId = pilgrimId ∧ b.status ≠ .cancelled then
      (s.packages[b.packageId]?).map fun p => (b, p)
    else none

theorem Db.cancelled_eq_some {pilgrimId : UserId} {id : BookingId} {b : Booking} {p : Package} :
    s.cancelled pilgrimId id = some (b, p) ↔ s.bookings[id]? = some b ∧ b.pilgrimId = pilgrimId ∧
      b.status ≠ .cancelled ∧ s.packages[b.packageId]? = some p := by
  rw [Db.cancelled, Option.bind_eq_some_iff]
  constructor
  · rintro ⟨b', hb, h⟩
    split at h
    · rename_i hc
      obtain ⟨p', hp, hx⟩ := Option.map_eq_some_iff.mp h
      cases hx
      exact ⟨hb, hc.1, hc.2, hp⟩
    · cases h
  · rintro ⟨hb, hpil, hst, hp⟩
    exact ⟨b, hb, by rw [if_pos ⟨hpil, hst⟩, hp]; rfl⟩

theorem Db.cancelled_of_not {pilgrimId : UserId} {id : BookingId} {b : Booking}
    (hb : s.bookings[id]? = some b)
    (hn : ¬ (b.pilgrimId = pilgrimId ∧ b.status ≠ .cancelled)) : s.cancelled pilgrimId id = none := by
  rw [Db.cancelled, hb, Option.bind_some, if_neg hn]

/-- A cancellation gives the seat back unless the booking is `CANCELLED` already. -/
theorem cancel_runs {pilgrimId : UserId} {id : BookingId} {r : Except Erreur BookingShape}
    (h : prisma.Runs (BookingsService.cancel pilgrimId id) s r s') :
    s.cancelled pilgrimId id = none ∧ s' = s ∨ ∃ b p, s.cancelled pilgrimId id = some (b, p) ∧
      s' = (s.putPackage b.packageId p.released).putBooking id { b with status := .cancelled } := by
  simp only [BookingsService.cancel, BookingsService.findByIdOrFail, BookingsService.updateStatus,
    Prog.bind_eq, await_bind, Prog.call_bind, Backend.runs_call, prisma_exec, exec] at h
  obtain ⟨_, h⟩ := h
  rcases hb : s.bookings[id]? with _ | b
  · simp only [hb, Prog.fail_bind, Backend.runs_fail] at h
    exact .inl ⟨by rw [Db.cancelled, hb]; rfl, h.2⟩
  simp only [hb, Prog.pure_eq, Prog.ret_bind] at h
  by_cases hpil : (toBookingShape id b).pilgrimId = pilgrimId
  · rw [if_neg (not_not.mpr hpil)] at h
    by_cases hst : (toBookingShape id b).status = .cancelled
    · rw [if_neg (not_not.mpr hst)] at h
      simp only [Backend.runs_call, prisma_exec, exec, toBookingShape, hb, Backend.runs_ret] at h
      obtain ⟨_, -, rfl⟩ := h
      have hself : { b with status := .cancelled } = b := by cases b; cases hst; rfl
      exact .inl ⟨Db.cancelled_of_not hb fun hc => hc.2 hst,
        (congrArg (s.putBooking id) hself).trans (Db.putBooking_self hb)⟩
    · rw [if_pos hst] at h
      rcases Backend.runs_bind.mp h with ⟨shape, s₁, hr, h⟩ | ⟨x, hr, -⟩
      · rcases releaseSeat_runs hr with ⟨x, -, hx, -⟩ | ⟨p, _, hp, -, rfl⟩
        · cases hx
        · simp only [Backend.runs_call, prisma_exec, exec, toBookingShape, Db.putPackage, hb,
            Backend.runs_ret] at h
          obtain ⟨_, -, rfl⟩ := h
          exact .inr ⟨b, p, Db.cancelled_eq_some.mpr ⟨hb, hpil, hst, hp⟩, rfl⟩
      · rcases releaseSeat_runs hr with ⟨-, hp, -, rfl⟩ | ⟨_, _, _, hx, _⟩
        · have hp' : s'.packages[b.packageId]? = none := hp
          refine .inl ⟨?_, rfl⟩
          rw [Db.cancelled, hb, Option.bind_some, if_pos ⟨hpil, hst⟩, hp']
          rfl
        · cases hx
  · rw [if_pos hpil] at h
    exact .inl ⟨Db.cancelled_of_not hb fun hc => hpil hc.1, h.2⟩

theorem close_runs {ownerId : UserId} {id : PackageId} {r : Except Erreur PackageShape}
    (h : prisma.Runs (PackagesService.close ownerId id) s r s') :
    s' = s ∨ ∃ p, s.packages[id]? = some p ∧ s' = s.putPackage id { p with status := .closed } := by
  simp only [PackagesService.close, PackagesService.findByIdOrFail, PackagesService.assertOwnership,
    AgenciesService.findByOwnerOrFail, PackagesService.update, Prog.bind_eq, await_bind,
    Prog.call_bind, Backend.runs_call, prisma_exec, exec] at h
  obtain ⟨_, h⟩ := h
  rcases hp : s.packages[id]? with _ | p
  · simp only [hp, Prog.fail_bind, Backend.runs_fail] at h
    exact .inl h.2
  simp only [hp, Prog.pure_eq, Prog.ret_bind, Backend.runs_call, prisma_exec, exec] at h
  obtain ⟨_, h⟩ := h
  rcases ha : s.agencyOf ownerId with _ | ⟨agencyId, agency⟩
  · simp only [ha, Prog.fail_bind, Backend.runs_fail] at h
    exact .inl h.2
  simp only [ha, Prog.ret_bind] at h
  by_cases heq : (toPackageShape id p).agencyId = (toAgencyShape agencyId agency).id
  · rw [if_neg (not_not.mpr heq)] at h
    simp only [Prog.ret_bind, Backend.runs_call, prisma_exec, exec, toPackageShape, hp,
      Backend.runs_ret] at h
    obtain ⟨_, -, rfl⟩ := h
    exact .inr ⟨p, rfl, rfl⟩
  · rw [if_pos heq] at h
    exact .inl h.2

end Requests

end OumraHajj
