import OumraHajj.Async.Failure
import OumraHajj.Spec.Packages

/-!
# Failed writes

What is left of a request of several writes when one of them fails. `BookingsService.create`,
`BookingsService.cancel` and `AgenciesService.register` open no transaction, so what was written
before the failure stays: a seat without a booking, an account without its agency. The database is
the one before the request when the first write fails, and when the release that a cancellation
starts with changes nothing (`Unchanged`).
-/

namespace OumraHajj

open Async

/-- The statement writes a row or has an effect outside. -/
def Stmt.isWrite : Stmt → Bool
  | .userCreate _ => true
  | .agencyCreate _ => true
  | .packageUpdate _ _ => true
  | .bookingCreate _ _ _ _ => true
  | .bookingUpdate _ _ => true
  | .bookingStepUpdate _ _ _ => true
  | .paymentCreate _ _ _ _ _ => true
  | .paymentUpdate _ _ => true
  | .documentCreate _ _ _ _ _ => true
  | .documentUpdate _ _ => true
  | .checklistItemCreateMany _ => true
  | .notificationCreateMany _ => true
  | .sendRawSms _ _ => true
  | .auditLogCreate _ => true
  | .invoiceEmettre _ _ _ _ _ => true
  | .providerRefund _ _ => true
  | _ => false

theorem readOnly_of_not_isWrite (c : Stmt) (hc : c.isWrite = false) : ReadOnly c := by
  intro e s
  cases c <;> first | rfl | cases hc

namespace Package

/-- The release of a seat changes nothing: no seat is taken, and the package is not `FULL` with a
positive capacity. -/
def Idle (p : Package) : Prop := p.seatsTaken = 0 ∧ ¬ (p.status = .full ∧ 0 < p.capacity)

instance (p : Package) : Decidable p.Idle :=
  inferInstanceAs (Decidable (p.seatsTaken = 0 ∧ ¬ (p.status = .full ∧ 0 < p.capacity)))

theorem reserved_ne (p : Package) : p.reserved ≠ p := by
  intro h
  have : p.reserved.seatsTaken = p.seatsTaken := congrArg (·.seatsTaken) h
  have hs : p.reserved.seatsTaken = p.seatsTaken + 1 := rfl
  omega

theorem released_eq_iff {p : Package} : p.released = p ↔ p.Idle := by
  constructor
  · intro h
    have hs : max 0 (p.seatsTaken - 1) = p.seatsTaken := congrArg (·.seatsTaken) h
    have h0 : p.seatsTaken = 0 := by omega
    refine ⟨h0, fun hf => ?_⟩
    have hst : p.released.status = p.status := congrArg (·.status) h
    have hc : p.status = .full ∧ max 0 (p.seatsTaken - 1) < p.capacity := by
      rw [hs, h0]; exact hf
    rw [released, if_pos hc, hf.1] at hst
    cases hst
  · rintro ⟨h0, hf⟩
    have hs : max 0 (p.seatsTaken - 1) = p.seatsTaken := by omega
    rw [released, hs, if_neg (by rw [h0]; exact hf)]

end Package

theorem Db.putPackage_eq_iff {s : Db} {id : PackageId} {p p' : Package}
    (hp : s.packages[id]? = some p) : s.putPackage id p' = s ↔ p' = p := by
  constructor
  · intro h
    have hget : (s.putPackage id p').packages[id]? = some p' := by
      rw [Db.putPackage, Table.get_set hp, if_pos rfl]
    rw [h, hp] at hget
    exact (Option.some.inj hget).symm
  · rintro rfl
    rw [Db.putPackage, Table.set_self hp]

/-! ## What is written before the failure -/

section Failures

variable {n : Nat} {s s' : Db}

theorem once_updatePackage (id : PackageId) (data : PackageUpdate) :
    (PackagesService.update id data).Once Stmt.isWrite := by
  refine Prog.Once.last fun r => ?_
  rcases r with _ | p <;> trivial

theorem reads_findPackage (id : PackageId) :
    (PackagesService.findByIdOrFail id).Uses fun c => Stmt.isWrite c = false := by
  refine ⟨rfl, fun r => ?_⟩
  rcases r with _ | p <;> trivial

theorem once_reserveSeat (id : PackageId) :
    (PackagesService.reserveSeat id).Once Stmt.isWrite := by
  refine Prog.Once.bind (reads_findPackage id) fun pkg => ?_
  dsimp only
  split
  · trivial
  split
  · refine Prog.Once.last fun r => ?_
    rcases r with _ | p <;> trivial
  · exact once_updatePackage _ _

theorem once_releaseSeat (id : PackageId) :
    (PackagesService.releaseSeat id).Once Stmt.isWrite :=
  Prog.Once.bind (reads_findPackage id) fun _ => once_updatePackage _ _

theorem once_updateStatus (id : BookingId) (status : BookingStatus) :
    (BookingsService.updateStatus id status).Once Stmt.isWrite := by
  refine Prog.Once.last fun r => ?_
  rcases r with _ | b <;> trivial

theorem reads_findBooking (id : BookingId) :
    (BookingsService.findByIdOrFail id).Uses fun c => Stmt.isWrite c = false := by
  refine ⟨rfl, fun r => ?_⟩
  rcases r with _ | b <;> trivial

theorem findBooking_runs {id : BookingId} {shape : BookingShape}
    (h : prisma.Runs (BookingsService.findByIdOrFail id) s (.ok shape) s') :
    ∃ b, s.bookings[id]? = some b ∧ shape = toBookingShape id b := by
  obtain ⟨e, h⟩ := h
  rcases hb : s.bookings[id]? with _ | b
  · simp only [prisma_exec, exec, hb] at h
    cases h.1
  · simp only [prisma_exec, exec, hb, Prog.pure_eq] at h
    cases h.1
    exact ⟨b, rfl, rfl⟩

/-- A seat is taken, and the booking is not created. -/
theorem create_failsAt {pilgrimId : UserId} {id : PackageId}
    (h : prisma.FailsAt Stmt.isWrite (n + 1) (BookingsService.create pilgrimId id) s s') :
    ∃ p, s.packages[id]? = some p ∧ s' = s.putPackage id p.reserved := by
  obtain ⟨pkg, -, h⟩ := Backend.failsAt_reads_bind readOnly_of_not_isWrite (reads_findPackage id) h
  obtain ⟨paliers, -, h⟩ := Backend.failsAt_reads_bind (p := await (.refundPolicyTierFindMany _))
    readOnly_of_not_isWrite ⟨rfl, fun _ => trivial⟩ h
  rcases Backend.failsAt_bind h with h | ⟨_, s₁, m, hr, h⟩
  · exact (Backend.Once.not_failsAt (once_reserveSeat id) h).elim
  · rcases reserveSeat_runs hr with ⟨x, hx, -⟩ | ⟨p, _, hp, -, -, -, rfl⟩
    · cases hx
    · refine ⟨p, hp, h.of_once readOnly_of_not_isWrite (Prog.Once.last fun _ => ?_)⟩
      trivial

/-- A seat is given back, and the booking is not cancelled. -/
theorem cancel_failsAt {pilgrimId : UserId} {id : BookingId}
    (h : prisma.FailsAt Stmt.isWrite (n + 1) (BookingsService.cancel pilgrimId id) s s') :
    ∃ b p, s.bookings[id]? = some b ∧ s.packages[b.packageId]? = some p ∧
      s' = s.putPackage b.packageId p.released := by
  obtain ⟨shape, hr, h⟩ := Backend.failsAt_reads_bind readOnly_of_not_isWrite (reads_findBooking id) h
  obtain ⟨b, hb, rfl⟩ := findBooking_runs hr
  split at h
  · exact h.elim
  split at h
  · rcases Backend.failsAt_bind h with h | ⟨_, s₁, m, hr, h⟩
    · exact (Backend.Once.not_failsAt (once_releaseSeat _) h).elim
    · rcases releaseSeat_runs hr with ⟨x, -, hx, -⟩ | ⟨p, _, hp, -, rfl⟩
      · cases hx
      · exact ⟨b, p, hb, hp, h.of_once readOnly_of_not_isWrite (once_updateStatus _ _)⟩
  · exact (Backend.Once.not_failsAt (once_updateStatus _ _) h).elim

theorem reads_findByEmail (toLowerCase : String → String) (email : String) :
    (UsersService.findByEmail toLowerCase email).Uses fun c => Stmt.isWrite c = false :=
  ⟨rfl, fun _ => trivial⟩

theorem once_createUser (toLowerCase : String → String) (dto : CreateUserInternalDto) :
    (UsersService.create toLowerCase dto).Once Stmt.isWrite := by
  refine Prog.Once.last fun r => ?_
  rcases r with _ | u <;> trivial

theorem createUser_runs {toLowerCase : String → String} {dto : CreateUserInternalDto}
    {owner : UserShape} (h : prisma.Runs (UsersService.create toLowerCase dto) s (.ok owner) s') :
    ∃ u, s' = { s with users := s.users ++ [u] } := by
  obtain ⟨e, h⟩ := h
  simp only [prisma_exec, exec] at h
  split at h
  · cases h.1
  · exact ⟨_, h.2⟩

/-- The account of the owner is created, and the agency is not. -/
theorem register_failsAt {toLowerCase : String → String} {dto : RegisterAgencyDto}
    (h : prisma.FailsAt Stmt.isWrite (n + 1) (AgenciesService.register toLowerCase dto) s s') :
    ∃ u, s' = { s with users := s.users ++ [u] } := by
  obtain ⟨existing, -, h⟩ := Backend.failsAt_reads_bind readOnly_of_not_isWrite
    (reads_findByEmail toLowerCase dto.contactEmail) h
  rcases existing with _ | x
  · obtain ⟨hash, -, h⟩ := Backend.failsAt_reads_bind (p := await (.bcryptHash dto.password))
      readOnly_of_not_isWrite ⟨rfl, fun _ => trivial⟩ h
    rcases Backend.failsAt_bind h with h | ⟨owner, s₁, m, hr, h⟩
    · exact (Backend.Once.not_failsAt (once_createUser _ _) h).elim
    · obtain ⟨u, rfl⟩ := createUser_runs hr
      refine ⟨u, h.of_once readOnly_of_not_isWrite (Prog.Once.last fun r => ?_)⟩
      rcases r with code | ⟨id, agency⟩ <;> trivial
  · exact h.elim

end Failures

/-! ## The requests -/

/-- The requests of several writes. -/
inductive Demande where
  | create (pilgrimId : UserId) (packageId : PackageId)
  | cancel (pilgrimId : UserId) (bookingId : BookingId)
  | register (toLowerCase : String → String) (dto : RegisterAgencyDto)

namespace Demande

def handler : Demande → Req Unit
  | .create pilgrimId packageId => (BookingsService.create pilgrimId packageId).void
  | .cancel pilgrimId bookingId => (BookingsService.cancel pilgrimId bookingId).void
  | .register toLowerCase dto => (AgenciesService.register toLowerCase dto).void

/-- The write that fails is the first one, or the request is a cancellation whose release of the
seat changes nothing. -/
def Clean (q : Demande) (n : Nat) (s : Db) : Prop :=
  n = 0 ∨ match q with
    | .cancel _ bookingId =>
      ∃ b ∈ s.bookings[bookingId]?, ∃ p ∈ s.packages[b.packageId]?, p.Idle
    | _ => False

variable {q : Demande} {n : Nat} {s s' : Db}

end Demande

end OumraHajj
