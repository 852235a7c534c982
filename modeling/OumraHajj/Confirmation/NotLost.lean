import OumraHajj.Spec.Payments

/-!
# No confirmation is lost

Callbacks `SUCCEEDED` on the payments of a booking and completions of its steps run at once, in any
order. Each request writes its own row first and then reads what the others wrote, without a lock: a
callback writes its payment and reads the payments of the booking, a completion writes its step and
reads the five steps. So the last writer sees everything, and once all requests have ended nothing is
missing (`no_lost_confirmation`): if the payments cover the price, the `PAYMENT` step is done, and if
the five steps are done, the booking is `CONFIRMED`.

**Ghost values** (`Ph`): a callback that has not written its payment yet (`toPay`), one that has and
that has not read the payments yet (`paid`), one that has found the price covered and completes the
step next (`toMark`); a request that has completed a step and has not read the booking yet
(`stepDone`), and one that has found the five steps done and confirms next (`toConfirm`).
**Invariant** (`DossierInv`): what is missing has a request that will see to it.
-/

namespace OumraHajj

open Async

namespace NotLost

/-- How far a request has come (module doc). -/
inductive Ph where
  | outside
  | toPay
  | paid
  | toMark
  | stepDone
  | toConfirm

/-- The request will complete the `PAYMENT` step if the payments cover the price. -/
def Ph.pays : Ph → Bool
  | .toPay | .paid | .toMark => true
  | _ => false

/-- The request will confirm the booking if the five steps are done. -/
def Ph.confirms : Ph → Bool
  | .stepDone | .toConfirm => true
  | _ => false

/-- A request with something to see to has not ended. -/
def Ph.place (g : Ph) (n : Option Stmt) : Prop := g ≠ .outside → n ≠ none

/-- What identifies a payment for the requests: its reference and its booking. -/
def key (p : Payment) : String × BookingId := (p.providerReference, p.bookingId)

/-- The callbacks `SUCCEEDED` on payments of the booking, and the completions of its steps. -/
def OnDossier (id : BookingId) (s : Db) : Request → Prop
  | .webhook dto => dto.status = .succeeded ∧ ∃ pid p,
    s.payments.findFirst (·.providerReference = dto.providerReference) = some (pid, p) ∧
      p.bookingId = id
  | .updateStep _ id' _ status => id' = id ∧ status = .done
  | .markStepDone id' _ => id' = id
  | _ => False

variable {ι : Type} [DecidableEq ι] {id : BookingId} {packageId : PackageId} {pkg : Package}
  {s s₀ : Db} {γ : ι → Ph} {t : ι} {b : Booking}

/-- Some request has a ghost value that satisfies `f`. -/
def Busy (f : Ph → Bool) (γ : ι → Ph) : Prop := ∃ u, f (γ u) = true

structure DossierInv (id : BookingId) (packageId : PackageId) (pkg : Package) (s₀ : Db)
    (γ : ι → Ph) (s : Db) : Prop where
  row : ∃ b, s.bookings[id]? = some b ∧ b.packageId = packageId
  package : s.packages[packageId]? = some pkg
  keys : s.payments.map key = s₀.payments.map key
  payment : ∀ b, s.bookings[id]? = some b → pkg.price ≤ s.paidFor id →
    (b.steps.get .payment).status = .done ∨ Busy Ph.pays γ
  confirmed : ∀ b, s.bookings[id]? = some b → b.allDone = true →
    b.status = .confirmed ∨ Busy Ph.confirms γ

theorem busy_update {f : Ph → Bool} {g : Ph} (hg : f (γ t) = true → f g = true)
    (h : Busy f γ) : Busy f (Function.update γ t g) := by
  obtain ⟨u, hu⟩ := h
  by_cases hut : u = t
  · subst hut
    exact ⟨u, by rw [Function.update_self, hg hu]⟩
  · exact ⟨u, by rw [Function.update_of_ne hut, hu]⟩

theorem busy_self {f : Ph → Bool} {g : Ph} (hg : f g = true) : Busy f (Function.update γ t g) :=
  ⟨t, by rw [Function.update_self, hg]⟩

/-! ## What each statement does to the invariant -/

namespace DossierInv

omit [DecidableEq ι] in
/-- The payments are where they were at the start. -/
theorem findFirst (h : DossierInv id packageId pkg s₀ γ s) {reference : String} {pid : PaymentId}
    {p : Payment}
    (hf : s₀.payments.findFirst (·.providerReference = reference) = some (pid, p)) :
    ∃ p', s.payments.findFirst (·.providerReference = reference) = some (pid, p') := by
  have hkeys := congrArg (fun t => Table.findFirst t fun k => decide (k.1 = reference)) h.keys
  simp only [Table.findFirst_map] at hkeys
  have hfound := hkeys.trans (congrArg (Option.map fun x => (x.1, key x.2)) hf)
  obtain ⟨⟨pid', p'⟩, hf', heq⟩ := Option.map_eq_some_iff.mp hfound
  obtain rfl : pid' = pid := congrArg Prod.fst heq
  exact ⟨p', hf'⟩

omit [DecidableEq ι] in
theorem get (h : DossierInv id packageId pkg s₀ γ s) {pid : PaymentId} {p : Payment}
    (hp : s₀.payments[pid]? = some p) : ∃ p', s.payments[pid]? = some p' ∧ key p' = key p := by
  have hkeys := congrArg (·[pid]?) h.keys
  simp only [List.getElem?_map, hp, Option.map_some] at hkeys
  exact Option.map_eq_some_iff.mp hkeys

omit [DecidableEq ι] in
/-- The core stays as it is. -/
theorem congr {s' : Db} (hc : s'.core = s.core) (h : DossierInv id packageId pkg s₀ γ s) :
    DossierInv id packageId pkg s₀ γ s' := by
  have hb := bookings_of_core hc
  have hp := payments_of_core hc
  have hpaid : s'.paidFor id = s.paidFor id := by
    unfold Db.paidFor
    rw [hp]
  refine ⟨?_, ?_, ?_, ?_, ?_⟩
  · rw [hb]
    exact h.row
  · rw [packages_of_core hc]
    exact h.package
  · rw [hp]
    exact h.keys
  · rw [hb, hpaid]
    exact h.payment
  · rw [hb]
    exact h.confirmed

/-- A request goes on without a write. What it was to see to is not missing in this state. -/
theorem move (h : DossierInv id packageId pkg s₀ γ s) {g : Ph}
    (hpay : (γ t).pays = true → g.pays = true ∨ ¬ pkg.price ≤ s.paidFor id)
    (hconf : (γ t).confirms = true → g.confirms = true ∨
      ∀ b, s.bookings[id]? = some b → b.allDone = true → b.status = .confirmed) :
    DossierInv id packageId pkg s₀ (Function.update γ t g) s := by
  refine ⟨h.row, h.package, h.keys, fun b hb hle => ?_, fun b hb hd => ?_⟩
  · rcases h.payment b hb hle with hdone | hbusy
    · exact .inl hdone
    · exact .inr (busy_update (fun ht => (hpay ht).resolve_right (not_not.mpr hle)) hbusy)
  · rcases h.confirmed b hb hd with hst | hbusy
    · exact .inl hst
    · by_cases hall : ∀ b, s.bookings[id]? = some b → b.allDone = true → b.status = .confirmed
      · exact .inl (hall b hb hd)
      · exact .inr (busy_update (fun ht => (hconf ht).resolve_right hall) hbusy)

/-- A callback writes its payment. -/
theorem pay (h : DossierInv id packageId pkg s₀ γ s) (ht : γ t = .toPay) {pid : PaymentId}
    {p p' : Payment} (hp : s.payments[pid]? = some p) (hkey : key p' = key p) :
    DossierInv id packageId pkg s₀ (Function.update γ t .paid) (s.putPayment pid p') := by
  refine ⟨h.row, h.package, ?_, fun b hb hle => .inr (busy_self rfl), fun b hb hd => ?_⟩
  · have hget : (s.payments.map key)[pid]? = some (key p') := by
      rw [List.getElem?_map, hp, hkey]
      rfl
    have hset : (s.putPayment pid p').payments.map key = s.payments.map key := by
      unfold Db.putPayment
      rw [List.map_set, Table.set_self hget]
    rw [hset]
    exact h.keys
  · rcases h.confirmed b hb hd with hst | hbusy
    · exact .inl hst
    · exact .inr (busy_update (by simp [ht, Ph.confirms]) hbusy)

/-- A step is completed. A callback that is `toMark` completes the `PAYMENT` step. -/
theorem complete (h : DossierInv id packageId pkg s₀ γ s) (hb : s.bookings[id]? = some b)
    {stepKey : DossierStepKey} (now : Time) (hpay : (γ t).pays = true → stepKey = .payment) :
    DossierInv id packageId pkg s₀ (Function.update γ t .stepDone)
      (s.putBooking id (b.withStep stepKey .done now)) := by
  obtain ⟨b₀, hb₀, hpk⟩ := h.row
  obtain rfl : b = b₀ := Option.some.inj (hb.symm.trans hb₀)
  have hget := Db.putBooking_get hb (b.withStep stepKey .done now)
  refine ⟨⟨_, hget, hpk⟩, h.package, h.keys, fun b' hb' hle => ?_, fun b' hb' hd => ?_⟩
  · obtain rfl : b.withStep stepKey .done now = b' := Option.some.inj (hget.symm.trans hb')
    have hsteps := BookingSteps.get_set b.steps stepKey .payment { status := .done, updatedAt := now }
    unfold Booking.withStep
    rw [hsteps]
    by_cases hk : stepKey = .payment
    · rw [if_pos hk]
      exact .inl rfl
    · rw [if_neg hk]
      refine (h.payment b hb hle).imp_right (busy_update fun ht => absurd (hpay ht) hk)
  · exact .inr (busy_self rfl)

/-- The booking is confirmed. -/
theorem confirm (h : DossierInv id packageId pkg s₀ γ s) (ht : γ t = .toConfirm)
    (hb : s.bookings[id]? = some b) :
    DossierInv id packageId pkg s₀ (Function.update γ t .outside)
      (s.putBooking id { b with status := .confirmed }) := by
  obtain ⟨b₀, hb₀, hpk⟩ := h.row
  obtain rfl : b = b₀ := Option.some.inj (hb.symm.trans hb₀)
  have hget := Db.putBooking_get hb { b with status := .confirmed }
  refine ⟨⟨_, hget, hpk⟩, h.package, h.keys, fun b' hb' hle => ?_, fun b' hb' hd => ?_⟩
  · obtain rfl : { b with status := .confirmed } = b' := Option.some.inj (hget.symm.trans hb')
    exact (h.payment b hb hle).imp_right (busy_update (by simp [ht, Ph.pays]))
  · obtain rfl : { b with status := .confirmed } = b' := Option.some.inj (hget.symm.trans hb')
    exact .inl rfl

end DossierInv

/-! ## The requests keep the protocol -/

section Requests

variable {g : Ph}

/-- The protocol of the requests. -/
abbrev proto (ι : Type) (id : BookingId) (packageId : PackageId) (pkg : Package) (s₀ : Db) :
    Proto prismaSig ι Db where
  Gh := Ph
  inv := DossierInv id packageId pkg s₀
  place := Ph.place

/-- A request ends with nothing left to see to. -/
abbrev Ends {α : Type} (_ : Except Erreur α) (g : Ph) : Prop := g = .outside

theorem place_outside (n : Option Stmt) : Ph.outside.place n := fun h => absurd rfl h

theorem place_some (g : Ph) (c : Stmt) : g.place (some c) := fun _ => Option.some_ne_none c

/-- A handler that leaves the core as it is. -/
theorem quiet_safe {α : Type} {p : Req α} (hp : p.Uses Quiet) :
    (proto ι id packageId pkg s₀).Safe prisma Pool.anyStep t p Ends .outside :=
  Proto.safe_uses (P := proto ι id packageId pkg s₀) (fun _ _ => place_outside _)
    (fun _ hc _ s e hi _ => DossierInv.congr (hc e s) hi) hp fun _ => rfl

/-- A statement that leaves the core as it is. -/
theorem safe_quiet {α : Type} {c : Stmt} {k : c.Resp → Req α} {Q : Except Erreur α → Ph → Prop}
    (hc : Quiet c)
    (hk : ∀ γ s e, DossierInv id packageId pkg s₀ γ s → γ t = g →
      (proto ι id packageId pkg s₀).Safe prisma Pool.anyStep t (k (exec c e s).1) Q g) :
    (proto ι id packageId pkg s₀).Safe prisma Pool.anyStep t (.call c k) Q g :=
  Proto.safe_call (P := proto ι id packageId pkg s₀) (place_some _ _)
    (fun _ s e hi _ => DossierInv.congr (hc e s) hi) hk

theorem maybeConfirm_safe : (proto ι id packageId pkg s₀).Safe prisma Pool.anyStep t
    (BookingsService.maybeConfirm id) Ends .stepDone := by
  simp only [BookingsService.maybeConfirm, BookingsService.findByIdOrFail, Prog.bind_eq, await_bind,
    Prog.call_bind]
  refine ⟨place_some _ _, fun γ next s e hi hg _ _ _ => ?_⟩
  obtain ⟨b, hb, -⟩ := hi.row
  simp only [prisma_exec, exec, hb, Prog.pure_eq, Prog.ret_bind, allDone_toBookingShape]
  by_cases hc : b.allDone = true ∧ (toBookingShape id b).status ≠ .confirmed
  · rw [if_pos hc]
    refine ⟨.toConfirm, hi.move (by simp [hg, Ph.pays]) fun _ => .inl rfl, ?_⟩
    simp only [BookingsService.updateStatus, Prog.bind_eq, await_bind, Prog.call_bind]
    refine ⟨place_some _ _, fun γ next s e hi hg _ _ _ => ?_⟩
    obtain ⟨b, hb, -⟩ := hi.row
    simp only [prisma_exec, exec, hb, Prog.pure_eq, Prog.ret_bind]
    exact ⟨.outside, hi.confirm hg hb, quiet_safe (uses_afterConfirmation informs_quiet _ _)⟩
  · rw [if_neg hc]
    refine ⟨.outside, hi.move (by simp [hg, Ph.pays]) fun _ => .inr fun b' hb' hd => ?_, rfl⟩
    obtain rfl : b = b' := Option.some.inj (hb.symm.trans hb')
    by_contra hst
    exact hc ⟨hd, hst⟩

/-- What follows the completion of a step. -/
theorem maybeConfirm_bind_safe {α : Type} {f : BookingShape → Req α}
    (hf : ∀ booking, (f booking).Uses Quiet) :
    (proto ι id packageId pkg s₀).Safe prisma Pool.anyStep t
      ((BookingsService.maybeConfirm id).bind f) Ends .stepDone := by
  refine Proto.safe_bind.mpr (Proto.safe_mono (fun r g hr => ?_) maybeConfirm_safe)
  obtain rfl : g = .outside := hr
  rcases r with _ | booking
  · rfl
  · exact quiet_safe (hf booking)

theorem not_paying {stepKey : DossierStepKey} : Ph.outside.pays = true → stepKey = .payment :=
  fun h => absurd h Bool.false_ne_true

/-- The statement that completes a step, and what follows. -/
theorem bookingStepUpdate_safe {α : Type} {stepKey : DossierStepKey} {k : Option Unit → Req α}
    (hpay : g.pays = true → stepKey = .payment)
    (hk : (proto ι id packageId pkg s₀).Safe prisma Pool.anyStep t (k (some ())) Ends .stepDone) :
    (proto ι id packageId pkg s₀).Safe prisma Pool.anyStep t
      (.call (.bookingStepUpdate id stepKey .done) k) Ends g := by
  refine ⟨place_some _ _, fun γ next s e hi hg _ _ _ => ?_⟩
  obtain ⟨b, hb, -⟩ := hi.row
  rw [prisma_exec, exec_bookingStepUpdate hb]
  exact ⟨.stepDone, hi.complete hb e.now fun ht => hpay (hg ▸ ht), hk⟩

theorem markStepDone_safe (stepKey : DossierStepKey) (hpay : g.pays = true → stepKey = .payment) :
    (proto ι id packageId pkg s₀).Safe prisma Pool.anyStep t
      (BookingsService.markStepDone id stepKey) Ends g :=
  bookingStepUpdate_safe hpay (maybeConfirm_bind_safe fun booking =>
    uses_afterStep informs_quiet booking stepKey)

theorem updateStep_safe (ownerId : UserId) (stepKey : DossierStepKey) :
    (proto ι id packageId pkg s₀).Safe prisma Pool.anyStep t
      (BookingsService.updateStep ownerId id stepKey .done) Ends .outside := by
  simp only [BookingsService.updateStep, BookingsService.findByIdOrFail,
    BookingsService.assertAgencyOwnership, AgenciesService.findByOwnerOrFail, Prog.bind_eq,
    await_bind, Prog.call_bind]
  refine safe_quiet (fun _ _ => rfl) fun γ s e hi _ => ?_
  obtain ⟨b, hb, -⟩ := hi.row
  simp only [exec, hb, Prog.pure_eq, Prog.ret_bind]
  refine safe_quiet (fun _ _ => rfl) fun γ s e _ _ => ?_
  simp only [exec]
  rcases s.agencyOf ownerId with _ | ⟨agencyId, agency⟩
  · rfl
  simp only [Prog.ret_bind]
  split
  · rfl
  · exact bookingStepUpdate_safe not_paying (maybeConfirm_bind_safe fun booking =>
      uses_afterStep informs_quiet booking stepKey)

theorem reconcile_safe : (proto ι id packageId pkg s₀).Safe prisma Pool.anyStep t
    (PaymentsService.reconcileBookingPaymentStep id) Ends .paid := by
  simp only [PaymentsService.reconcileBookingPaymentStep, BookingsService.findByIdOrFail,
    PackagesService.findByIdOrFail, PaymentsService.findByBooking, Prog.bind_eq, await_bind,
    Prog.call_bind]
  refine safe_quiet (fun _ _ => rfl) fun γ s e hi _ => ?_
  obtain ⟨b, hb, hpk⟩ := hi.row
  simp only [exec, hb, Prog.pure_eq, Prog.ret_bind, toBookingShape, hpk]
  refine safe_quiet (fun _ _ => rfl) fun γ s e hi _ => ?_
  simp only [exec, hi.package, Prog.ret_bind]
  -- The payments are read here: the price is covered in this state or it is not.
  refine ⟨place_some _ _, fun γ next s e hi hg _ _ _ => ?_⟩
  simp only [prisma_exec, exec, totalPaid_eq]
  by_cases hge : s.paidFor id ≥ (toPackageShape packageId pkg).price
  · rw [if_pos hge]
    refine ⟨.toMark, hi.move (fun _ => .inl rfl) (by simp [hg, Ph.confirms]), ?_⟩
    refine Proto.safe_bind.mpr (Proto.safe_mono (fun r g hr => ?_)
      (markStepDone_safe .payment fun _ => rfl))
    rcases r with _ | _ <;> exact hr
  · rw [if_neg hge]
    exact ⟨.outside, hi.move (fun _ => .inr hge) (by simp [hg, Ph.confirms]), rfl⟩

theorem handleWebhook_safe {reference : String} {pid : PaymentId} {p : Payment}
    (hf : s₀.payments.findFirst (·.providerReference = reference) = some (pid, p))
    (hp : p.bookingId = id) :
    (proto ι id packageId pkg s₀).Safe prisma Pool.anyStep t
      (PaymentsService.handleWebhook ⟨reference, .succeeded⟩) Ends .toPay := by
  simp only [PaymentsService.handleWebhook, PaymentsService.update, Prog.bind_eq, await_bind,
    Prog.call_bind]
  refine safe_quiet (fun _ _ => rfl) fun γ s e hi _ => ?_
  obtain ⟨p₁, hf₁⟩ := hi.findFirst hf
  simp only [exec, hf₁]
  refine ⟨place_some _ _, fun γ next s e hi hg _ _ _ => ?_⟩
  obtain ⟨p₂, hp₂, hkey⟩ := hi.get (Table.findFirst_some hf).1
  simp only [prisma_exec, exec, hp₂, Prog.pure_eq, Prog.ret_bind, if_true]
  have hbid : p₂.bookingId = id := (congrArg Prod.snd hkey).trans hp
  refine ⟨.paid, hi.pay hg hp₂ rfl, ?_⟩
  simp only [toPaymentShape, PaymentUpdate.apply, hbid]
  refine Proto.safe_bind.mpr (Proto.safe_mono (fun r g hr => ?_) reconcile_safe)
  rcases r with _ | _ <;> exact hr

/-- The ghost value of a request that has not started. -/
def startOf : Request → Ph
  | .webhook _ => .toPay
  | _ => .outside

theorem handler_safe {q : Request} (hq : OnDossier id s₀ q) :
    (proto ι id packageId pkg s₀).Safe prisma Pool.anyStep t (handler q) Ends (startOf q) := by
  cases q with
  | webhook dto =>
    obtain ⟨hst, pid, p, hf, hp⟩ := hq
    obtain ⟨reference, status⟩ := dto
    obtain rfl : status = .succeeded := hst
    exact Proto.safe_void (Proto.safe_mono (fun r _ hg => by cases r <;> exact hg)
      (handleWebhook_safe hf hp))
  | updateStep ownerId id' stepKey status =>
    obtain ⟨rfl, rfl⟩ := hq
    exact Proto.safe_void (Proto.safe_mono (fun r _ hg => by cases r <;> exact hg)
      (updateStep_safe ownerId stepKey))
  | markStepDone id' stepKey =>
    obtain rfl : id' = id := hq
    exact Proto.safe_void (Proto.safe_mono (fun r _ hg => by cases r <;> exact hg)
      (markStepDone_safe stepKey not_paying))
  | _ => exact hq.elim

omit [DecidableEq ι] in
/-- No request has started: a callback will write its payment, and a step is missing. -/
theorem DossierInv.start {requests : ι → Request} (hb : s.bookings[id]? = some b)
    (hpk : s.packages[b.packageId]? = some pkg) (hopen : b.allDone = false)
    (hw : ∃ t dto, requests t = .webhook dto) :
    DossierInv id b.packageId pkg s (fun t => startOf (requests t)) s := by
  refine ⟨⟨b, hb, rfl⟩, hpk, rfl, fun _ _ _ => .inr ?_, fun b' hb' hd => ?_⟩
  · obtain ⟨t, dto, ht⟩ := hw
    have hpays : (startOf (requests t)).pays = true := by
      rw [ht]
      rfl
    exact ⟨t, hpays⟩
  · obtain rfl : b = b' := Option.some.inj (hb.symm.trans hb')
    rw [hopen] at hd
    cases hd

omit [DecidableEq ι] in
/-- Every request has ended: nothing is missing. -/
theorem DossierInv.finish (h : DossierInv id packageId pkg s₀ γ s)
    (hend : ∀ t, (γ t).place none) :
    ∃ b, s.bookings[id]? = some b ∧ (s.Covered id → (b.steps.get .payment).status = .done) ∧
      (b.allDone = true → b.status = .confirmed) := by
  have houtside : ∀ t, γ t = .outside := fun t => by
    by_contra hne
    exact hend t hne rfl
  have hidle : ∀ f : Ph → Bool, f .outside = false → ¬ Busy f γ := by
    rintro f hf ⟨t, ht⟩
    rw [houtside t, hf] at ht
    cases ht
  obtain ⟨b, hb, hpk⟩ := h.row
  refine ⟨b, hb, ?_, fun hd => (h.confirmed b hb hd).resolve_right (hidle _ rfl)⟩
  rintro ⟨b', pkg', hb', hpkg', hle⟩
  obtain rfl : b = b' := Option.some.inj (hb.symm.trans hb')
  rw [hpk, h.package, Option.some.injEq] at hpkg'
  exact (h.payment b hb (hpkg' ▸ hle)).resolve_right (hidle _ rfl)

end Requests

end NotLost

/-- **No lost confirmation.** At least one callback `SUCCEEDED` on a payment of the booking and any
completions of its steps run at once, from a state in which a step is missing. Once all have ended,
under every schedule: if the `SUCCEEDED` payments cover the price, the `PAYMENT` step is done, and if
the five steps are done, the booking is `CONFIRMED`. -/
theorem no_lost_confirmation {ι : Type} [DecidableEq ι] {requests : ι → Request} {id : BookingId}
    {s : Db} {b : Booking} {pkg : Package} (hb : s.bookings[id]? = some b)
    (hpk : s.packages[b.packageId]? = some pkg) (hopen : b.allDone = false)
    (hq : ∀ t, NotLost.OnDossier id s (requests t)) (hw : ∃ t dto, requests t = .webhook dto)
    {c : Pool prismaSig ι Db Erreur Unit}
    (hr : Pool.Reach prisma Pool.anyStep (poolOf requests s) c) (hf : c.Finished) :
    ∃ b', c.st.bookings[id]? = some b' ∧
      (c.st.Covered id → (b'.steps.get .payment).status = .done) ∧
      (b'.allDone = true → b'.status = .confirmed) := by
  have hstart : (NotLost.proto ι id b.packageId pkg s).Keeps prisma Pool.anyStep
      (fun _ => NotLost.Ends) (poolOf requests s) :=
    ⟨fun t => NotLost.startOf (requests t), NotLost.DossierInv.start hb hpk hopen hw,
      fun t => NotLost.handler_safe (hq t)⟩
  have hends : ∀ (u : ι) (r : Except Erreur Unit) (g : NotLost.Ph), NotLost.Ends r g →
      g.place none := by
    rintro u r _ rfl
    exact NotLost.place_outside none
  obtain ⟨γ, hi, -, hplace⟩ :=
    (Proto.reach (P := NotLost.proto ι id b.packageId pkg s) hends hstart hr).place hends
  refine hi.finish fun t => ?_
  have := hplace t
  rwa [hf t] at this

/-! ## A schedule on fixed inputs -/

/-- A booking whose `VISA`, `FLIGHT` and `VACCINATION` steps are done, with a payment of the price
that is `PENDING`. -/
private def enAttente : Db :=
  Trace.last .exemple (runAll { reference := some "REF" } .exemple
    [.createBooking 0 0, .initiatePayment 0 .exemple, .markStepDone 0 .visa,
      .markStepDone 0 .flight, .markStepDone 0 .vaccination])

private def payerEtFinir : Fin 2 → Request
  | 0 => .webhook ⟨"REF", .succeeded⟩
  | 1 => .markStepDone 0 .documents

/-- The two requests take turns. -/
private def entrelacees : Pool prismaSig (Fin 2) Db Erreur Unit :=
  Pool.run prisma (turns (List.flatten (List.replicate 15 [0, 1])))
    (poolOf payerEtFinir enAttente)

theorem no_lost_confirmation_exemple : ∃ b, entrelacees.st.bookings[0]? = some b ∧
    (entrelacees.st.Covered 0 → (b.steps.get .payment).status = .done) ∧
    (b.allDone = true → b.status = .confirmed) := by
  obtain ⟨b, hb, hrow⟩ := Option.map_eq_some_iff.mp
    (show (enAttente.bookings[0]?).map (fun b => (b.packageId, b.allDone)) = some (0, false) by
      decide +kernel)
  obtain ⟨pkg, hpk, -⟩ := Option.map_eq_some_iff.mp
    (show (enAttente.packages[0]?).map (·.price) = some 100 by decide +kernel)
  obtain ⟨p, hp, hpay⟩ := Option.map_eq_some_iff.mp
    (show (enAttente.payments[0]?).map (fun p => (p.providerReference, p.bookingId)) =
      some ("REF", 0) by decide +kernel)
  obtain ⟨hid, hopen⟩ := Prod.mk.inj hrow
  obtain ⟨href, hbid⟩ := Prod.mk.inj hpay
  have hq : ∀ t, NotLost.OnDossier 0 enAttente (payerEtFinir t) := by
    intro t
    match t with
    | 0 => exact ⟨rfl, 0, p, Table.findFirst_zero hp (decide_eq_true href), hbid⟩
    | 1 => rfl
  have hr : Pool.Reach prisma Pool.anyStep (poolOf payerEtFinir enAttente) entrelacees :=
    Pool.Reach.run .refl _
  exact no_lost_confirmation hb (hid ▸ hpk) hopen hq ⟨0, _, rfl⟩ hr (by decide +kernel)

end OumraHajj
