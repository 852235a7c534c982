import OumraHajj.Spec.Payments

/-!
# Refunds under concurrency

Callbacks and refund requests of one payment run at once. `requestRefund` reads the status, calls the
provider and writes `REFUNDED` later, so another request can still read `SUCCEEDED` in between, and a
callback can set the status back to `SUCCEEDED` afterwards. `SoleRefund` is the condition on a step
under which neither leads to a second refund, and `refunded_once` the result: under every schedule of
such steps the provider accepts at most one refund of the payment.

**Ghost values** (`Ph`): a request whose refund the provider has accepted and that writes the payment
next (`paying`). **Invariant** (`RefundInv`): the provider has accepted one refund at most, and none
as long as the payment has no date of refund and no request is `paying`.
-/

namespace OumraHajj

open Async

/-- The refunds that the provider accepted under a reference. -/
def Db.refundsOf (s : Db) (reference : String) : Nat := s.refunds.countP (·.1 = reference)

/-- The statement writes a payment or calls the provider for a refund. -/
def Stmt.isPayment : Stmt → Bool
  | .paymentCreate _ _ _ _ _ => true
  | .paymentUpdate _ _ => true
  | .providerRefund _ _ => true
  | _ => false

theorem exec_of_not_isPayment {c : Stmt} (hc : c.isPayment = false) (e : Env) (s : Db) :
    (exec c e s).2.payments = s.payments ∧ (exec c e s).2.refunds = s.refunds := by
  cases c
  case paymentCreate => cases hc
  case paymentUpdate => cases hc
  case providerRefund => cases hc
  all_goals first
    | exact ⟨rfl, rfl⟩
    | simp only [exec]
      split <;> exact ⟨rfl, rfl⟩

/-! ## The handlers of bookings do not touch payments -/

section Uses

/-- The statement touches no payment. -/
abbrev Apart (c : Stmt) : Prop := c.isPayment = false

theorem informs_apart : Informs Apart where
  userFindUnique _ := rfl
  bookingFindUniqueWithPackage _ := rfl
  now := rfl
  notificationCreateMany _ := rfl
  sendRawSms _ _ := rfl
  checklistItemCreateMany _ := rfl

theorem uses_maybeConfirm_apart (id : BookingId) :
    (BookingsService.maybeConfirm id).Uses Apart := by
  simp only [BookingsService.maybeConfirm, BookingsService.findByIdOrFail, Prog.bind_eq, await_bind,
    Prog.call_bind]
  refine ⟨rfl, fun r => ?_⟩
  rcases r with _ | b
  · trivial
  simp only [Prog.pure_eq, Prog.ret_bind]
  split
  · refine Prog.Uses.bind ⟨rfl, fun r => ?_⟩ fun shape => ?_
    · rcases r with _ | b <;> trivial
    · exact uses_afterConfirmation informs_apart _ _
  · trivial

theorem uses_markStepDone_apart (id : BookingId) (key : DossierStepKey) :
    (BookingsService.markStepDone id key).Uses Apart := by
  refine ⟨rfl, fun r => ?_⟩
  rcases r with _ | _
  · trivial
  · exact (uses_maybeConfirm_apart id).bind fun _ => uses_afterStep informs_apart _ _

theorem uses_reconcile_apart (id : BookingId) :
    (PaymentsService.reconcileBookingPaymentStep id).Uses Apart := by
  simp only [PaymentsService.reconcileBookingPaymentStep, BookingsService.findByIdOrFail,
    PackagesService.findByIdOrFail, PaymentsService.findByBooking, Prog.bind_eq, await_bind,
    Prog.call_bind]
  refine ⟨rfl, fun r => ?_⟩
  rcases r with _ | b
  · trivial
  refine ⟨rfl, fun r => ?_⟩
  rcases r with _ | pkg
  · trivial
  refine ⟨rfl, fun payments => ?_⟩
  simp only [Prog.pure_eq, Prog.ret_bind]
  split
  · exact (uses_markStepDone_apart id .payment).bind fun _ => trivial
  · trivial

end Uses

namespace Refund

/-- How far a request has come (module doc). -/
inductive Ph where
  | outside
  | paying

/-- The statement writes a refund on the payment. -/
def writesRefund (id : PaymentId) : Stmt → Bool
  | .paymentUpdate id' data => id' = id && data.refunded
  | _ => false

/-- The statement that a request executes next. -/
def Ph.place (id : PaymentId) (g : Ph) (n : Option Stmt) : Prop :=
  g = .paying → n.any (writesRefund id) = true

/-- The callbacks and the refund requests of a payment. -/
def OnPayment (id : PaymentId) (reference : String) : Request → Prop
  | .webhook dto => dto.providerReference = reference
  | .requestRefund _ _ id' => id' = id
  | _ => False

variable {ι : Type} [DecidableEq ι] {id : PaymentId} {reference : String} {s : Db} {γ : ι → Ph}
  {t : ι}

structure RefundInv (id : PaymentId) (reference : String) (γ : ι → Ph) (s : Db) : Prop where
  row : ∃ p, s.payments.findFirst (·.providerReference = reference) = some (id, p) ∧
    (p.refundedAt = none → (∀ u, γ u ≠ .paying) → s.refundsOf reference = 0)
  once : s.refundsOf reference ≤ 1

/-- The statement asks the provider for the refund. -/
def asksRefund (reference : String) : Stmt → Bool
  | .providerRefund reference' _ => reference' = reference
  | _ => false

/-- A refund that the provider accepts finds the payment without a date of refund, and no other
request about to write one. -/
def SoleRefund [Fintype ι] (id : PaymentId) (reference : String) :
    Pool.Cond prismaSig ι Db Env :=
  fun next s t e => (next t).any (asksRefund reference) = true → e.accepted = true →
    (∀ p ∈ s.payments[id]?, p.refundedAt = none) ∧ ∀ u, (next u).any (writesRefund id) = false

instance [Fintype ι] (id : PaymentId) (reference : String) (next : ι → Option Stmt) (s : Db) (t : ι)
    (e : Env) : Decidable (SoleRefund id reference next s t e) :=
  inferInstanceAs (Decidable (_ → _ → _ ∧ _))

theorem place_outside (id : PaymentId) (n : Option Stmt) : Ph.outside.place id n := nofun

/-! ## What each statement does to the invariant -/

namespace RefundInv

theorem keep (h : RefundInv id reference γ s) {g : Ph} (ht : γ t = g) :
    RefundInv id reference (Function.update γ t g) s := by
  rw [← ht, Function.update_eq_self]
  exact h

omit [DecidableEq ι] in
theorem apart {c : Stmt} (hc : Apart c) (e : Env) (h : RefundInv id reference γ s) :
    RefundInv id reference γ (exec c e s).2 := by
  obtain ⟨hp, hr⟩ := exec_of_not_isPayment hc e s
  obtain ⟨⟨p, hf, hnone⟩, hle⟩ := h
  unfold Db.refundsOf at hnone hle
  refine ⟨⟨p, by rw [hp]; exact hf, ?_⟩, ?_⟩
  · unfold Db.refundsOf
    rw [hr]
    exact hnone
  · unfold Db.refundsOf
    rw [hr]
    exact hle

omit [DecidableEq ι] in
/-- A callback is written on the payment. -/
theorem webhook (h : RefundInv id reference γ s) {p : Payment} (hp : s.payments[id]? = some p)
    (status : PaymentStatus) (now : Time) : RefundInv id reference γ
      (s.putPayment id ((PaymentsService.webhookUpdate id status).apply now p)) := by
  obtain ⟨⟨p', hf, hnone⟩, hle⟩ := h
  obtain ⟨hp', href⟩ := Table.findFirst_some hf
  obtain rfl : p = p' := Option.some.inj (hp.symm.trans hp')
  refine ⟨⟨_, Table.findFirst_set hf href, fun hdate => hnone ?_⟩, hle⟩
  unfold PaymentsService.webhookUpdate at hdate
  split at hdate <;> exact hdate

/-- The provider accepts a refund. -/
theorem accept (h : RefundInv id reference γ s) {p : Payment} (hp : s.payments[id]? = some p)
    (hdate : p.refundedAt = none) (hsole : ∀ u, γ u ≠ .paying) (amount : ℚ) :
    RefundInv id reference (Function.update γ t .paying)
      { s with refunds := s.refunds ++ [(reference, amount)] } := by
  obtain ⟨⟨p', hf, hnone⟩, -⟩ := h
  obtain rfl : p = p' := Option.some.inj (hp.symm.trans (Table.findFirst_some hf).1)
  have hzero := hnone hdate hsole
  refine ⟨⟨p, hf, fun _ hno => ?_⟩, ?_⟩
  · exact absurd (Function.update_self t Ph.paying γ) (hno t)
  · unfold Db.refundsOf at hzero ⊢
    rw [List.countP_append, hzero]
    simp

/-- The refund is written on the payment. -/
theorem written (h : RefundInv id reference γ s) {p : Payment} (hp : s.payments[id]? = some p)
    (amount : ℚ) (now : Time) (g : Ph) : RefundInv id reference (Function.update γ t g)
      (s.putPayment id ((PaymentsService.refundUpdate amount).apply now p)) := by
  obtain ⟨⟨p', hf, -⟩, hle⟩ := h
  obtain ⟨hp', href⟩ := Table.findFirst_some hf
  obtain rfl : p = p' := Option.some.inj (hp.symm.trans hp')
  exact ⟨⟨_, Table.findFirst_set hf href, nofun⟩, hle⟩

end RefundInv

/-! ## The requests keep the protocol -/

section Requests

variable [Fintype ι] {g : Ph}

/-- The protocol of the requests. -/
abbrev proto (ι : Type) (id : PaymentId) (reference : String) : Proto prismaSig ι Db where
  Gh := Ph
  inv := RefundInv id reference
  place := Ph.place id

/-- A request ends with no refund to write. -/
abbrev Ends {α : Type} (_ : Except Erreur α) (g : Ph) : Prop := g = .outside

/-- A handler that touches no payment. -/
theorem apart_safe {α : Type} {p : Req α} (hp : p.Uses Apart) :
    (proto ι id reference).Safe prisma (SoleRefund id reference) t p Ends .outside :=
  Proto.safe_uses (P := proto ι id reference) (fun _ _ => place_outside id _)
    (fun _ hc _ _ e hi _ => RefundInv.apart hc e hi) hp fun _ => rfl

/-- A statement that touches no payment. -/
theorem safe_apart {α : Type} {c : Stmt} {k : c.Resp → Req α} {Q : Except Erreur α → Ph → Prop}
    (hc : Apart c)
    (hk : ∀ r, (proto ι id reference).Safe prisma (SoleRefund id reference) t (k r) Q .outside) :
    (proto ι id reference).Safe prisma (SoleRefund id reference) t (.call c k) Q .outside :=
  Proto.safe_call (P := proto ι id reference) (place_outside id _) (fun _ _ e hi _ => RefundInv.apart hc e hi)
    fun _ _ _ _ _ => hk _

theorem handleWebhook_safe (status : PaymentStatus) :
    (proto ι id reference).Safe prisma (SoleRefund id reference) t
      (PaymentsService.handleWebhook ⟨reference, status⟩) Ends .outside := by
  simp only [PaymentsService.handleWebhook, PaymentsService.update, Prog.bind_eq, await_bind,
    Prog.call_bind]
  refine ⟨place_outside id _, fun γ next s e hi hg _ _ _ => ⟨.outside, hi.keep hg, ?_⟩⟩
  obtain ⟨p, hf, -⟩ := hi.row
  simp only [prisma_exec, exec, hf]
  refine ⟨place_outside id _, fun γ next s e hi hg _ _ _ => ?_⟩
  obtain ⟨p, hf, -⟩ := hi.row
  have hp := (Table.findFirst_some hf).1
  simp only [prisma_exec, exec, hp, Prog.pure_eq, Prog.ret_bind]
  refine ⟨.outside, (hi.webhook hp status e.now).keep hg, ?_⟩
  split
  · exact apart_safe ((uses_reconcile_apart _).bind fun _ => trivial)
  · rfl

/-- A request that has read the payment. -/
def HasRead (id : PaymentId) (reference : String) : Except Erreur PaymentShape → Ph → Prop
  | .ok payment, g => g = .outside ∧ payment.id = id ∧ payment.providerReference = reference
  | .error _, g => g = .outside

theorem findAuthorizedOrFail_safe (requesterId : UserId) (requesterRole : Role) :
    (proto ι id reference).Safe prisma (SoleRefund id reference) t
      (PaymentsService.findAuthorizedOrFail requesterId requesterRole id)
      (HasRead id reference) .outside := by
  simp only [PaymentsService.findAuthorizedOrFail, PaymentsService.findByIdOrFail,
    BookingsService.findByIdOrFail, AgenciesService.findByOwnerOrFail, Prog.bind_eq, await_bind,
    Prog.call_bind]
  refine ⟨place_outside id _, fun γ next s e hi hg _ _ _ => ⟨.outside, hi.keep hg, ?_⟩⟩
  obtain ⟨p, hf, -⟩ := hi.row
  obtain ⟨hp, href⟩ := Table.findFirst_some hf
  have hread : (toPaymentShape id p).id = id ∧
      (toPaymentShape id p).providerReference = reference := ⟨rfl, of_decide_eq_true href⟩
  simp only [prisma_exec, exec, hp, Prog.pure_eq, Prog.ret_bind]
  refine safe_apart rfl fun r => ?_
  rcases r with _ | b
  · rfl
  simp only [Prog.ret_bind]
  split
  · exact ⟨rfl, hread⟩
  · split
    · refine safe_apart rfl fun r => ?_
      rcases r with _ | ⟨agencyId, agency⟩
      · rfl
      · simp only [Prog.ret_bind]
        split
        · exact ⟨rfl, hread⟩
        · rfl
    · rfl

theorem requestRefund_safe (requesterId : UserId) (requesterRole : Role) :
    (proto ι id reference).Safe prisma (SoleRefund id reference) t
      (PaymentsService.requestRefund requesterId requesterRole id) Ends .outside := by
  unfold PaymentsService.requestRefund
  rw [Prog.bind_eq]
  refine Proto.safe_bind.mpr (Proto.safe_mono (fun r g hr => ?_)
    (findAuthorizedOrFail_safe requesterId requesterRole))
  rcases r with _ | payment
  · exact hr
  obtain ⟨rfl, hid, href⟩ := hr
  simp only [BookingsService.findByIdOrFail, RefundPolicyService.contextFor, PaymentsService.update,
    Prog.bind_eq, await_bind, Prog.call_bind]
  split
  · rfl
  refine safe_apart rfl fun r => ?_
  rcases r with _ | b
  · rfl
  simp only [Prog.pure_eq, Prog.ret_bind]
  refine safe_apart rfl fun maintenant => ?_
  refine safe_apart rfl fun r => ?_
  rcases r with _ | ⟨b', pkg⟩
  · rfl
  simp only [Prog.ret_bind]
  split
  · rfl
  rw [hid, href]
  refine ⟨place_outside id _, fun γ next s e hi hg hplace hn hok => ?_⟩
  rcases hacc : e.accepted with _ | _
  · simp only [prisma_exec, exec, hacc]
    exact ⟨.outside, hi.keep hg, rfl⟩
  obtain ⟨p, hf, -⟩ := hi.row
  have hp := (Table.findFirst_some hf).1
  have hnext : (next t).any (asksRefund reference) = true := by
    rw [hn]
    exact decide_eq_true rfl
  obtain ⟨hdate, hsole⟩ := hok hnext hacc
  have hnone : ∀ u, γ u ≠ .paying := by
    intro u hu
    have := hplace u hu
    rw [hsole u] at this
    cases this
  simp only [prisma_exec, exec, hacc]
  refine ⟨.paying, hi.accept hp (hdate p hp) hnone _, ?_⟩
  refine ⟨fun _ => by simp [writesRefund, PaymentsService.refundUpdate], ?_⟩
  intro γ next s e hi hg _ _ _
  obtain ⟨p, hf, -⟩ := hi.row
  have hp := (Table.findFirst_some hf).1
  simp only [prisma_exec, exec, hp, Prog.ret_bind]
  exact ⟨.outside, hi.written hp _ _ _, apart_safe ⟨rfl, fun _ => trivial⟩⟩

theorem handler_safe {q : Request} (hq : OnPayment id reference q) :
    (proto ι id reference).Safe prisma (SoleRefund id reference) t (handler q) Ends .outside := by
  cases q with
  | webhook dto =>
    obtain rfl : dto.providerReference = reference := hq
    exact Proto.safe_void (Proto.safe_mono (fun r _ hg => by cases r <;> exact hg)
      (handleWebhook_safe dto.status))
  | requestRefund requesterId requesterRole id' =>
    obtain rfl : id' = id := hq
    exact Proto.safe_void (Proto.safe_mono (fun r _ hg => by cases r <;> exact hg)
      (requestRefund_safe requesterId requesterRole))
  | _ => exact hq.elim

end Requests

end Refund

/-- **Refunded once.** Callbacks and refund requests of a payment that was not refunded yet run at
once, and each refund that the provider accepts finds the payment without a date of refund and no
other request about to write one. At any time, the provider has accepted at most one refund. -/
theorem refunded_once {ι : Type} [DecidableEq ι] [Fintype ι] {requests : ι → Request}
    {id : PaymentId} {reference : String} {p : Payment} {s : Db}
    (hf : s.payments.findFirst (·.providerReference = reference) = some (id, p))
    (hnone : s.refundsOf reference = 0) (hq : ∀ t, Refund.OnPayment id reference (requests t))
    {c : Pool prismaSig ι Db Erreur Unit}
    (hr : Pool.Reach prisma (Refund.SoleRefund id reference) (poolOf requests s) c) :
    c.st.refundsOf reference ≤ 1 := by
  have hstart : (Refund.proto ι id reference).Keeps prisma (Refund.SoleRefund id reference)
      (fun _ => Refund.Ends) (poolOf requests s) :=
    ⟨fun _ => .outside, ⟨⟨p, hf, fun _ _ => hnone⟩, hnone.le.trans (Nat.zero_le 1)⟩,
      fun t => Refund.handler_safe (hq t)⟩
  have hends : ∀ (u : ι) (r : Except Erreur Unit) (g : Refund.Ph), Refund.Ends r g →
      g.place id none := by
    rintro u r _ rfl
    exact Refund.place_outside id none
  obtain ⟨γ, hi, -⟩ := Proto.reach (P := Refund.proto ι id reference) hends hstart hr
  exact hi.once

/-! ## Schedules on fixed inputs -/

/-- The booking of the example, with a payment of the price that is `SUCCEEDED`. -/
private def reussie : Db :=
  Trace.last .exemple (runAll { reference := some "REF" } .exemple
    [.createBooking 0 0, .initiatePayment 0 .exemple, .webhook ⟨"REF", .succeeded⟩])

private theorem reussie_payment :
    ∃ p, reussie.payments.findFirst (·.providerReference = "REF") = some (0, p) := by
  obtain ⟨p, hp, href⟩ := Option.map_eq_some_iff.mp
    (show (reussie.payments[0]?).map (·.providerReference) = some "REF" by decide +kernel)
  exact ⟨p, Table.findFirst_zero hp (decide_eq_true href)⟩

/-- A refund and a late callback. -/
private def rembourserPuisRappel (status : PaymentStatus) : Fin 3 → Request
  | 0 => .requestRefund 0 .pilgrim 0
  | 1 => .webhook ⟨"REF", status⟩
  | 2 => .requestRefund 0 .pilgrim 0

/-- The requests run one after the other. -/
private def alaSuite (status : PaymentStatus) : Pool prismaSig (Fin 3) Db Erreur Unit :=
  Pool.run prisma (turns (List.replicate 8 0 ++ List.replicate 9 1 ++ List.replicate 8 2))
    (poolOf (rembourserPuisRappel status) reussie)

private theorem onPayment_rappel (status : PaymentStatus) :
    ∀ t, Refund.OnPayment 0 "REF" (rembourserPuisRappel status t) := by
  intro t
  match t with
  | 0 => rfl
  | 1 => rfl
  | 2 => rfl

/-- After the callback `FAILED`, the second request is refused. -/
theorem refunded_once_exemple : (alaSuite .failed).st.refundsOf "REF" ≤ 1 := by
  obtain ⟨p, hf⟩ := reussie_payment
  have hallowed : Pool.Allowed prisma (Refund.SoleRefund 0 "REF")
      (poolOf (rembourserPuisRappel .failed) reussie)
      (turns (List.replicate 8 0 ++ List.replicate 9 1 ++ List.replicate 8 2)) := by decide +kernel
  exact refunded_once hf (by decide +kernel) (onPayment_rappel .failed) (hallowed.reach .refl)

/-- After the callback `SUCCEEDED`, the second request is refunded again. -/
theorem refunded_twice : ¬ ∀ (requests : Fin 3 → Request) (id : PaymentId) (reference : String)
    (p : Payment) (s : Db) (c : Pool prismaSig (Fin 3) Db Erreur Unit),
    s.payments.findFirst (·.providerReference = reference) = some (id, p) →
    s.refundsOf reference = 0 → (∀ t, Refund.OnPayment id reference (requests t)) →
    Pool.Reach prisma Pool.anyStep (poolOf requests s) c → c.st.refundsOf reference ≤ 1 := by
  intro h
  obtain ⟨p, hf⟩ := reussie_payment
  have hr : Pool.Reach prisma Pool.anyStep (poolOf (rembourserPuisRappel .succeeded) reussie)
      (alaSuite .succeeded) := Pool.Reach.run .refl _
  have htwo : (alaSuite .succeeded).st.refundsOf "REF" = 2 := by decide +kernel
  have := h _ 0 "REF" p reussie _ hf (by decide +kernel) (onPayment_rappel .succeeded) hr
  omega

end OumraHajj
