import OumraHajj.Spec.Bookings

/-!
# Payments: what a handler does

One specification for each handler of `PaymentsService` that writes. `Db.paidFor s id` is what the
`SUCCEEDED` payments of a booking add up to, the sum that `reconcileBookingPaymentStep` compares
with the price.
-/

namespace OumraHajj

open Async

namespace Db

/-- The row of a payment is replaced. -/
def putPayment (s : Db) (id : PaymentId) (p : Payment) : Db :=
  { s with payments := s.payments.set id p }

/-- The sum of the `SUCCEEDED` payments of a booking. -/
def paidFor (s : Db) (id : BookingId) : ℚ :=
  s.payments.sumWhere (fun p => p.bookingId = id ∧ p.status = .succeeded) (·.amount)

/-- The `SUCCEEDED` payments of a booking reach the price of its package. -/
def Covered (s : Db) (id : BookingId) : Prop :=
  ∃ b pkg, s.bookings[id]? = some b ∧ s.packages[b.packageId]? = some pkg ∧
    pkg.price ≤ s.paidFor id

instance (s : Db) (id : BookingId) : Decidable (s.Covered id) :=
  decidable_of_iff
    ((s.bookings[id]?).any fun b => (s.packages[b.packageId]?).any (·.price ≤ s.paidFor id)) (by
      simp [Covered, Option.any_eq_true])

theorem covered_congr {s s' : Db} (hb : s'.bookings = s.bookings) (hk : s'.packages = s.packages)
    (hp : s'.payments = s.payments) (id : BookingId) : s'.Covered id ↔ s.Covered id := by
  simp only [Covered, paidFor, hb, hk, hp]

end Db

theorem paidFor_putPayment {s : Db} {id : PaymentId} {p p' : Payment}
    (hp : s.payments[id]? = some p) (hb : p'.bookingId = p.bookingId)
    (ha : p'.amount = p.amount) (bid : BookingId) :
    (s.putPayment id p').paidFor bid = s.paidFor bid +
      if p.bookingId = bid then
        (if p'.status = .succeeded then p.amount else 0) -
          if p.status = .succeeded then p.amount else 0
      else 0 := by
  have := Table.sumWhere_set hp (fun p => decide (p.bookingId = bid ∧ p.status = .succeeded))
    (·.amount) p'
  rw [Db.paidFor, Db.putPayment, this, Db.paidFor, hb, ha]
  by_cases hbid : p.bookingId = bid
  · simp only [hbid, true_and, decide_eq_true_eq, if_true]
    ring
  · simp [hbid]

theorem paidFor_append (s : Db) (p : Payment) (hp : p.status = .pending) (bid : BookingId) :
    Db.paidFor { s with payments := s.payments ++ [p] } bid = s.paidFor bid := by
  rw [Db.paidFor, Table.sumWhere_append, Db.paidFor]
  simp [hp]

theorem totalPaid_eq (s : Db) (id : BookingId) :
    PaymentsService.totalPaid ((s.payments.findMany (·.bookingId = id)).map
      fun x => toPaymentShape x.1 x.2) = s.paidFor id := by
  rw [PaymentsService.totalPaid, List.filter_map, List.map_map]
  have := Table.filter_findMany s.payments (fun p => decide (p.bookingId = id))
    fun p => decide (p.status = .succeeded)
  rw [show ((fun x : PaymentShape => decide (x.status = PaymentStatus.succeeded)) ∘
    fun x : PaymentId × Payment => toPaymentShape x.1 x.2) =
      fun x => decide (x.2.status = .succeeded) from rfl, this, Db.paidFor, Table.sumWhere,
    show (PaymentShape.amount ∘ fun x : PaymentId × Payment => toPaymentShape x.1 x.2) =
      fun x => x.2.amount from rfl, Table.map_findMany]
  simp only [Bool.decide_and]

section Payments

variable {s s' : Db}

/-- A booking whose payments cover the price has its `PAYMENT` step done; nothing else happens. -/
theorem reconcile_runs {id : BookingId} {r : Except Erreur Unit}
    (h : prisma.Runs (PaymentsService.reconcileBookingPaymentStep id) s r s') :
    (s.Covered id ∧ s.Stepped id .payment .done s') ∨ (¬ s.Covered id ∧ s' = s) := by
  simp only [PaymentsService.reconcileBookingPaymentStep, BookingsService.findByIdOrFail,
    PackagesService.findByIdOrFail, PaymentsService.findByBooking, Prog.bind_eq, await_bind,
    Prog.call_bind, Backend.runs_call, prisma_exec, exec] at h
  obtain ⟨_, h⟩ := h
  rcases hb : s.bookings[id]? with _ | b
  · simp only [hb, Prog.fail_bind, Backend.runs_fail] at h
    refine .inr ⟨?_, h.2⟩
    rintro ⟨b, _, hb', -⟩
    rw [hb] at hb'
    cases hb'
  simp only [hb, Prog.pure_eq, Prog.ret_bind, Backend.runs_call, prisma_exec, exec] at h
  obtain ⟨_, h⟩ := h
  rcases hp : s.packages[b.packageId]? with _ | pkg
  · simp only [toBookingShape, hp, Prog.fail_bind, Backend.runs_fail] at h
    refine .inr ⟨?_, h.2⟩
    rintro ⟨b', pkg, hb', hp', -⟩
    rw [hb, Option.some.injEq] at hb'
    rw [← hb', hp] at hp'
    cases hp'
  simp only [toBookingShape, hp, Prog.ret_bind, Backend.runs_call, prisma_exec, exec,
    totalPaid_eq] at h
  obtain ⟨_, h⟩ := h
  by_cases hge : s.paidFor id ≥ (toPackageShape b.packageId pkg).price
  · rw [if_pos hge] at h
    refine .inl ⟨⟨b, pkg, hb, hp, hge⟩, ?_⟩
    rcases Backend.runs_bind.mp h with ⟨_, s₁, hm, -, rfl⟩ | ⟨_, hm, -⟩ <;>
      exact markStepDone_runs hm
  · rw [if_neg hge] at h
    refine .inr ⟨?_, h.2⟩
    rintro ⟨b', pkg', hb', hp', hle⟩
    rw [hb, Option.some.injEq] at hb'
    subst hb'
    rw [hp, Option.some.injEq] at hp'
    subst hp'
    exact hge hle

theorem handleWebhook_runs {dto : PaymentWebhookDto} {r : Except Erreur PaymentShape}
    (h : prisma.Runs (PaymentsService.handleWebhook dto) s r s') :
    (s.payments.findFirst (·.providerReference = dto.providerReference) = none ∧ s' = s) ∨
    ∃ id p now, s.payments.findFirst (·.providerReference = dto.providerReference) = some (id, p) ∧
      let s₁ := s.putPayment id ((PaymentsService.webhookUpdate id dto.status).apply now p)
      (dto.status = .succeeded ∧ s₁.Covered p.bookingId ∧
          s₁.Stepped p.bookingId .payment .done s') ∨
        ((dto.status = .succeeded → ¬ s₁.Covered p.bookingId) ∧ s' = s₁) := by
  simp only [PaymentsService.handleWebhook, PaymentsService.update, Prog.bind_eq, await_bind,
    Backend.runs_call, prisma_exec, exec] at h
  obtain ⟨_, h⟩ := h
  rcases hf : s.payments.findFirst (·.providerReference = dto.providerReference) with _ | ⟨id, p⟩
  · simp only [hf, Backend.runs_fail] at h
    exact .inl ⟨rfl, h.2⟩
  have hp := (Table.findFirst_some hf).1
  simp only [hf, Prog.call_bind, Backend.runs_call, prisma_exec, exec, hp, Prog.pure_eq,
    Prog.ret_bind] at h
  obtain ⟨e, h⟩ := h
  refine .inr ⟨id, p, e.now, rfl, ?_⟩
  by_cases hst : dto.status = .succeeded
  · rw [if_pos hst] at h
    have hrec : ∃ r', prisma.Runs (PaymentsService.reconcileBookingPaymentStep p.bookingId)
        (s.putPayment id ((PaymentsService.webhookUpdate id dto.status).apply e.now p)) r' s' := by
      rcases Backend.runs_bind.mp h with ⟨_, s₁, hr, -, rfl⟩ | ⟨_, hr, -⟩
      · exact ⟨_, hr⟩
      · exact ⟨_, hr⟩
    obtain ⟨_, hrec⟩ := hrec
    rcases reconcile_runs hrec with ⟨hc, hs⟩ | ⟨hc, hs⟩
    · exact .inl ⟨hst, hc, hs⟩
    · exact .inr ⟨fun _ => hc, hs⟩
  · rw [if_neg hst] at h
    exact .inr ⟨fun hst' => absurd hst' hst, h.2⟩

/-- A payment is created `PENDING`, for the amount asked, or not at all. -/
theorem initiate_runs {pilgrimId : UserId} {dto : InitiatePaymentDto}
    {r : Except Erreur PaymentShape}
    (h : prisma.Runs (PaymentsService.initiate pilgrimId dto) s r s') :
    s' = s ∨ ∃ p : Payment, p.bookingId = dto.bookingId ∧ p.amount = dto.amount ∧
      p.status = .pending ∧ p.confirmedAt = none ∧ p.refundedAmount = none ∧ p.refundedAt = none ∧
      s' = { s with payments := s.payments ++ [p] } := by
  simp only [PaymentsService.initiate, BookingsService.findByIdOrFail, Prog.bind_eq, await_bind,
    Prog.call_bind, Backend.runs_call, prisma_exec, exec] at h
  obtain ⟨_, h⟩ := h
  rcases hb : s.bookings[dto.bookingId]? with _ | b
  · simp only [hb, Prog.fail_bind, Backend.runs_fail] at h
    exact .inl h.2
  simp only [hb, Prog.pure_eq, Prog.ret_bind] at h
  by_cases hpil : (toBookingShape dto.bookingId b).pilgrimId = pilgrimId
  · rw [if_neg (not_not.mpr hpil)] at h
    simp only [Backend.runs_call, prisma_exec, exec] at h
    obtain ⟨_, e, h⟩ := h
    rcases href : e.reference with _ | reference
    · simp only [href, Backend.runs_fail] at h
      exact .inl h.2
    simp only [href, Backend.runs_call, prisma_exec, exec] at h
    obtain ⟨e', h⟩ := h
    rcases hex : s.payments.any fun p => decide (p.providerReference = reference) with _ | _
    · simp only [hex, Backend.runs_ret] at h
      exact .inr ⟨_, rfl, rfl, rfl, rfl, rfl, rfl, h.2⟩
    · simp only [hex, Backend.runs_fail] at h
      exact .inl h.2
  · rw [if_pos hpil] at h
    exact .inl h.2

/-- The requester may see the payment: an administrator, the pilgrim or the agency of its booking. -/
def Db.mayRead (s : Db) (requesterId : UserId) (requesterRole : Role) (p : Payment) : Bool :=
  match s.bookings[p.bookingId]? with
  | none => false
  | some b => requesterRole = .admin || b.pilgrimId = requesterId ||
    (requesterRole = .agency && (s.agencyOf requesterId).any fun a => b.agencyId = a.1)

/-- The payment is given to who may see it; otherwise it is refused or not found. -/
theorem findAuthorizedOrFail_runs {requesterId : UserId} {requesterRole : Role} {id : PaymentId}
    {r : Except Erreur PaymentShape}
    (h : prisma.Runs (PaymentsService.findAuthorizedOrFail requesterId requesterRole id) s r s') :
    s' = s ∧ ((∃ p b, s.payments[id]? = some p ∧ s.bookings[p.bookingId]? = some b ∧
        s.mayRead requesterId requesterRole p = true ∧ r = .ok (toPaymentShape id p)) ∨
      ((∀ p, s.payments[id]? = some p → s.mayRead requesterId requesterRole p = false) ∧
        ∃ x, x.Refus ∧ r = .error x)) := by
  simp only [PaymentsService.findAuthorizedOrFail, PaymentsService.findByIdOrFail,
    BookingsService.findByIdOrFail, AgenciesService.findByOwnerOrFail, Prog.bind_eq, await_bind,
    Prog.call_bind, Backend.runs_call, prisma_exec, exec] at h
  obtain ⟨_, h⟩ := h
  rcases hp : s.payments[id]? with _ | p
  · simp only [hp, Prog.fail_bind, Backend.runs_fail] at h
    exact ⟨h.2, .inr ⟨fun p hp => by simp at hp, _, Erreur.refus_notFound _, h.1⟩⟩
  simp only [hp, Prog.pure_eq, Prog.ret_bind, Backend.runs_call, prisma_exec, exec,
    toPaymentShape] at h
  obtain ⟨_, h⟩ := h
  rcases hb : s.bookings[p.bookingId]? with _ | b
  · simp only [hb, Prog.fail_bind, Backend.runs_fail] at h
    refine ⟨h.2, .inr ⟨fun q hq => ?_, _, Erreur.refus_notFound _, h.1⟩⟩
    obtain rfl := Option.some.inj hq
    simp [Db.mayRead, hb]
  simp only [hb, Prog.ret_bind] at h
  by_cases hown : requesterRole = .admin ∨ (toBookingShape p.bookingId b).pilgrimId = requesterId
  · rw [if_pos hown] at h
    refine ⟨h.2, .inl ⟨p, b, rfl, hb, ?_, h.1⟩⟩
    rcases hown with hadm | hpil
    · simp [Db.mayRead, hb, hadm]
    · simp [Db.mayRead, hb, show b.pilgrimId = requesterId from hpil]
  rw [if_neg hown] at h
  have hadm : requesterRole ≠ .admin := fun hadm => hown (.inl hadm)
  have hpil : b.pilgrimId ≠ requesterId := fun hpil => hown (.inr hpil)
  -- who is left is an agency, or is refused
  have hrefuse : s' = s → r = .error (.forbidden "Vous n'avez pas accès à ce paiement") →
      (requesterRole = .agency → (s.agencyOf requesterId).any (fun a => b.agencyId = a.1) = false) →
      s' = s ∧ ((∃ q c, some p = some q ∧ s.bookings[q.bookingId]? = some c ∧
          s.mayRead requesterId requesterRole q = true ∧ r = .ok (toPaymentShape id q)) ∨
        ((∀ q, some p = some q → s.mayRead requesterId requesterRole q = false) ∧
          ∃ x, x.Refus ∧ r = .error x)) := by
    intro hs hr hag
    refine ⟨hs, .inr ⟨fun q hq => ?_, _, Erreur.refus_forbidden _, hr⟩⟩
    obtain rfl := Option.some.inj hq
    by_cases hrole : requesterRole = .agency
    · simp [Db.mayRead, hb, hadm, hpil, hag hrole]
    · simp [Db.mayRead, hb, hadm, hpil, hrole]
  by_cases hag : requesterRole = .agency
  · rw [if_pos hag] at h
    simp only [Backend.runs_call, prisma_exec, exec] at h
    obtain ⟨_, h⟩ := h
    rcases ha : s.agencyOf requesterId with _ | ⟨agencyId, agency⟩
    · simp only [ha, Prog.fail_bind, Backend.runs_fail] at h
      refine ⟨h.2, .inr ⟨fun q hq => ?_, _, Erreur.refus_notFound _, h.1⟩⟩
      obtain rfl := Option.some.inj hq
      simp [Db.mayRead, hb, hadm, hpil, ha]
    simp only [ha, Prog.ret_bind] at h
    by_cases heq : (toBookingShape p.bookingId b).agencyId = (toAgencyShape agencyId agency).id
    · rw [if_pos heq] at h
      refine ⟨h.2, .inl ⟨p, b, rfl, hb, ?_, h.1⟩⟩
      simp [Db.mayRead, hb, hag, ha, show b.agencyId = agencyId from heq]
    · rw [if_neg heq] at h
      refine hrefuse h.2 h.1 fun _ => ?_
      simpa [ha] using show b.agencyId ≠ agencyId from heq
  · rw [if_neg hag] at h
    exact hrefuse h.2 h.1 fun hrole => absurd hrole hag

/-- What starts with the authorization goes on with a payment that the requester may see, or ends
there. -/
theorem authorized_bind {α : Type} {ok : Env → Prop} {requesterId : UserId} {requesterRole : Role}
    {id : PaymentId} {f : PaymentShape → Req α} {r : Except Erreur α}
    (h : (prisma.restrict ok).Runs
      ((PaymentsService.findAuthorizedOrFail requesterId requesterRole id).bind f) s r s') :
    (∃ p b, s.payments[id]? = some p ∧ s.bookings[p.bookingId]? = some b ∧
      s.mayRead requesterId requesterRole p = true ∧
      (prisma.restrict ok).Runs (f (toPaymentShape id p)) s r s') ∨
    ((∀ p, s.payments[id]? = some p → s.mayRead requesterId requesterRole p = false) ∧ s' = s ∧
      ∃ x, x.Refus ∧ r = .error x) := by
  rcases Backend.runs_bind.mp h with ⟨shape, s₁, hfind, hrest⟩ | ⟨x, hfind, hx⟩
  · obtain ⟨rfl, ⟨p, b, hp, hb, hread, hshape⟩ | ⟨-, x, -, hx⟩⟩ :=
      findAuthorizedOrFail_runs hfind.of_restrict
    · obtain rfl := Except.ok.inj hshape
      exact .inl ⟨p, b, hp, hb, hread, hrest⟩
    · cases hx
  · obtain ⟨rfl, ⟨p, b, -, -, -, hshape⟩ | ⟨hno, y, hy, hx'⟩⟩ :=
      findAuthorizedOrFail_runs hfind.of_restrict
    · cases hshape
    · obtain rfl := Except.error.inj hx'
      exact .inr ⟨hno, rfl, _, hy, hx⟩

/-- What `contextFor` answers for a booking at an instant. -/
def contexte (b : Booking) (pkg : Package) (t : Time) : RefundContext :=
  let tiers := lirePaliers b.refundPolicySnapshot
  let daysBeforeDeparture := joursAvantDepart pkg.startDate t
  let e := eligibilite b.status tiers daysBeforeDeparture
  { rate := e.rate, rule := e.rule, daysBeforeDeparture, tiers }

theorem contextFor_bind {α : Type} {ok : Env → Prop} {bookingId : BookingId}
    {f : RefundContext → Req α} {r : Except Erreur α}
    (h : (prisma.restrict ok).Runs ((RefundPolicyService.contextFor bookingId).bind f) s r s') :
    (∃ b pkg e, s.bookingWithPackage bookingId = some (b, pkg) ∧ ok e ∧
      (prisma.restrict ok).Runs (f (contexte b pkg e.now)) s r s') ∨
    (s.bookingWithPackage bookingId = none ∧ s' = s ∧
      r = .error (.notFound "Réservation introuvable")) := by
  simp only [RefundPolicyService.contextFor, Prog.bind_eq, await_bind, Prog.call_bind,
    Backend.runs_call, Backend.restrict_exec, prisma_exec, exec] at h
  obtain ⟨⟨e, he⟩, _, h⟩ := h
  rcases hc : s.bookingWithPackage bookingId with _ | ⟨b, pkg⟩
  · simp only [hc, Prog.fail_bind, Backend.runs_fail] at h
    exact .inr ⟨rfl, h.2, h.1⟩
  · simp only [hc, Prog.pure_eq, Prog.ret_bind] at h
    exact .inl ⟨b, pkg, e, rfl, he, h⟩

/-- A rate that is not zero: the booking is not confirmed yet, and all is refunded, or it is
confirmed. -/
theorem eligibilite_ne_zero {statut : BookingStatus} {paliers : List RefundPolicyTierShape}
    {jours : Int} (h : (eligibilite statut paliers jours).rate ≠ 0) :
    (statut = .pendingPayment ∧ (eligibilite statut paliers jours).rate = 1) ∨
      statut = .confirmed := by
  cases statut with
  | pendingPayment => exact .inl ⟨rfl, rfl⟩
  | confirmed => exact .inr rfl
  | cancelled => exact absurd rfl h
  | completed => exact absurd rfl h

/-- The payment is there, the requester may see it, and it is for a departure that is there. -/
structure Visible (s : Db) (requesterId : UserId) (requesterRole : Role) (id : PaymentId)
    (p : Payment) (b : Booking) (pkg : Package) : Prop where
  payment : s.payments[id]? = some p
  lecture : s.mayRead requesterId requesterRole p = true
  booking : s.bookingWithPackage p.bookingId = some (b, pkg)

/-- How a refund ends: it is refused before anything is done, the provider declines it, or the payment is
`REFUNDED` for what the provider sends back. -/
inductive RefundEnd (ok : Env → Prop) (s : Db) (requesterId : UserId) (requesterRole : Role)
    (id : PaymentId) : Except Erreur PaymentShape → Db → Prop
  | refused {x : Erreur} (hx : x.Refus)
    (h : ∀ p, s.payments[id]? = some p → s.mayRead requesterId requesterRole p = false) :
    RefundEnd ok s requesterId requesterRole id (.error x) s
  | orphan {p : Payment} {b : Booking} {m : String} (hb : s.bookings[p.bookingId]? = some b)
    (h : s.bookingWithPackage p.bookingId = none) :
    RefundEnd ok s requesterId requesterRole id (.error (.notFound m)) s
  | notSucceeded {p : Payment} {m : String} (hp : s.payments[id]? = some p)
    (hread : s.mayRead requesterId requesterRole p = true) (h : p.status ≠ .succeeded) :
    RefundEnd ok s requesterId requesterRole id (.error (.conflict m)) s
  | notRefundable {p : Payment} {b : Booking} {pkg : Package} {e : Env} {m : String}
    (hv : Visible s requesterId requesterRole id p b pkg) (hst : p.status = .succeeded) (he : ok e)
    (h : (contexte b pkg e.now).rate = 0) :
    RefundEnd ok s requesterId requesterRole id (.error (.conflict m)) s
  | declined {p : Payment} {b : Booking} {pkg : Package} {e : Env}
    (hv : Visible s requesterId requesterRole id p b pkg) (he : ok e) (h : e.accepted = false) :
    RefundEnd ok s requesterId requesterRole id (.error .provider) s
  | refunded {p : Payment} {b : Booking} {pkg : Package} {e e' : Env} {rate : ℚ} {s' : Db}
    (hv : Visible s requesterId requesterRole id p b pkg) (hst : p.status = .succeeded) (he : ok e)
    (hrate : (contexte b pkg e.now).rate = rate) (hzero : rate ≠ 0)
    (hcore : s'.core = (Db.putPayment
      { s with refunds := s.refunds ++ [(p.providerReference, arrondi (p.amount * rate))] } id
      ((PaymentsService.refundUpdate (arrondi (p.amount * rate))).apply e'.now p)).core) :
    RefundEnd ok s requesterId requesterRole id (.ok (toPaymentShape id
      ((PaymentsService.refundUpdate (arrondi (p.amount * rate))).apply e'.now p))) s'

theorem requestRefund_ends {ok : Env → Prop} {requesterId : UserId} {requesterRole : Role}
    {id : PaymentId} {r : Except Erreur PaymentShape}
    (h : (prisma.restrict ok).Runs (PaymentsService.requestRefund requesterId requesterRole id)
      s r s') :
    RefundEnd ok s requesterId requesterRole id r s' := by
  rcases authorized_bind h with ⟨p, b, hp, hb, hread, h⟩ | ⟨hno, rfl, x, hx, rfl⟩
  swap
  · exact .refused hx hno
  by_cases hst : (toPaymentShape id p).status = .succeeded
  swap
  · rw [if_pos hst] at h
    obtain ⟨rfl, rfl⟩ := h
    exact .notSucceeded hp hread hst
  rw [if_neg (not_not.mpr hst)] at h
  simp only [BookingsService.findByIdOrFail, Prog.bind_eq, await_bind, Prog.call_bind,
    Backend.runs_call, Backend.restrict_exec, prisma_exec, exec, toPaymentShape, hb, Prog.pure_eq,
    Prog.ret_bind, toBookingShape] at h
  obtain ⟨_, h⟩ := h
  rcases contextFor_bind h with ⟨b', pkg, e, hc, he, h⟩ | ⟨hc, rfl, rfl⟩
  swap
  · exact .orphan hb hc
  have hv : Visible s requesterId requesterRole id p b' pkg := ⟨hp, hread, hc⟩
  generalize hrate : (contexte b' pkg e.now).rate = rate at h
  by_cases hzero : rate = 0
  · rw [if_pos hzero] at h
    obtain ⟨rfl, rfl⟩ := h
    exact .notRefundable hv hst he (hrate.trans hzero)
  rw [if_neg hzero] at h
  simp only [Backend.runs_call, Backend.restrict_exec, prisma_exec, exec] at h
  obtain ⟨⟨e', he'⟩, h⟩ := h
  rcases hacc : e'.accepted with _ | _
  · simp only [hacc, Backend.runs_fail] at h
    obtain ⟨rfl, rfl⟩ := h
    exact .declined hv he' hacc
  simp only [hacc, PaymentsService.update, NotificationsService.send, Prog.bind_eq, await_bind,
    Prog.call_bind, Backend.runs_call, Backend.restrict_exec, prisma_exec, exec, hp, Prog.pure_eq,
    Prog.ret_bind] at h
  obtain ⟨_, _, rfl, rfl⟩ := h
  exact .refunded hv hst he hrate hzero rfl

/-- A refund that the provider accepts: the rate is not zero, the payment becomes `REFUNDED`, and
nothing else of the core changes. -/
theorem requestRefund_runs {requesterId : UserId} {requesterRole : Role} {id : PaymentId}
    {r : Except Erreur PaymentShape}
    (h : prisma.Runs (PaymentsService.requestRefund requesterId requesterRole id) s r s') :
    s' = s ∨ ∃ p b rate now, s.payments[id]? = some p ∧
      s.mayRead requesterId requesterRole p = true ∧ p.status = .succeeded ∧
      s.bookings[p.bookingId]? = some b ∧
      ((b.status = .pendingPayment ∧ rate = 1) ∨ b.status = .confirmed) ∧
      s'.core = (Db.putPayment
        { s with refunds := s.refunds ++ [(p.providerReference, arrondi (p.amount * rate))] } id
        ((PaymentsService.refundUpdate (arrondi (p.amount * rate))).apply now p)).core := by
  cases requestRefund_ends (Backend.restrict_true.mpr h) with
  | refunded hv hst _ hrate hzero hcore =>
    obtain ⟨b, hb, hpkg⟩ := Option.bind_eq_some_iff.mp hv.booking
    obtain ⟨_, -, hpkg⟩ := Option.map_eq_some_iff.mp hpkg
    obtain ⟨rfl, rfl⟩ := Prod.mk.inj hpkg
    have helig := eligibilite_ne_zero (hrate ▸ hzero)
    exact .inr ⟨_, _, _, _, hv.payment, hv.lecture, hst, hb,
      helig.imp_left (And.imp_right fun h => hrate ▸ h), hcore⟩
  | _ => exact .inl rfl

end Payments

end OumraHajj
