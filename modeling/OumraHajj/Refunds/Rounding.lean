import OumraHajj.Services.Requests
import OumraHajj.Spec.Payments

/-!
# The rounding of a refund

`requestRefund` rounds the amount times the rate to two decimals, halves up, but a payment may be of any
positive amount: `InitiatePaymentDto` does not ask for two decimals. The refund is within the payment
exactly if the product is less than half a hundredth above the whole hundredths of the payment
(`refund_within_iff`), so it always is for a payment in whole hundredths (`refund_within`).
-/

namespace OumraHajj

open Async

section Refund

variable {s s' : Db} {requesterId : UserId} {requesterRole : Role} {id : PaymentId} {p : Payment}
  {b : Booking} {pkg : Package} {payment : PaymentShape} {env : Stmt → Env}

/-- The authorization of a requester who may see the payment. -/
theorem evalBy_authorized {α : Type} (hv : Visible s requesterId requesterRole id p b pkg)
    (f : PaymentShape → Req α) :
    prisma.evalBy env ((PaymentsService.findAuthorizedOrFail requesterId requesterRole id).bind f) s =
      prisma.evalBy env (f (toPaymentShape id p)) s := by
  rcases hfind : prisma.evalBy env (PaymentsService.findAuthorizedOrFail requesterId requesterRole id) s
    with ⟨r, s₁⟩
  have hrun := Backend.evalBy_runs (B := prisma) env
    (PaymentsService.findAuthorizedOrFail requesterId requesterRole id) s
  simp only [hfind] at hrun
  obtain ⟨rfl, ⟨p', -, hp', -, -, rfl⟩ | ⟨hno, -⟩⟩ := findAuthorizedOrFail_runs hrun
  · obtain rfl := Option.some.inj (hv.payment.symm.trans hp')
    exact Backend.evalBy_bind_ok hfind f
  · have hread := hv.lecture
    rw [hno p hv.payment] at hread
    cases hread

/-- The amount that a refund records, at the rate of the instant that the clock gives. -/
theorem requestRefund_amount (hv : Visible s requesterId requesterRole id p b pkg)
    (h : prisma.evalBy env (PaymentsService.requestRefund requesterId requesterRole id) s =
      (.ok payment, s')) :
    payment.refundedAmount = some (arrondi (p.amount * (contexte b pkg (env .now).now).rate)) := by
  have h := (evalBy_authorized hv _).symm.trans h
  by_cases hst : (toPaymentShape id p).status = .succeeded
  swap
  · rw [if_pos hst] at h
    cases h
  obtain ⟨b', hb, hpkg⟩ := Option.bind_eq_some_iff.mp hv.booking
  rw [if_neg (not_not.mpr hst)] at h
  simp only [BookingsService.findByIdOrFail, RefundPolicyService.contextFor, Prog.bind_eq, await_bind,
    Prog.call_bind, Backend.evalBy_call, prisma_exec, exec, toPaymentShape, hb, Prog.pure_eq,
    Prog.ret_bind, toBookingShape, hv.booking] at h
  show payment.refundedAmount = some (arrondi (p.amount * (eligibilite b.status
    (lirePaliers b.refundPolicySnapshot) (joursAvantDepart pkg.startDate (env .now).now)).rate))
  generalize (eligibilite b.status (lirePaliers b.refundPolicySnapshot)
    (joursAvantDepart pkg.startDate (env .now).now)).rate = rate at h ⊢
  by_cases hzero : rate = 0
  · rw [if_pos hzero] at h
    cases h
  rw [if_neg hzero] at h
  simp only [Backend.evalBy_call, prisma_exec, exec] at h
  rcases hacc : (env (.providerRefund p.providerReference (arrondi (p.amount * rate)))).accepted
    with _ | _
  · simp only [hacc] at h
    cases h
  · simp only [hacc, PaymentsService.update, NotificationsService.send, Prog.bind_eq, await_bind,
      Prog.call_bind, Backend.evalBy_call, prisma_exec, exec, hv.payment, Prog.pure_eq,
      Prog.ret_bind] at h
    obtain ⟨hshape, -⟩ := Prod.mk.inj h
    obtain rfl := Except.ok.inj hshape
    rfl

/-- **When a refund is within its payment**, for every amount that can be paid and every rate. -/
theorem refund_within_iff (dto : InitiatePaymentDto)
    (hv : Visible s requesterId requesterRole id p b pkg) (hamount : p.amount = dto.amount) {rate : ℚ}
    (hrate : (contexte b pkg (env .now).now).rate = rate) (hpos : 0 < rate)
    (h : prisma.evalBy env (PaymentsService.requestRefund requesterId requesterRole id) s =
      (.ok payment, s')) :
    (∃ m, payment.refundedAmount = some m ∧ 0 ≤ m ∧ m ≤ dto.amount) ↔
      dto.amount * rate * 100 < ⌊dto.amount * 100⌋ + 1 / 2 := by
  have hm := requestRefund_amount hv h
  rw [hamount, hrate] at hm
  rw [← arrondi_le_iff]
  constructor
  · rintro ⟨m, hm', -, hle⟩
    obtain rfl := Option.some.inj (hm.symm.trans hm')
    exact hle
  · exact fun hle => ⟨_, hm, arrondi_nonneg (mul_nonneg dto.amount_pos.le hpos.le), hle⟩

theorem lt_of_twoDecimals {x rate : ℚ} (hx : 0 ≤ x) (h : TwoDecimals x) (hle : rate ≤ 1) :
    x * rate * 100 < ⌊x * 100⌋ + 1 / 2 := by
  obtain ⟨n, rfl⟩ := h
  have hn : (n : ℚ) / 100 * 100 = n := by field_simp
  have hrate : (n : ℚ) / 100 * rate ≤ n / 100 := mul_le_of_le_one_right hx hle
  rw [hn, Int.floor_intCast]
  linarith

/-- A payment in whole hundredths is never exceeded. -/
theorem refund_within (hv : Visible s requesterId requesterRole id p b pkg) (hpos : 0 ≤ p.amount)
    (hcents : TwoDecimals p.amount) (hle : (contexte b pkg (env .now).now).rate ≤ 1)
    (h : prisma.evalBy env (PaymentsService.requestRefund requesterId requesterRole id) s =
      (.ok payment, s')) :
    ∃ m, payment.refundedAmount = some m ∧ m ≤ p.amount :=
  ⟨_, requestRefund_amount hv h, arrondi_le_iff.mpr (lt_of_twoDecimals hpos hcents hle)⟩

end Refund

private theorem demiCentime_pos : (0 : ℚ) < 1 / 200 := by norm_num

/-- A payment of half a hundredth. -/
private def demiCentime : InitiatePaymentDto := ⟨0, 1 / 200, .card, demiCentime_pos⟩

/-- A payment of the pilgrim that has succeeded. -/
private def versement (dto : InitiatePaymentDto) : Payment where
  bookingId := 0
  amount := dto.amount
  installmentNumber := 1
  method := dto.method
  status := .succeeded
  providerReference := "ref"
  createdAt := 0

private def regle (dto : InitiatePaymentDto) : Db :=
  { Db.exemple with bookings := [Booking.exemple], payments := [versement dto] }

/-- The pilgrim asks for the money back, and the provider accepts. -/
private def remboursement (dto : InitiatePaymentDto) : Except Erreur PaymentShape × Db :=
  prisma.evalBy (fun _ => {}) (PaymentsService.requestRefund 0 .pilgrim 0) (regle dto)

private theorem visible_regle (dto : InitiatePaymentDto) :
    Visible (regle dto) 0 .pilgrim 0 (versement dto) Booking.exemple (Db.exemple.packages[0]) where
  payment := rfl
  lecture := rfl
  booking := rfl

private theorem remboursement_ok (dto : InitiatePaymentDto) :
    ∃ payment, remboursement dto = (.ok payment, (remboursement dto).2) ∧
      payment.refundedAmount = some (arrondi (dto.amount * 1)) := ⟨_, rfl, rfl⟩

/-- A payment of 100 is not exceeded. -/
theorem refund_within_exemple : ∃ payment, (remboursement .exemple).1 = .ok payment ∧
    ∃ m, payment.refundedAmount = some m ∧ 0 ≤ m ∧ m ≤ InitiatePaymentDto.exemple.amount := by
  obtain ⟨payment, hok, -⟩ := remboursement_ok .exemple
  have hrate : (contexte Booking.exemple Db.exemple.packages[0] 0).rate = 1 := rfl
  have hcents : TwoDecimals InitiatePaymentDto.exemple.amount :=
    ⟨10000, by norm_num [InitiatePaymentDto.exemple]⟩
  refine ⟨payment, congrArg Prod.fst hok, (refund_within_iff .exemple (visible_regle .exemple) rfl
    hrate zero_lt_one hok).mpr ?_⟩
  exact lt_of_twoDecimals InitiatePaymentDto.exemple.amount_pos.le hcents le_rfl

/-- For half a hundredth a whole hundredth is sent back. -/
theorem refund_within_demi_centime :
    ¬ ∀ (dto : InitiatePaymentDto) (s s' : Db) (requesterId : UserId) (requesterRole : Role)
      (id : PaymentId) (p : Payment) (b : Booking) (pkg : Package) (payment : PaymentShape)
      (env : Stmt → Env), Visible s requesterId requesterRole id p b pkg → p.amount = dto.amount →
      0 < (contexte b pkg (env .now).now).rate → (contexte b pkg (env .now).now).rate ≤ 1 →
      prisma.evalBy env (PaymentsService.requestRefund requesterId requesterRole id) s =
        (.ok payment, s') →
      ∃ m, payment.refundedAmount = some m ∧ 0 ≤ m ∧ m ≤ dto.amount := by
  intro h
  obtain ⟨payment, hok, hamount⟩ := remboursement_ok demiCentime
  obtain ⟨m, hm, -, hle⟩ := h demiCentime _ _ _ _ _ _ _ _ payment _ (visible_regle demiCentime) rfl
    zero_lt_one le_rfl hok
  obtain rfl := Option.some.inj (hamount.symm.trans hm)
  have hlt : demiCentime.amount * 1 * 100 < ⌊demiCentime.amount * 100⌋ + 1 / 2 := arrondi_le_iff.mp hle
  exact absurd hlt (by norm_num [demiCentime])

end OumraHajj
