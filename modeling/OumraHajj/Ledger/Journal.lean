import OumraHajj.Spec.Billing
import OumraHajj.Spec.Payments

/-!
# The journal and the invoice

The journal selects payments by their dates, the invoice by their status. They agree on a booking
when its payments are `Coherent`: the dates and the status tell the same story. A payment starts
coherent, a refund keeps it so, and so does a successful callback. Another callback does unless it
contradicts the dates (`Db.Contradicts`): `PENDING` or `FAILED` on a payment that was confirmed, or
`REFUNDED` on one that never was.
-/

namespace OumraHajj

open Async

/-- The dates of a payment and its status tell the same story. -/
structure Payment.Coherent (p : Payment) : Prop where
  confirmed : p.confirmedAt.isSome = encaisse p.status
  refunded : p.refundedAt.isSome = p.refundedAmount.isSome
  encaisse_of_refunded : p.refundedAmount.isSome = true → encaisse p.status = true
  cents : ∀ x, p.refundedAmount = some x → TwoDecimals x

/-- Every payment is coherent. -/
def Db.Coherent (s : Db) : Prop :=
  ∀ (id : PaymentId) (p : Payment), s.payments[id]? = some p → p.Coherent

/-- The callback contradicts the dates of its payment. -/
def Db.Contradicts (s : Db) (q : Request) : Prop :=
  ∃ dto id p, q = .webhook dto ∧
    s.payments.findFirst (·.providerReference = dto.providerReference) = some (id, p) ∧
    dto.status ≠ .succeeded ∧ p.confirmedAt.isSome ≠ encaisse dto.status

/-- The requests on payments. -/
def Request.IsMoney : Request → Prop
  | .initiatePayment _ _ => True
  | .webhook _ => True
  | .requestRefund _ _ _ => True
  | _ => False

namespace Payment.Coherent

variable {p : Payment}

theorem of_pending (hst : p.status = .pending) (hc : p.confirmedAt = none)
    (hr : p.refundedAmount = none) (hd : p.refundedAt = none) : p.Coherent :=
  ⟨by rw [hc, hst]; rfl, by rw [hd, hr]; rfl, by rw [hr]; nofun, by rw [hr]; nofun⟩

/-- A callback that does not contradict the dates. -/
theorem webhook (h : p.Coherent) (id : PaymentId) {status : PaymentStatus} (now : Time)
    (hok : status ≠ .succeeded → p.confirmedAt.isSome = encaisse status) :
    ((PaymentsService.webhookUpdate id status).apply now p).Coherent := by
  unfold PaymentsService.webhookUpdate
  by_cases hs : status = .succeeded
  · rw [if_pos hs]
    subst hs
    exact ⟨rfl, h.refunded, fun _ => rfl, h.cents⟩
  · rw [if_neg hs]
    have hconf : p.confirmedAt.isSome = encaisse status := hok hs
    refine ⟨hconf, h.refunded, fun hr => ?_, h.cents⟩
    have := h.encaisse_of_refunded hr
    exact hconf.symm.trans (h.confirmed.trans this)

theorem refund (h : p.Coherent) (hst : p.status = .succeeded) {x : ℚ} (hx : TwoDecimals x)
    (now : Time) : ((PaymentsService.refundUpdate x).apply now p).Coherent := by
  refine ⟨?_, rfl, fun _ => rfl, ?_⟩
  · have := h.confirmed
    rw [hst] at this
    exact this
  · rintro y hy
    cases hy
    exact hx

end Payment.Coherent

namespace Db.Coherent

variable {s s' : Db}

theorem congr (hp : s'.payments = s.payments) (h : s.Coherent) : s'.Coherent :=
  fun id p hid => h id p (hp ▸ hid)

theorem putPayment {id : PaymentId} {p p' : Payment} (hp : s.payments[id]? = some p)
    (hp' : p'.Coherent) (h : s.Coherent) : (s.putPayment id p').Coherent := by
  intro id' q hq
  unfold Db.putPayment at hq
  rw [Table.get_set hp] at hq
  split at hq
  · cases hq
    exact hp'
  · exact h id' q hq

theorem append {p : Payment} (hp : p.Coherent) (h : s.Coherent) :
    Db.Coherent { s with payments := s.payments ++ [p] } := by
  intro id q hq
  have hget := Table.get_append s.payments p id
  replace hq := hget.symm.trans hq
  split at hq
  · cases hq
    exact hp
  · exact h id q hq

/-- **Step.** A request on payments that does not contradict their dates keeps them coherent. -/
theorem request {q : Request} (hq : q.IsMoney) {r : Except Erreur Unit} (h : s.Coherent)
    (hno : ¬ s.Contradicts q) (hr : prisma.Runs (handler q) s r s') : s'.Coherent := by
  cases q with
  | initiatePayment pilgrimId dto =>
    obtain ⟨_, hr⟩ := Backend.runs_void hr
    rcases initiate_runs hr with rfl | ⟨p, -, -, hst, hc, hra, hrd, rfl⟩
    · exact h
    · exact h.append (Payment.Coherent.of_pending hst hc hra hrd)
  | webhook dto =>
    obtain ⟨_, hr⟩ := Backend.runs_void hr
    rcases handleWebhook_runs hr with ⟨-, rfl⟩ | ⟨id, p, now, hf, hs⟩
    · exact h
    have hp := (Table.findFirst_some hf).1
    have hok : dto.status ≠ .succeeded → p.confirmedAt.isSome = encaisse dto.status := by
      intro hst
      by_contra hne
      exact hno ⟨dto, id, p, rfl, hf, hst, hne⟩
    have h₁ := h.putPayment hp ((h id p hp).webhook id now hok)
    rcases hs with ⟨-, -, hs⟩ | ⟨-, rfl⟩
    · exact h₁.congr hs.payments_eq
    · exact h₁
  | requestRefund requesterId requesterRole id =>
    obtain ⟨_, hr⟩ := Backend.runs_void hr
    rcases requestRefund_runs hr with rfl | ⟨p, b, rate, now, hp, -, hst, -, -, hcore⟩
    · exact h
    · have h₁ := h.putPayment hp ((h id p hp).refund hst (twoDecimals_arrondi (p.amount * rate)) now)
      have hpay := payments_of_core hcore
      exact h₁.congr hpay
  | _ => exact hq.elim

end Db.Coherent

/-! ## The sums -/

section Sums

variable {s s₁ s₂ : Db} {id : BookingId}

/-- The recorded dates of the payments of a booking are in the period. -/
def Covers (s : Db) (id : BookingId) (debut finExclue : Time) : Prop :=
  ∀ p ∈ s.payments, p.bookingId = id →
    (∀ t ∈ p.confirmedAt, debut ≤ t ∧ t < finExclue) ∧ ∀ t ∈ p.refundedAt, debut ≤ t ∧ t < finExclue

instance (s : Db) (id : BookingId) (debut finExclue : Time) :
    Decidable (Covers s id debut finExclue) :=
  inferInstanceAs (Decidable (∀ p ∈ s.payments, p.bookingId = id →
    (∀ t ∈ p.confirmedAt, debut ≤ t ∧ t < finExclue) ∧ ∀ t ∈ p.refundedAt, debut ≤ t ∧ t < finExclue))

theorem dansPeriode_of_covers {debut finExclue : Time} {o : Option Time}
    (h : ∀ t ∈ o, debut ≤ t ∧ t < finExclue) :
    Db.dansPeriode debut finExclue o = o.isSome := by
  rcases o with _ | t
  · rfl
  · exact dansPeriode_some.mpr (h t rfl)

/-- The collections of the journal are those of the invoice. -/
theorem journal_collected {d : Dossier} (hd : s.dossier id = some d) (hc : s.Coherent)
    {j : AccountingExportShape} {debut finExclue : Time} (hcov : Covers s id debut finExclue)
    (hj : j.entries.Perm
      (rawEntries debut finExclue (s.journalRows d.booking.agencyId debut finExclue))) :
    j.collectedFor id = s.collectedFor id := by
  let w : Payment → ℚ := fun p =>
    if p.bookingId = id ∧ Db.dansPeriode debut finExclue p.confirmedAt then p.amount else 0
  have hrows : j.collectedFor id =
      ((s.journalRows d.booking.agencyId debut finExclue).map fun r => w r.payment).sum := by
    unfold AccountingExportShape.collectedFor
    rw [((hj.filter _).map _).sum_eq, rawEntries_sum]
    exact congrArg List.sum (List.map_congr_left fun r _ => row_collected r)
  have hsum := journalRows_sum hd debut finExclue w
    (fun p hp => if_neg fun h => hp h.1) fun p hp _ => if_neg fun h => by simp [hp] at h
  rw [hrows, hsum]
  unfold Db.collectedFor
  rw [Table.sumWhere_eq]
  refine congrArg List.sum (List.map_congr_left fun p hp => ?_)
  obtain ⟨i, hi⟩ := List.mem_iff_getElem?.mp hp
  by_cases hid : p.bookingId = id
  · have hper := dansPeriode_of_covers (hcov p hp hid).1
    simp only [w, hid, hper, (hc i p hi).confirmed, true_and, decide_eq_true_eq]
  · simp [w, hid]

/-- The refunds of the journal are those of the invoice. -/
theorem journal_refunded {d : Dossier} (hd : s.dossier id = some d) (hc : s.Coherent)
    {j : AccountingExportShape} {debut finExclue : Time} (hcov : Covers s id debut finExclue)
    (hj : j.entries.Perm
      (rawEntries debut finExclue (s.journalRows d.booking.agencyId debut finExclue))) :
    j.refundedFor id = s.refundedFor id := by
  let w : Payment → ℚ := fun p =>
    if p.bookingId = id ∧ Db.dansPeriode debut finExclue p.refundedAt then
      p.refundedAmount.getD 0 else 0
  have hrows : j.refundedFor id =
      ((s.journalRows d.booking.agencyId debut finExclue).map fun r => w r.payment).sum := by
    unfold AccountingExportShape.refundedFor
    rw [((hj.filter _).map _).sum_eq, rawEntries_sum]
    exact congrArg List.sum (List.map_congr_left fun r _ => row_refunded r)
  have hsum := journalRows_sum hd debut finExclue w
    (fun p hp => if_neg fun h => hp h.1) fun p _ hp => if_neg fun h => by simp [hp] at h
  rw [hrows, hsum]
  unfold Db.refundedFor
  rw [Table.sumWhere_eq]
  refine congrArg List.sum (List.map_congr_left fun p hp => ?_)
  obtain ⟨i, hi⟩ := List.mem_iff_getElem?.mp hp
  by_cases hid : p.bookingId = id
  · have hper := dansPeriode_of_covers (hcov p hp hid).2
    have hcoh := hc i p hi
    simp only [w, hid, hper, hcoh.refunded, true_and, decide_eq_true_eq]
    rcases hra : p.refundedAmount with _ | x
    · simp
    · simp [hcoh.encaisse_of_refunded (by rw [hra]; rfl)]
  · simp [w, hid]

end Sums

/-- Over a period with all the recorded dates, the entries of the booking in the journal of its
agency add up to the totals of its invoice. -/
def JournalAgrees (s : Db) (id : BookingId) : Prop :=
  ∀ ownerId query j s₁ userId role f s₂, s.owns ownerId id = true →
    (∀ p ∈ s.payments, p.bookingId = id → TwoDecimals p.amount) →
    prisma.Runs (AccountingExportService.getJournal ownerId query) s (.ok j) s₁ →
    Covers s id (minuit j.from) (minuit j.«to» + jourMs) →
    prisma.Runs (BillingService.getInvoice userId role id) s (.ok f) s₂ →
    j.collectedFor id = f.paid ∧ j.refundedFor id = f.refunded

/-- Coherent payments are counted alike. -/
theorem journalAgrees_of_coherent {s : Db} (hc : s.Coherent) (id : BookingId) :
    JournalAgrees s id := by
  intro ownerId query j s₁ userId role f s₂ howns hcents hj hcov hf
  obtain ⟨b, agency, hb, hag⟩ := Db.owns_iff.mp howns
  obtain ⟨d, facture, hd, rfl, -⟩ := getInvoice_runs hf
  have hbd : d.booking = b := by
    simp only [Db.dossier, hb, Option.bind_some, Option.bind_eq_some_iff,
      Option.map_eq_some_iff] at hd
    obtain ⟨_, -, _, -, _, -, rfl⟩ := hd
    rfl
  obtain ⟨agencyId, agency', hag', hperm⟩ := getJournal_runs hj
  have hid : agencyId = d.booking.agencyId := by
    rw [hag, Option.some.injEq, Prod.mk.injEq] at hag'
    rw [← hag'.1, hbd]
  rw [hid] at hperm
  have hpaid : TwoDecimals (s.collectedFor id) := by
    refine TwoDecimals.sum fun p hp => ?_
    obtain ⟨hmem, hP⟩ := List.mem_filter.mp hp
    rw [decide_eq_true_eq] at hP
    exact hcents p hmem hP.1
  have hrefunded : TwoDecimals (s.refundedFor id) := by
    refine TwoDecimals.sum fun p hp => ?_
    obtain ⟨i, hi⟩ := List.mem_iff_getElem?.mp (List.mem_filter.mp hp).1
    rcases hra : p.refundedAmount with _ | x
    · exact twoDecimals_zero
    · exact (hc i p hi).cents x hra
  constructor
  · rw [journal_collected hd hc hcov hperm]
    exact (arrondi_eq hpaid).symm.trans (paid_eq hd).symm
  · rw [journal_refunded hd hc hcov hperm]
    exact (arrondi_eq hrefunded).symm.trans (refunded_eq hd).symm

/-- The booking of the runs, without payments. -/
private def reservee : Db := Trace.last .exemple (runAll {} .exemple [.createBooking 0 0])

private def appels : Env := { reference := some "REF" }

private def encaisser : List Request :=
  [.initiatePayment 0 .exemple, .webhook ⟨"REF", .succeeded⟩]

/-- The payment succeeds and is refunded. -/
private def rendue : Trace Request Db :=
  runAll appels reservee (encaisser ++ [.requestRefund 0 .pilgrim 0])

end OumraHajj
