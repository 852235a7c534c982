import OumraHajj.Refunds.Frozen
import OumraHajj.Spec.Payments

/-!
# The preview of a refund

`previewRefund` and `requestRefund` look for the payment in the same way and read the same schedule, but
each has its own tests: the preview announces the rate 0 for a payment that is not `SUCCEEDED`; the request
refuses such a payment and, after it, the rate 0. In the states that the requests lead to no rate is
negative, and the two agree (`preview_truth`).
-/

namespace OumraHajj

open Async Catalogue

/-- Everything happens at the instant `t`, and the provider accepts. -/
abbrev enLigne (t : Time) : Backend prismaSig Db {e : Env // e.now = t ∧ e.accepted = true} :=
  prisma.restrict fun e => e.now = t ∧ e.accepted = true

/-- An end of a preview, and an end of the refund of the same payment in the same state, which leaves
`s'`. -/
structure Conforme (s : Db) (id : PaymentId) (apercu : Except Erreur RefundPreviewShape)
    (r : Except Erreur PaymentShape) (s' : Db) : Prop where
  refuse : (∃ x, x.Refus ∧ apercu = .error x) ↔ ∃ x, x.Refus ∧ r = .error x
  accorde : ∀ a, apercu = .ok a → ((∃ payment, r = .ok payment) ↔ 0 < a.eligibleRate)
  rembourse : ∀ a payment, apercu = .ok a → r = .ok payment →
    payment.refundedAmount = some a.refundableAmount ∧
    (∃ p', s'.payments[id]? = some p' ∧ p'.status = .refunded ∧
      p'.refundedAmount = some a.refundableAmount) ∧
    ∃ p, s.payments[id]? = some p ∧
      s'.refunds = s.refunds ++ [(p.providerReference, a.refundableAmount)]

/-! ## The rate -/

theorem value_schedule_nonneg {l : List RefundPolicyTier} (h : Coherent l) (j : Int) :
    0 ≤ Tiers.value 0 (schedule l) j := by
  rcases Tiers.value_cases _ (h.ordered.imp fun hab => hab.1) j with ⟨-, hv⟩ | ⟨p, hp, -, -, hv⟩
  · exact le_of_eq hv.symm
  · rw [hv]
    exact h.base_le p hp

/-- The rate of a booking is not negative. -/
theorem eligibilite_nonneg {snapshot : Option Json} (h : Fige snapshot) (statut : BookingStatus)
    (jours : Int) : 0 ≤ (eligibilite statut (lirePaliers snapshot) jours).rate := by
  cases statut with
  | pendingPayment => exact zero_le_one
  | confirmed =>
    show 0 ≤ tauxConfirme snapshot jours
    rcases h with rfl | ⟨l, hne, hc, rfl⟩
    · rw [tauxConfirme_none]
      norm_num [defaultConfirmedRate]
    · rw [tauxConfirme_tiersJson hne hc]
      exact value_schedule_nonneg hc jours
  | cancelled => exact le_refl _
  | completed => exact le_refl _

section State

variable {s s' : Db} {requesterId : UserId} {requesterRole : Role} {id : PaymentId} {t : Time}

/-- In a sound state a booking has a package, and a schedule that was frozen. -/
theorem sound_booking (hs : Sound s) {bookingId : BookingId} {b : Booking}
    (hb : s.bookings[bookingId]? = some b) :
    Fige b.refundPolicySnapshot ∧ ∃ pkg, s.bookingWithPackage bookingId = some (b, pkg) := by
  obtain ⟨hfige, hlt⟩ := hs.frozen b.terms (List.mem_map_of_mem (List.mem_of_getElem? hb))
  have hlt : b.packageId < s.packages.length := hlt
  refine ⟨hfige, s.packages[b.packageId], ?_⟩
  rw [Db.bookingWithPackage, hb, Option.bind_some, List.getElem?_eq_getElem hlt, Option.map_some]

theorem Visible.rate_nonneg (hs : Sound s) {p : Payment} {b : Booking} {pkg : Package}
    (h : Visible s requesterId requesterRole id p b pkg) (t : Time) : 0 ≤ (contexte b pkg t).rate := by
  obtain ⟨b', hb, hpkg⟩ := Option.bind_eq_some_iff.mp h.booking
  obtain ⟨_, -, hpkg⟩ := Option.map_eq_some_iff.mp hpkg
  obtain ⟨rfl, rfl⟩ := Prod.mk.inj hpkg
  exact eligibilite_nonneg (sound_booking hs hb).1 _ _

theorem Visible.unique {p p' : Payment} {b b' : Booking} {pkg pkg' : Package}
    (h : Visible s requesterId requesterRole id p b pkg)
    (h' : Visible s requesterId requesterRole id p' b' pkg') : p = p' ∧ b = b' ∧ pkg = pkg' := by
  obtain rfl := Option.some.inj (h.payment.symm.trans h'.payment)
  obtain ⟨rfl, rfl⟩ := Prod.mk.inj (Option.some.inj (h.booking.symm.trans h'.booking))
  exact ⟨rfl, rfl, rfl⟩

/-! ## The two handlers -/

/-- How a preview ends. -/
inductive PreviewEnd (ok : Env → Prop) (s : Db) (requesterId : UserId) (requesterRole : Role)
    (id : PaymentId) : Except Erreur RefundPreviewShape → Prop
  | refused {x : Erreur} (hx : x.Refus)
    (h : ∀ p, s.payments[id]? = some p → s.mayRead requesterId requesterRole p = false) :
    PreviewEnd ok s requesterId requesterRole id (.error x)
  | orphan {p : Payment} {b : Booking} {m : String} (hb : s.bookings[p.bookingId]? = some b)
    (h : s.bookingWithPackage p.bookingId = none) :
    PreviewEnd ok s requesterId requesterRole id (.error (.notFound m))
  | announced {p : Payment} {b : Booking} {pkg : Package} {e : Env} {a : RefundPreviewShape}
    (hv : Visible s requesterId requesterRole id p b pkg) (he : ok e)
    (hrate : a.eligibleRate = if p.status = .succeeded then (contexte b pkg e.now).rate else 0)
    (hamount : a.refundableAmount = arrondi (p.amount * a.eligibleRate)) :
    PreviewEnd ok s requesterId requesterRole id (.ok a)

theorem previewRefund_ends {ok : Env → Prop} {r : Except Erreur RefundPreviewShape}
    (h : (prisma.restrict ok).Runs (PaymentsService.previewRefund requesterId requesterRole id)
      s r s') :
    PreviewEnd ok s requesterId requesterRole id r := by
  rcases authorized_bind h with ⟨p, b, hp, hb, hread, h⟩ | ⟨hno, -, x, hx, rfl⟩
  swap
  · exact .refused hx hno
  rcases contextFor_bind h with ⟨b', pkg, e, hc, he, h⟩ | ⟨hc, -, rfl⟩
  swap
  · exact .orphan hb hc
  obtain ⟨rfl, -⟩ := h
  exact .announced ⟨hp, hread, hc⟩ he rfl rfl

theorem sound_withPackage (hs : Sound s) {bookingId : BookingId} {b : Booking}
    (hb : s.bookings[bookingId]? = some b) : s.bookingWithPackage bookingId ≠ none := by
  obtain ⟨-, pkg, hpkg⟩ := sound_booking hs hb
  rw [hpkg]
  exact Option.some_ne_none _

/-! ## Ends that agree -/

theorem conforme_refuse {x y : Erreur} (hx : x.Refus) (hy : y.Refus) :
    Conforme s id (.error x) (.error y) s' :=
  ⟨iff_of_true ⟨_, hx, rfl⟩ ⟨_, hy, rfl⟩, by rintro a ⟨⟩, by rintro a payment ⟨⟩⟩

/-- The rate 0 is announced, and the refund is a conflict. -/
theorem conforme_conflict {a : RefundPreviewShape} {m : String} (hzero : a.eligibleRate = 0) :
    Conforme s id (.ok a) (.error (.conflict m)) s' := by
  refine ⟨iff_of_false ?_ ?_, ?_, ?_⟩
  · rintro ⟨x, -, ⟨⟩⟩
  · rintro ⟨x, hx, ⟨⟩⟩
    exact hx
  · rintro _ ⟨⟩
    refine iff_of_false ?_ (not_lt.mpr (le_of_eq hzero))
    rintro ⟨payment, ⟨⟩⟩
  · rintro _ payment ⟨⟩ ⟨⟩

/-- A positive rate is announced, and its amount is refunded. -/
theorem conforme_refunded {a : RefundPreviewShape} {payment : PaymentShape} {p p' : Payment}
    (hpos : 0 < a.eligibleRate) (hpayment : payment.refundedAmount = some a.refundableAmount)
    (hp' : s'.payments[id]? = some p') (hstatus : p'.status = .refunded)
    (hamount : p'.refundedAmount = some a.refundableAmount) (hp : s.payments[id]? = some p)
    (hrefunds : s'.refunds = s.refunds ++ [(p.providerReference, a.refundableAmount)]) :
    Conforme s id (.ok a) (.ok payment) s' := by
  refine ⟨iff_of_false ?_ ?_, ?_, ?_⟩
  · rintro ⟨x, -, ⟨⟩⟩
  · rintro ⟨x, -, ⟨⟩⟩
  · rintro _ ⟨⟩
    exact iff_of_true ⟨_, rfl⟩ hpos
  · rintro _ _ ⟨⟩ ⟨⟩
    exact ⟨hpayment, ⟨p', hp', hstatus, hamount⟩, p, hp, hrefunds⟩

/-- **The preview tells the truth.** At any instant of any state that the requests lead to, the refund
succeeds exactly if the rate that is announced is positive, for the amount that is announced; and the
preview is refused exactly if the refund is. -/
theorem preview_truth (hs : Atteint s) (requesterId : UserId) (requesterRole : Role) (id : PaymentId)
    (t : Time) {apercu : Except Erreur RefundPreviewShape} {s₁ : Db}
    (ha : (enLigne t).Runs (PaymentsService.previewRefund requesterId requesterRole id) s apercu s₁)
    {r : Except Erreur PaymentShape}
    (hr : (enLigne t).Runs (PaymentsService.requestRefund requesterId requesterRole id) s r s') :
    Conforme s id apercu r s' := by
  cases previewRefund_ends ha with
  | orphan hb h => exact absurd h (sound_withPackage hs.sound hb)
  | refused hx hno =>
    have hunseen : ∀ {p}, s.payments[id]? = some p → s.mayRead requesterId requesterRole p ≠ true := by
      intro p hp
      simp [hno p hp]
    cases requestRefund_ends hr with
    | refused hy _ => exact conforme_refuse hx hy
    | orphan hb h => exact absurd h (sound_withPackage hs.sound hb)
    | notSucceeded hp hread _ => exact absurd hread (hunseen hp)
    | notRefundable hv => exact absurd hv.lecture (hunseen hv.payment)
    | declined hv => exact absurd hv.lecture (hunseen hv.payment)
    | refunded hv => exact absurd hv.lecture (hunseen hv.payment)
  | @announced p b pkg e a hv he hrate hamount =>
    cases requestRefund_ends hr with
    | refused hx hno =>
      exact absurd hv.lecture (by simp [hno p hv.payment])
    | orphan hb h => exact absurd h (sound_withPackage hs.sound hb)
    | notSucceeded hp hread hst =>
      obtain rfl := Option.some.inj (hp.symm.trans hv.payment)
      exact conforme_conflict (hrate.trans (if_neg hst))
    | notRefundable hv' hst he' hzero =>
      obtain ⟨rfl, rfl, rfl⟩ := hv.unique hv'
      rw [if_pos hst, he.1, ← he'.1, hzero] at hrate
      exact conforme_conflict hrate
    | declined _ he' h =>
      rw [he'.2] at h
      cases h
    | @refunded _ _ _ _ e' rate _ hv' hst he' hrate' hzero hcore =>
      obtain ⟨rfl, rfl, rfl⟩ := hv.unique hv'
      rw [he'.1, ← he.1] at hrate'
      rw [if_pos hst, hrate'] at hrate
      rw [hrate] at hamount
      have hpos : 0 < a.eligibleRate := by
        rw [hrate, ← hrate']
        exact lt_of_le_of_ne (hv.rate_nonneg hs.sound _) (by rw [hrate']; exact hzero.symm)
      have hpayments : s'.payments[id]? = _ :=
        (congrArg (fun x : Db => x.payments[id]?) hcore).trans
          ((Table.get_set hv.payment _ id).trans (if_pos rfl))
      have hrefunds := congrArg Db.refunds hcore
      rw [← hamount] at hpayments hrefunds
      exact conforme_refunded hpos (congrArg some hamount.symm) hpayments rfl rfl hv.payment hrefunds

end State

/-- A payment of 100 has succeeded for a confirmed booking, which gets a half back thirty days before the
departure. -/
private def acquitte : Db :=
  { Db.exemple with
    bookings := [{ Booking.exemple with
      status := .confirmed
      refundPolicySnapshot := some (tiersJson [⟨0, 30, 1 / 2⟩]) }]
    payments := [{
      bookingId := 0, amount := 100, installmentNumber := 1, method := .card, status := .succeeded
      providerReference := "ref", createdAt := 0 }] }

private theorem acquitte_atteint : Atteint acquitte := by
  refine atteint_of_rows rfl fun b hb => ?_
  obtain rfl := List.mem_singleton.mp hb
  exact ⟨fige_singleton 0 30 (by decide +kernel), by decide⟩

/-- Thirty days before the departure the pilgrim gets the half that was announced. -/
theorem preview_truth_moitie : ∃ apercu s₁ payment s',
    (enLigne (-30 * jourMs)).Runs (PaymentsService.previewRefund 0 .pilgrim 0) acquitte (.ok apercu) s₁ ∧
    (enLigne (-30 * jourMs)).Runs (PaymentsService.requestRefund 0 .pilgrim 0) acquitte (.ok payment) s' ∧
    Conforme acquitte 0 (.ok apercu) (.ok payment) s' := by
  have ha := Backend.eval_runs_ok (B := enLigne (-30 * jourMs)) (e := ⟨{ now := -30 * jourMs }, rfl, rfl⟩)
    (p := PaymentsService.previewRefund 0 .pilgrim 0) (s := acquitte) (by decide +kernel)
  have hr := Backend.eval_runs_ok (B := enLigne (-30 * jourMs)) (e := ⟨{ now := -30 * jourMs }, rfl, rfl⟩)
    (p := PaymentsService.requestRefund 0 .pilgrim 0) (s := acquitte) (by decide +kernel)
  exact ⟨_, _, _, _, ha, hr, preview_truth acquitte_atteint 0 .pilgrim 0 (-30 * jourMs) ha hr⟩

end OumraHajj
