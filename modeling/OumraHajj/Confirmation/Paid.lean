import OumraHajj.Confirmation.Terminal
import OumraHajj.Spec.Documents
import OumraHajj.Spec.Payments

/-!
# A booking is paid when it is confirmed

The `PAYMENT` step is done when a callback finds the package paid, and the confirmation comes later,
from the steps alone. In between a refund, or a callback that is not a success, can take a payment
back without reopening the step (`Db.Unpays`). In a run without such a request, every booking that
becomes `CONFIRMED` is `Db.Covered` at that moment: `PaidUp` is the invariant.
-/

namespace OumraHajj

open Async

/-- A booking that is not confirmed yet and whose `PAYMENT` step is done is paid. -/
def PaidUp (s : Db) : Prop :=
  ∀ id b, s.bookings[id]? = some b → b.status ≠ .confirmed →
    (b.steps.get .payment).status = .done → s.Covered id

/-- A booking that becomes `CONFIRMED` from `s` to `s'` is paid in `s'`. -/
def ConfirmsPaid (s s' : Db) : Prop :=
  ∀ id, s.statusOf id ≠ some .confirmed → s'.statusOf id = some .confirmed → s'.Covered id

namespace Db

/-- The payment that a request takes out of `SUCCEEDED`, when it is there: a callback with another
status, or a refund, which a booking that is not confirmed gets only while it is
`PENDING_PAYMENT`. -/
def takenBack (s : Db) : Request → Option (PaymentId × Payment)
  | .webhook dto =>
    if dto.status = .succeeded then none
    else s.payments.findFirst (·.providerReference = dto.providerReference)
  | .requestRefund requesterId requesterRole id =>
    (s.payments[id]?).bind fun p =>
      if s.mayRead requesterId requesterRole p ∧ s.statusOf p.bookingId = some .pendingPayment then
        some (id, p)
      else none
  | _ => none

/-- The request takes back a payment of a booking that is not confirmed yet and whose `PAYMENT` step
is done, and what is left is below the price. -/
def Unpays (s : Db) (q : Request) : Prop :=
  ∃ id p b pkg, s.takenBack q = some (id, p) ∧ p.status = .succeeded ∧
    s.bookings[p.bookingId]? = some b ∧ b.status ≠ .confirmed ∧
    (b.steps.get .payment).status = .done ∧ s.packages[b.packageId]? = some pkg ∧
    s.paidFor p.bookingId - p.amount < pkg.price

end Db

instance (s : Db) (id : BookingId) : Decidable (s.Covered id) :=
  match hb : s.bookings[id]? with
  | none => isFalse fun ⟨_, _, hb', _⟩ => by rw [hb] at hb'; cases hb'
  | some b =>
    match hk : s.packages[b.packageId]? with
    | none => isFalse fun ⟨_, _, hb', hk', _⟩ => by
        rw [hb, Option.some.injEq] at hb'
        rw [← hb', hk] at hk'
        cases hk'
    | some pkg => decidable_of_iff (pkg.price ≤ s.paidFor id) (by simp [Db.Covered, hb, hk])

instance (s s' : Db) : Decidable (ConfirmsPaid s s') :=
  decidable_of_iff (∀ id ∈ List.range s'.bookings.length,
    s.statusOf id ≠ some .confirmed → s'.statusOf id = some .confirmed → s'.Covered id) (by
    refine ⟨fun h id hno hyes => h id ?_ hno hyes, fun h id _ => h id⟩
    obtain ⟨b, hb, -⟩ := Db.statusOf_eq_some.mp hyes
    exact List.mem_range.mpr (Table.lt_of_get hb))

/-- The requests between a booking's creation and its confirmation; the agency leaves the `PAYMENT`
step alone. -/
def Request.IsPaying : Request → Prop
  | .createBooking _ _ => True
  | .initiatePayment _ _ => True
  | .webhook _ => True
  | .requestRefund _ _ _ => True
  | .uploadDocument _ _ _ _ => True
  | .validateDocument _ _ => True
  | .rejectDocument _ _ _ => True
  | .updateStep _ _ key _ => key ≠ .payment
  | _ => False

/-! ## The sums -/

section Sums

variable {s : Db} {id : PaymentId} {p p' : Payment}

/-- A payment is written, and the booking keeps what it needs. -/
theorem covered_putPayment (hp : s.payments[id]? = some p) (hb : p'.bookingId = p.bookingId)
    (ha : p'.amount = p.amount) (hpos : 0 ≤ p.amount) {bid : BookingId} (hc : s.Covered bid)
    (hkeep : p.bookingId = bid → p.status = .succeeded → p'.status ≠ .succeeded →
      ∀ b pkg, s.bookings[bid]? = some b → s.packages[b.packageId]? = some pkg →
        pkg.price ≤ s.paidFor bid - p.amount) :
    (s.putPayment id p').Covered bid := by
  obtain ⟨b, pkg, hbk, hpk, hle⟩ := hc
  refine ⟨b, pkg, hbk, hpk, ?_⟩
  rw [paidFor_putPayment hp hb ha]
  by_cases hbid : p.bookingId = bid
  · rw [if_pos hbid]
    by_cases hs : p.status = .succeeded
    · by_cases hs' : p'.status = .succeeded
      · simpa [hs, hs'] using hle
      · have := hkeep hbid hs hs' b pkg hbk hpk
        simp only [hs, hs', if_true, if_false]
        linarith
    · by_cases hs' : p'.status = .succeeded <;> simp only [hs, hs', if_true, if_false] <;> linarith
  · simpa [hbid] using hle

end Sums

/-! ## The steps of a booking -/

namespace Db

variable {s s' : Db} {id : BookingId} {key : DossierStepKey} {status : DossierStepStatus}

/-- The update of a step leaves what is paid. -/
theorem Stepped.covered_iff (h : s.Stepped id key status s') (bid : BookingId) :
    s'.Covered bid ↔ s.Covered bid := by
  have hpaid : s'.paidFor bid = s.paidFor bid := by rw [paidFor, h.payments_eq, paidFor]
  have hrow : ∀ (P : PackageId → Prop),
      (∃ b, s'.bookings[bid]? = some b ∧ P b.packageId) ↔
        ∃ b, s.bookings[bid]? = some b ∧ P b.packageId := by
    intro P
    rcases h.bookings_eq with ⟨-, hb⟩ | ⟨b, now, hb, hb'⟩
    · rw [hb]
    · rw [hb']
      simp only [Table.get_set hb]
      by_cases hid : id = bid
      · subst hid
        simp [hb]
      · simp only [hid, if_false]
  have := hrow fun i => ∃ pkg, s.packages[i]? = some pkg ∧ pkg.price ≤ s.paidFor bid
  simpa only [Covered, h.packages_eq, hpaid, exists_and_left] using this

/-- The update of a step keeps `PaidUp` and confirms a paid booking only, if the `PAYMENT` step is
not completed by it or the booking is paid. -/
theorem Stepped.paidUp (h : s.Stepped id key status s') (hp : PaidUp s)
    (hkey : key = .payment → s.Covered id) : PaidUp s' ∧ ConfirmsPaid s s' := by
  rcases h.bookings_eq with ⟨-, hb⟩ | ⟨b, now, hb, hb'⟩
  · refine ⟨fun bid b hbk hst hd => (h.covered_iff bid).mpr (hp bid b (hb ▸ hbk) hst hd),
      fun bid hno hyes => ?_⟩
    rw [statusOf, hb] at hyes
    exact absurd hyes hno
  · have hpaid : b.status ≠ .confirmed →
        ((b.withStep key status now).steps.get .payment).status = .done → s.Covered id := by
      intro hst hd
      by_cases hk : key = .payment
      · exact hkey hk
      · rw [Booking.withStep, BookingSteps.get_set, if_neg hk] at hd
        exact hp id b hb hst hd
    constructor
    · intro bid b₁ hbk hst hd
      refine (h.covered_iff bid).mpr ?_
      rw [hb', Table.get_set hb] at hbk
      by_cases hid : id = bid
      · subst hid
        rw [if_pos rfl, Option.some.injEq] at hbk
        subst hbk
        refine hpaid (fun hc => hst ?_) hd
        rw [Booking.status_after_step, hc]
        exact ite_self _
      · rw [if_neg hid] at hbk
        exact hp bid b₁ hbk hst hd
    · intro bid hno hyes
      refine (h.covered_iff bid).mpr ?_
      by_cases hid : id = bid
      · subst hid
        have hnot : b.status ≠ .confirmed := fun hc => hno (statusOf_eq_some.mpr ⟨b, hb, hc⟩)
        rw [h.statusOf_self hb, Option.some.injEq] at hyes
        by_cases hd : (b.withStep key status 0).allDone = true
        · refine hpaid hnot ?_
          rw [← Booking.allDone_withStep b key status now] at hd
          exact Booking.allDone_iff.mp hd .payment
        · rw [if_neg hd] at hyes
          exact absurd hyes hnot
      · rw [h.statusOf_other hid] at hyes
        exact absurd hyes hno

end Db

/-- A payment is written. Where it takes a payment back, the booking stays paid without it. -/
theorem PaidUp.putPayment {s : Db} {id : PaymentId} {p p' : Payment} (h : PaidUp s)
    (hp : s.payments[id]? = some p) (hb : p'.bookingId = p.bookingId) (ha : p'.amount = p.amount)
    (hpos : 0 < p.amount)
    (hkeep : p.status = .succeeded → p'.status ≠ .succeeded → ∀ b pkg,
      s.bookings[p.bookingId]? = some b → b.status ≠ .confirmed →
      (b.steps.get .payment).status = .done → s.packages[b.packageId]? = some pkg →
      pkg.price ≤ s.paidFor p.bookingId - p.amount) :
    PaidUp (s.putPayment id p') := by
  intro bid b hbk hst hd
  refine covered_putPayment hp hb ha hpos.le (h bid b hbk hst hd) ?_
  rintro rfl hs hs' b' pkg hb' hpk
  have hbb : b' = b := Option.some.inj (hb'.symm.trans hbk)
  subst hbb
  exact hkeep hs hs' b' pkg hbk hst hd hpk

theorem confirmsPaid_of_bookings_eq {s s' : Db} (h : s'.bookings = s.bookings) :
    ConfirmsPaid s s' := by
  intro id hno hyes
  rw [Db.statusOf, h] at hyes
  exact absurd hyes hno

theorem ConfirmsPaid.of_bookings_eq {s s₁ s' : Db} (h : s₁.bookings = s.bookings)
    (hc : ConfirmsPaid s₁ s') : ConfirmsPaid s s' := fun id hno hyes =>
  hc id (by rwa [Db.statusOf, h]) hyes

theorem PaidUp.congr {s s' : Db} (hb : s'.bookings = s.bookings) (hk : s'.packages = s.packages)
    (hp : s'.payments = s.payments) (h : PaidUp s) : PaidUp s' := fun id b hbk hst hd =>
  (Db.covered_congr hb hk hp id).mpr (h id b (hb ▸ hbk) hst hd)

/-- The invariant of the runs: the amounts are those that the requests admit. -/
structure PaidInv (s : Db) : Prop where
  paidUp : PaidUp s
  amount_pos : ∀ (id : PaymentId) (p : Payment), s.payments[id]? = some p → 0 < p.amount

namespace PaidInv

variable {s s' : Db}

theorem congr (hb : s'.bookings = s.bookings) (hk : s'.packages = s.packages)
    (hp : s'.payments = s.payments) (h : PaidInv s) : PaidInv s' :=
  ⟨h.paidUp.congr hb hk hp, fun id p hid => h.amount_pos id p (hp ▸ hid)⟩

/-- A payment is written in place, and its amount stays. -/
theorem putPayment {id : PaymentId} {p p' : Payment} (h : PaidInv s)
    (hp : s.payments[id]? = some p) (hb : p'.bookingId = p.bookingId) (ha : p'.amount = p.amount)
    (hkeep : p.status = .succeeded → p'.status ≠ .succeeded → ∀ b pkg,
      s.bookings[p.bookingId]? = some b → b.status ≠ .confirmed →
      (b.steps.get .payment).status = .done → s.packages[b.packageId]? = some pkg →
      pkg.price ≤ s.paidFor p.bookingId - p.amount) :
    PaidInv (s.putPayment id p') := by
  refine ⟨h.paidUp.putPayment hp hb ha (h.amount_pos id p hp) hkeep, fun id' q hq => ?_⟩
  rw [Db.putPayment, Table.get_set hp] at hq
  split at hq
  · cases hq
    rw [ha]
    exact h.amount_pos id p hp
  · exact h.amount_pos id' q hq

theorem stepped {id : BookingId} {key : DossierStepKey} {status : DossierStepStatus}
    (h : PaidInv s) (hs : s.Stepped id key status s') (hkey : key = .payment → s.Covered id) :
    PaidInv s' ∧ ConfirmsPaid s s' := by
  obtain ⟨h₁, h₂⟩ := hs.paidUp h.paidUp hkey
  exact ⟨⟨h₁, fun i p hp => h.amount_pos i p (hs.payments_eq ▸ hp)⟩, h₂⟩

theorem initiate {p : Payment} (h : PaidInv s) (hst : p.status = .pending) (hpos : 0 < p.amount) :
    PaidInv { s with payments := s.payments ++ [p] } := by
  constructor
  · intro id b hb hst' hd
    obtain ⟨b', pkg, hb', hpk, hle⟩ := h.paidUp id b hb hst' hd
    exact ⟨b', pkg, hb', hpk, by rw [paidFor_append s p hst]; exact hle⟩
  · intro id q hq
    rw [show ({ s with payments := s.payments ++ [p] } : Db).payments[id]? =
      (s.payments ++ [p])[id]? from rfl, Table.get_append] at hq
    split at hq
    · cases hq
      exact hpos
    · exact h.amount_pos id q hq

/-- A package is written, and its price stays. -/
theorem putPackage {id : PackageId} {x y : Package} (hx : s.packages[id]? = some x)
    (hy : y.price = x.price) (h : PaidInv s) : PaidInv (s.putPackage id y) := by
  refine ⟨fun i b hb hst hd => ?_, h.amount_pos⟩
  obtain ⟨b', pkg, hb', hpk, hle⟩ := h.paidUp i b hb hst hd
  by_cases hid : id = b'.packageId
  · subst hid
    have hxp : x = pkg := Option.some.inj (hx.symm.trans hpk)
    refine ⟨b', y, hb', by rw [Db.putPackage, Table.get_set hx, if_pos rfl], ?_⟩
    rw [hy, hxp]
    exact hle
  · exact ⟨b', pkg, hb', by rw [Db.putPackage, Table.get_set hx, if_neg hid, hpk], hle⟩

/-- A booking is created with its steps pending. -/
theorem append {b : Booking} (hsteps : ∀ key, (b.steps.get key).status = .pending)
    (hst : b.status = .pendingPayment) (h : PaidInv s) :
    PaidInv { s with bookings := s.bookings ++ [b] } ∧
      ConfirmsPaid s { s with bookings := s.bookings ++ [b] } := by
  have hget : ∀ i : Nat, (s.bookings ++ [b])[i]? = if i = s.bookings.length then some b else
      s.bookings[i]? := Table.get_append s.bookings b
  constructor
  · refine ⟨fun i b' hb' hst' hd => ?_, h.amount_pos⟩
    replace hb' := (hget i).symm.trans hb'
    split at hb'
    · cases hb'
      rw [hsteps] at hd
      cases hd
    · obtain ⟨b₁, pkg, hb₁, hpk, hle⟩ := h.paidUp i b' hb' hst' hd
      exact ⟨b₁, pkg, Table.get_append_of_get hb₁ b, hpk, hle⟩
  · intro i hno hyes
    rw [Db.statusOf] at hyes
    replace hyes := (congrArg (Option.map (·.status)) (hget i)).symm.trans hyes
    split at hyes
    · simp [hst] at hyes
    · exact absurd hyes hno

/-- The callback of a payment writes it, and completes the `PAYMENT` step of a paid booking. -/
theorem webhook {dto : PaymentWebhookDto} {r : Except Erreur PaymentShape} (h : PaidInv s)
    (hno : ¬ s.Unpays (.webhook dto)) (hr : prisma.Runs (PaymentsService.handleWebhook dto) s r s') :
    PaidInv s' ∧ ConfirmsPaid s s' := by
  rcases handleWebhook_runs hr with ⟨-, rfl⟩ | ⟨id, p, now, hf, hs⟩
  · exact ⟨h, confirmsPaid_of_bookings_eq rfl⟩
  have hp := (Table.findFirst_some hf).1
  generalize hw : (PaymentsService.webhookUpdate id dto.status).apply now p = p' at hs
  have hstatus : p'.status = dto.status := by
    rw [← hw, PaymentsService.webhookUpdate]
    split <;> rfl
  have hbk : p'.bookingId = p.bookingId := by rw [← hw]; rfl
  have ham : p'.amount = p.amount := by rw [← hw]; rfl
  have h₁ : PaidInv (s.putPayment id p') := by
    refine h.putPayment hp hbk ham fun hsucc hnot b pkg hb hst hd hpk => ?_
    by_contra hlt
    refine hno ⟨id, p, b, pkg, ?_, hsucc, hb, hst, hd, hpk, not_le.mp hlt⟩
    rw [Db.takenBack, if_neg (hstatus ▸ hnot), hf]
  rcases hs with ⟨-, hc, hs⟩ | ⟨-, rfl⟩
  · obtain ⟨h₂, hconf⟩ := h₁.stepped hs fun _ => hc
    exact ⟨h₂, hconf.of_bookings_eq rfl⟩
  · exact ⟨h₁, confirmsPaid_of_bookings_eq rfl⟩

/-- A refund writes its payment only. -/
theorem requestRefund {requesterId : UserId} {requesterRole : Role} {id : PaymentId}
    {r : Except Erreur PaymentShape} (h : PaidInv s)
    (hno : ¬ s.Unpays (.requestRefund requesterId requesterRole id))
    (hr : prisma.Runs (PaymentsService.requestRefund requesterId requesterRole id) s r s') :
    PaidInv s' ∧ ConfirmsPaid s s' := by
  rcases requestRefund_runs hr with rfl | ⟨p, b, rate, now, hp, hread, -, hb, hst, hcore⟩
  · exact ⟨h, confirmsPaid_of_bookings_eq rfl⟩
  generalize hw : (PaymentsService.refundUpdate (arrondi (p.amount * rate))).apply now p = p'
    at hcore
  have hsame : p'.bookingId = p.bookingId ∧ p'.amount = p.amount := by rw [← hw]; exact ⟨rfl, rfl⟩
  have hbk := bookings_of_core hcore
  have hpk := packages_of_core hcore
  have hpay := payments_of_core hcore
  refine ⟨?_, confirmsPaid_of_bookings_eq hbk⟩
  refine PaidInv.congr (s := s.putPayment id p') hbk hpk hpay ?_
  refine h.putPayment hp hsame.1 hsame.2 fun hsucc _ b' pkg hb' hst' hd hpk => ?_
  by_contra hlt
  have hbb : b' = b := Option.some.inj (hb'.symm.trans hb)
  subst hbb
  refine hno ⟨id, p, b', pkg, ?_, hsucc, hb, hst', hd, hpk, not_le.mp hlt⟩
  have hpend : s.statusOf p.bookingId = some .pendingPayment := by
    rcases hst with ⟨hst, -⟩ | hst
    · exact Db.statusOf_eq_some.mpr ⟨b', hb, hst⟩
    · exact absurd hst hst'
  rw [Db.takenBack, hp, Option.bind_some, if_pos ⟨hread, hpend⟩]

/-- **Step.** A request that takes no needed payment back keeps the invariant and confirms paid
bookings only. -/
theorem request {q : Request} (hq : q.IsPaying) {r : Except Erreur Unit} (h : PaidInv s)
    (hno : ¬ s.Unpays q) (hr : prisma.Runs (handler q) s r s') :
    PaidInv s' ∧ ConfirmsPaid s s' := by
  have same : SameDossiers s s' → PaidInv s' ∧ ConfirmsPaid s s' := fun hs =>
    ⟨h.congr hs.bookings hs.packages hs.payments, confirmsPaid_of_bookings_eq hs.bookings⟩
  cases q with
  | createBooking pilgrimId id =>
    obtain ⟨_, hr⟩ := Backend.runs_void hr
    rcases create_runs hr with rfl | ⟨x, hx, rfl⟩ | ⟨x, b, hx, -, -, -, hst, hsteps, rfl⟩
    · exact ⟨h, confirmsPaid_of_bookings_eq rfl⟩
    · exact ⟨h.putPackage hx rfl, confirmsPaid_of_bookings_eq rfl⟩
    · obtain ⟨h₁, h₂⟩ := (h.putPackage hx (y := x.reserved) rfl).append hsteps hst
      exact ⟨h₁, h₂.of_bookings_eq rfl⟩
  | initiatePayment pilgrimId dto =>
    obtain ⟨_, hr⟩ := Backend.runs_void hr
    rcases initiate_runs hr with rfl | ⟨p, -, ham, hst, -, -, -, rfl⟩
    · exact ⟨h, confirmsPaid_of_bookings_eq rfl⟩
    · exact ⟨h.initiate hst (ham ▸ dto.amount_pos), confirmsPaid_of_bookings_eq rfl⟩
  | webhook dto =>
    obtain ⟨_, hr⟩ := Backend.runs_void hr
    exact h.webhook hno hr
  | requestRefund requesterId requesterRole id =>
    obtain ⟨_, hr⟩ := Backend.runs_void hr
    exact h.requestRefund hno hr
  | uploadDocument pilgrimId bookingId type expiresAt =>
    exact same (same_of_uses (uses_upload _ _ _ _).void hr)
  | rejectDocument ownerId documentId reason =>
    exact same (same_of_uses (uses_reject _ _ _).void hr)
  | validateDocument ownerId documentId =>
    obtain ⟨_, hr⟩ := Backend.runs_void hr
    rcases validate_runs hr with hs | ⟨s₁, id, hs, hst⟩
    · exact same hs
    · obtain ⟨h₁, h₂⟩ := (h.congr hs.bookings hs.packages hs.payments).stepped hst nofun
      exact ⟨h₁, h₂.of_bookings_eq hs.bookings⟩
  | updateStep ownerId id key status =>
    have hs := stepRequest_runs (q := .updateStep ownerId id key status) trivial hr
    rw [Db.stepOf] at hs
    by_cases ho : s.owns ownerId id = true
    · rw [if_pos ho] at hs
      exact h.stepped hs fun hk => absurd hk hq
    · rw [if_neg ho] at hs
      rw [hs]
      exact ⟨h, confirmsPaid_of_bookings_eq rfl⟩
  | _ => exact hq.elim

end PaidInv

/-- **Paid when confirmed.** Runs start before any `PAYMENT` step is done. As long as no request
takes back a payment that a booking still needs, every booking that becomes `CONFIRMED` is paid. -/
theorem confirmed_paid {s : Db}
    (hsteps : ∀ b ∈ s.bookings, (b.steps.get .payment).status ≠ .done)
    (hamt : ∀ p ∈ s.payments, 0 < p.amount) {tr : Trace Request Db} (hr : RunFrom s tr)
    (hq : ∀ x ∈ tr, x.1.IsPaying) (hC : Trace.Steps (fun s q _ => ¬ s.Unpays q) s tr) :
    Trace.Steps (fun s _ s' => ConfirmsPaid s s') s tr := by
  have h₀ : PaidInv s :=
    ⟨fun id b hb _ hd => absurd hd (hsteps b (List.mem_of_getElem? hb)),
      fun id p hp => hamt p (List.mem_of_getElem? hp)⟩
  exact (hr.steps (fun s q r s' h ha hno hr => h.request ha hno hr) hq h₀ hC).1

/-- The callback of the only payment, `REF`, for the price of the package. -/
private def encaissement : List Request :=
  [.createBooking 0 0, .initiatePayment 0 .exemple, .webhook ⟨"REF", .succeeded⟩]

private def environnement : Env := { reference := some "REF" }

private def autresEtapes : List Request :=
  [.updateStep 1 0 .visa .done, .updateStep 1 0 .flight .done, .updateStep 1 0 .vaccination .done,
    .updateStep 1 0 .documents .done]

theorem confirmed_paid_exemple :
    Trace.Steps (fun s _ s' => ConfirmsPaid s s') .exemple
      (runAll environnement .exemple (encaissement ++ autresEtapes)) := by
  refine confirmed_paid (by simp [Db.exemple]) (by simp [Db.exemple])
    (Backend.evalAll_run _ _ _) ?_ ?_
  · simp [runAll, Backend.evalAll, encaissement, autresEtapes, Request.IsPaying]
  · simp [runAll, Backend.evalAll, encaissement, autresEtapes, Trace.Steps, Db.Unpays, Db.takenBack]

/-- The payment is refunded before the other steps are completed: the booking is `CONFIRMED` and
nothing is paid. -/
theorem confirmed_unpaid :
    ¬ ∀ s tr, (∀ b ∈ s.bookings, (b.steps.get .payment).status ≠ .done) →
      (∀ p ∈ s.payments, 0 < p.amount) → RunFrom s tr → (∀ x ∈ tr, x.1.IsPaying) →
      Trace.Steps (fun s _ s' => ConfirmsPaid s s') s tr := by
  intro h
  have := h .exemple
    (runAll environnement .exemple (encaissement ++ [.requestRefund 0 .pilgrim 0] ++ autresEtapes))
    (by simp [Db.exemple]) (by simp [Db.exemple]) (Backend.evalAll_run _ _ _)
    (by simp [runAll, Backend.evalAll, encaissement, autresEtapes, Request.IsPaying])
  revert this
  decide +kernel

end OumraHajj
