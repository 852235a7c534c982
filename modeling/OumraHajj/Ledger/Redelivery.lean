import OumraHajj.Spec.Webhook

/-!
# Callbacks delivered again

The provider delivers the callbacks of a payment at least once. `Redelivers [] ds ds'`: the sequence
`ds'` is `ds` with copies of callbacks that were delivered before. Each delivery has its own
environment, so its own times.

After a sequence of callbacks, the payment has the status of the last one and the dates of the last
success (`Payment.after`), and the dossier the time of the last success (`Db.dossierAfter`).
`redelivery_iff` follows: the copies are harmless exactly when they change neither the last status
nor the times of the last success.
-/

namespace OumraHajj

open Async

/-- A callback of a payment, with the environment of each statement of its handler. -/
structure Delivery where
  status : PaymentStatus
  env : Stmt → Env

/-- The handler of a callback runs to its end. -/
def deliver (reference : String) (s : Db) (d : Delivery) : Db :=
  (prisma.evalBy d.env (PaymentsService.handleWebhook ⟨reference, d.status⟩) s).2

/-- The callbacks are delivered one after the other. -/
def deliverAll (reference : String) (s : Db) (ds : List Delivery) : Db :=
  ds.foldl (deliver reference) s

/-- Copies of callbacks delivered before, with a status in `seen` or in the first part of the
sequence, are inserted (module doc). -/
inductive Redelivers : List PaymentStatus → List Delivery → List Delivery → Prop
  | nil (seen : List PaymentStatus) : Redelivers seen [] []
  | keep {seen : List PaymentStatus} {ds ds' : List Delivery} (d d' : Delivery) :
    d'.status = d.status → Redelivers (d.status :: seen) ds ds' → Redelivers seen (d :: ds) (d' :: ds')
  | copy {seen : List PaymentStatus} {ds ds' : List Delivery} (d : Delivery) :
    d.status ∈ seen → Redelivers seen ds ds' → Redelivers seen ds (d :: ds')

/-- The status of the last callback. -/
def lastStatus (ds : List Delivery) : Option PaymentStatus := ds.getLast?.map (·.status)

/-- The last callback `SUCCEEDED`. -/
def lastSuccess (ds : List Delivery) : Option Delivery :=
  (ds.filter (·.status = .succeeded)).getLast?

/-- The payment, the dossier of its booking and the set of notifications are the same. -/
structure SameOutcome (id : PaymentId) (bid : BookingId) (s₁ s₂ : Db) : Prop where
  payment : s₁.payments[id]? = s₂.payments[id]?
  booking : s₁.bookings[bid]? = s₂.bookings[bid]?
  notifications : ∀ n, n ∈ s₁.notifications ↔ n ∈ s₂.notifications

section Sequences

variable {ds ds' : List Delivery}

@[simp] theorem lastStatus_append (ds : List Delivery) (d : Delivery) :
    lastStatus (ds ++ [d]) = some d.status := by
  simp [lastStatus]

theorem lastSuccess_append (ds : List Delivery) (d : Delivery) :
    lastSuccess (ds ++ [d]) = if d.status = .succeeded then some d else lastSuccess ds := by
  unfold lastSuccess
  by_cases hd : d.status = .succeeded <;> simp [hd]

/-- The statuses delivered are the same. -/
theorem Redelivers.statuses {seen : List PaymentStatus} (h : Redelivers seen ds ds')
    (status : PaymentStatus) : status ∈ ds'.map (·.status) ∨ status ∈ seen ↔
      status ∈ ds.map (·.status) ∨ status ∈ seen := by
  induction h with
  | nil seen => exact Iff.rfl
  | keep d d' hd _ ih =>
    simp only [List.map_cons, List.mem_cons, hd] at ih ⊢
    tauto
  | copy d hd _ ih =>
    simp only [List.map_cons, List.mem_cons]
    constructor
    · rintro ((rfl | h) | h)
      · exact .inr hd
      · exact ih.mp (.inl h)
      · exact .inr h
    · intro h
      rcases ih.mpr h with h | h
      · exact .inl (.inr h)
      · exact .inr h

theorem lastStatus_isSome : (lastStatus ds).isSome ↔ ∃ status, status ∈ ds.map (·.status) := by
  unfold lastStatus
  rcases ds with _ | ⟨d, ds⟩
  · simp
  · simp

theorem lastSuccess_isSome : (lastSuccess ds).isSome ↔ .succeeded ∈ ds.map (·.status) := by
  unfold lastSuccess
  rw [List.getLast?_isSome]
  simp [List.filter_eq_nil_iff]

theorem Redelivers.isSome (h : Redelivers [] ds ds') :
    (lastStatus ds').isSome = (lastStatus ds).isSome ∧
      (lastSuccess ds').isSome = (lastSuccess ds).isSome := by
  have hmem : ∀ status, status ∈ ds'.map (·.status) ↔ status ∈ ds.map (·.status) := by
    intro status
    simpa only [List.not_mem_nil, or_false] using h.statuses status
  constructor
  · rw [Bool.eq_iff_iff, lastStatus_isSome, lastStatus_isSome]
    simp only [hmem]
  · rw [Bool.eq_iff_iff, lastSuccess_isSome, lastSuccess_isSome]
    exact hmem _

end Sequences

/-! ## The database after a sequence -/

/-- The payment after the callbacks. -/
def Payment.after (p : Payment) (id : PaymentId) (ds : List Delivery) : Payment :=
  { p with
    status := (lastStatus ds).getD p.status
    confirmedAt := ((lastSuccess ds).map fun d => writeTime d.env id .succeeded).or p.confirmedAt
    receiptRef := ((lastSuccess ds).map fun _ => receiptRefOf id).or p.receiptRef }

/-- Once the payment is `SUCCEEDED`, the payments of its booking cover the price. -/
def Db.Settles (s : Db) (id : PaymentId) (p : Payment) : Prop :=
  (s.putPayment id { p with status := .succeeded }).Covered p.bookingId

instance (s : Db) (id : PaymentId) (p : Payment) : Decidable (s.Settles id p) :=
  inferInstanceAs (Decidable (Db.Covered _ _))

/-- The booking after the callbacks. -/
def Db.dossierAfter (s : Db) (id : PaymentId) (p : Payment) (b : Booking) (ds : List Delivery) :
    Booking :=
  match lastSuccess ds with
  | some d =>
    if s.Settles id p then
      (b.withStep .payment .done (stepTime d.env p.bookingId .payment)).confirmIfDone
    else b
  | none => b

/-- What a success that covers the price sends. -/
def Booking.messages (b : Booking) : List Notification :=
  (b.withStep .payment .done 0).confirmations ++ [etapeValidee b.pilgrimId .payment]

/-- The database `s'` after the callbacks `ds`, delivered from `s`. -/
structure After (s : Db) (id : PaymentId) (p : Payment) (b : Booking) (ds : List Delivery) (s' : Db) :
    Prop where
  users : s'.users = s.users
  packages : s'.packages = s.packages
  payments : s'.payments = s.payments.set id (p.after id ds)
  bookings : s'.bookings = s.bookings.set p.bookingId (s.dossierAfter id p b ds)
  notifications : ∀ n, n ∈ s'.notifications ↔ n ∈ s.notifications ∨
    ((lastSuccess ds).isSome = true ∧ s.Settles id p ∧ n ∈ b.messages)

section Sequence

variable {s s' : Db} {reference : String} {id : PaymentId} {p : Payment} {b : Booking} {u : User}
  {ds ds' : List Delivery}

/-- A step that is completed again: what is left of the first time is the confirmation. -/
theorem withStep_confirmIfDone (b : Booking) (key : DossierStepKey) (t t' : Time) :
    (b.withStep key .done t).confirmIfDone.withStep key .done t' =
      { b.withStep key .done t' with status := (b.withStep key .done t').confirmIfDone.status } := by
  have hstatus : (b.withStep key .done t).confirmIfDone.status =
      (b.withStep key .done t').confirmIfDone.status := by
    rw [Booking.status_after_step, Booking.status_after_step]
  have hsteps := BookingSteps.set_set b.steps key { status := .done, updatedAt := t }
    { status := .done, updatedAt := t' }
  unfold Booking.withStep at hstatus ⊢
  rw [hstatus]
  unfold Booking.confirmIfDone
  simp only [hsteps]

theorem confirmIfDone_again (b : Booking) (key : DossierStepKey) (t t' : Time) :
    ((b.withStep key .done t).confirmIfDone.withStep key .done t').confirmIfDone =
      (b.withStep key .done t').confirmIfDone := by
  rw [withStep_confirmIfDone]
  exact Booking.confirmIfDone_confirmIfDone (b.withStep key .done t')

/-- The confirmation is sent once. -/
theorem confirmations_again (b : Booking) (key : DossierStepKey) (t t' : Time) :
    ((b.withStep key .done t).confirmIfDone.withStep key .done t').confirmations = [] := by
  rw [withStep_confirmIfDone]
  exact Booking.confirmations_confirmIfDone (b.withStep key .done t')

theorem dossierAfter_same (s : Db) (id : PaymentId) (p : Payment) (b : Booking)
    (ds : List Delivery) :
    (s.dossierAfter id p b ds).packageId = b.packageId ∧
      (s.dossierAfter id p b ds).pilgrimId = b.pilgrimId := by
  unfold Db.dossierAfter
  split
  · split <;> exact ⟨rfl, rfl⟩
  · exact ⟨rfl, rfl⟩

/-- The payment after one more callback. -/
theorem Payment.after_append (p : Payment) (id : PaymentId) (ds : List Delivery) (d : Delivery) :
    (PaymentsService.webhookUpdate id d.status).apply (writeTime d.env id d.status) (p.after id ds) =
      p.after id (ds ++ [d]) := by
  unfold Payment.after PaymentsService.webhookUpdate PaymentUpdate.apply
  rw [lastStatus_append, lastSuccess_append]
  by_cases hd : d.status = .succeeded
  · simp [hd]
  · simp [hd]

/-- A success covers the price after the callbacks exactly when it would have before. -/
theorem After.covered_iff (h : After s id p b ds s') (hp : s.payments[id]? = some p)
    (hb : s.bookings[p.bookingId]? = some b) (env : Stmt → Env) :
    (s'.written env id .succeeded (p.after id ds)).Covered p.bookingId ↔ s.Settles id p := by
  have hp' : s'.payments[id]? = some (p.after id ds) := by
    rw [h.payments, Table.get_set hp, if_pos rfl]
  have hb' : s'.bookings[p.bookingId]? = some (s.dossierAfter id p b ds) := by
    rw [h.bookings, Table.get_set hb, if_pos rfl]
  have hpaid : (s'.written env id .succeeded (p.after id ds)).paidFor p.bookingId =
      (s.putPayment id { p with status := .succeeded }).paidFor p.bookingId := by
    have hset : (s'.written env id .succeeded (p.after id ds)).payments =
        s.payments.set id ((PaymentsService.webhookUpdate id .succeeded).apply
          (writeTime env id .succeeded) (p.after id ds)) := by
      unfold Db.written Db.putPayment
      rw [h.payments, List.set_set]
    unfold Db.paidFor Db.putPayment
    rw [hset, Table.sumWhere_set hp, Table.sumWhere_set hp]
    rfl
  have hpkg := (dossierAfter_same s id p b ds).1
  unfold Db.Settles Db.Covered
  rw [hpaid]
  constructor
  · rintro ⟨b', pkg, hget, hpk, hle⟩
    obtain rfl : s.dossierAfter id p b ds = b' := Option.some.inj (hb'.symm.trans hget)
    rw [hpkg] at hpk
    exact ⟨b, pkg, hb, h.packages ▸ hpk, hle⟩
  · rintro ⟨b', pkg, hget, hpk, hle⟩
    obtain rfl : b = b' := Option.some.inj (hb.symm.trans hget)
    refine ⟨_, pkg, hb', ?_, hle⟩
    rw [hpkg]
    exact h.packages ▸ hpk

/-- The payment and nothing else changes. -/
theorem After.written (h : After s id p b ds s') (d : Delivery)
    (hno : d.status = .succeeded → ¬ s.Settles id p) :
    After s id p b (ds ++ [d]) (s'.written d.env id d.status (p.after id ds)) := by
  have hdossier : s.dossierAfter id p b (ds ++ [d]) = s.dossierAfter id p b ds := by
    unfold Db.dossierAfter
    rw [lastSuccess_append]
    by_cases hd : d.status = .succeeded
    · rw [if_pos hd]
      simp only [if_neg (hno hd)]
      split <;> rfl
    · rw [if_neg hd]
  refine ⟨h.users, h.packages, ?_, ?_, fun n => ?_⟩
  · unfold Db.written Db.putPayment
    rw [h.payments, List.set_set, Payment.after_append]
  · rw [hdossier]
    exact h.bookings
  · rw [lastSuccess_append]
    by_cases hd : d.status = .succeeded
    · have := h.notifications n
      simp only [hno hd, false_and, and_false] at this ⊢
      exact this
    · rw [if_neg hd]
      exact h.notifications n

/-- The dossier after one more success. -/
theorem dossierAfter_success (hset : s.Settles id p) {d : Delivery} (hd : d.status = .succeeded)
    (b : Booking) (ds : List Delivery) :
    ((s.dossierAfter id p b ds).withStep .payment .done
        (stepTime d.env p.bookingId .payment)).confirmIfDone =
      s.dossierAfter id p b (ds ++ [d]) := by
  unfold Db.dossierAfter
  rw [lastSuccess_append, if_pos hd]
  simp only [if_pos hset]
  split
  · exact confirmIfDone_again _ _ _ _
  · rfl

/-- The messages of one more success: the set of messages is the one of the first success. -/
theorem messages_success (hset : s.Settles id p) (b : Booking) (ds : List Delivery) (t : Time)
    (n : Notification) :
    ((lastSuccess ds).isSome = true ∧ n ∈ b.messages) ∨
        n ∈ ((s.dossierAfter id p b ds).withStep .payment .done t).confirmations ++
          [etapeValidee (s.dossierAfter id p b ds).pilgrimId .payment] ↔
      n ∈ b.messages := by
  rw [(dossierAfter_same s id p b ds).2]
  rcases hlast : lastSuccess ds with _ | d₀
  · have hb : s.dossierAfter id p b ds = b := by
      unfold Db.dossierAfter
      rw [hlast]
    rw [hb, Booking.confirmations_withStep]
    simp [Booking.messages]
  · have hb : s.dossierAfter id p b ds =
        (b.withStep .payment .done (stepTime d₀.env p.bookingId .payment)).confirmIfDone := by
      unfold Db.dossierAfter
      rw [hlast]
      exact if_pos hset
    rw [hb, confirmations_again]
    constructor
    · rintro (⟨-, h⟩ | h)
      · exact h
      · exact List.mem_append_right _ h
    · exact fun h => .inl ⟨rfl, h⟩

/-- The dossier goes on after the payment is written. -/
theorem After.settled (h : After s id p b ds s') (hset : s.Settles id p) {d : Delivery}
    (hd : d.status = .succeeded) {s₁ : Db}
    (hs : (s'.written d.env id d.status (p.after id ds)).Becomes
      ((s'.written d.env id d.status (p.after id ds)).putBooking p.bookingId
        ((s.dossierAfter id p b ds).withStep .payment .done
          (stepTime d.env p.bookingId .payment)).confirmIfDone)
      (((s.dossierAfter id p b ds).withStep .payment .done
          (stepTime d.env p.bookingId .payment)).confirmations ++
        [etapeValidee (s.dossierAfter id p b ds).pilgrimId .payment]) s₁) :
    After s id p b (ds ++ [d]) s₁ := by
  refine ⟨(users_of_core hs.core).trans h.users, (packages_of_core hs.core).trans h.packages,
    ?_, ?_, fun n => ?_⟩
  · refine (payments_of_core hs.core).trans ?_
    unfold Db.written Db.putBooking Db.putPayment
    rw [h.payments, List.set_set, Payment.after_append]
  · refine (bookings_of_core hs.core).trans ?_
    unfold Db.written Db.putBooking Db.putPayment
    rw [h.bookings, List.set_set, dossierAfter_success hset hd]
  · have hold := h.notifications n
    have hnew := messages_success hset b ds (stepTime d.env p.bookingId .payment) n
    have hw : (s'.written d.env id d.status (p.after id ds)).notifications = s'.notifications := rfl
    rw [hs.notifications, List.mem_append, hw, hold, lastSuccess_append, if_pos hd]
    simp only [hset, true_and, Option.isSome_some, or_assoc]
    exact or_congr_right hnew

/-- **Step.** One more callback. -/
theorem After.deliver (hf : s.payments.findFirst (·.providerReference = reference) = some (id, p))
    (hb : s.bookings[p.bookingId]? = some b) (hu : s.users[b.pilgrimId]? = some u)
    (h : After s id p b ds s') (d : Delivery) :
    After s id p b (ds ++ [d]) (deliver reference s' d) := by
  have hp := (Table.findFirst_some hf).1
  have hf' : s'.payments.findFirst (·.providerReference = reference) = some (id, p.after id ds) := by
    rw [h.payments]
    exact Table.findFirst_set hf (Table.findFirst_some hf).2
  unfold OumraHajj.deliver
  rw [handleWebhook_eval d.env hf']
  by_cases hd : d.status = .succeeded
  swap
  · rw [if_neg hd]
    exact h.written d fun hst => absurd hst hd
  rw [if_pos hd]
  by_cases hset : s.Settles id p
  swap
  · have hcov : ¬ (s'.written d.env id d.status (p.after id ds)).Covered p.bookingId := by
      rw [hd, h.covered_iff hp hb]
      exact hset
    have hkeep := reconcile_eval_of_not_covered d.env hcov
    have hw := h.written d fun _ => hset
    rwa [← hkeep] at hw
  have hcov : (s'.written d.env id d.status (p.after id ds)).Covered p.bookingId := by
    rw [hd, h.covered_iff hp hb]
    exact hset
  have hb' : (s'.written d.env id d.status (p.after id ds)).bookings[p.bookingId]? =
      some (s.dossierAfter id p b ds) := by
    refine (congrArg (·[p.bookingId]?) h.bookings).trans ?_
    rw [Table.get_set hb, if_pos rfl]
  have hu' : (s'.written d.env id d.status (p.after id ds)).users[(s.dossierAfter id p b ds).pilgrimId]?
      = some u := by
    rw [(dossierAfter_same s id p b ds).2]
    exact (congrArg (·[b.pilgrimId]?) h.users).trans hu
  obtain ⟨s₁, he, hs⟩ := reconcile_eval d.env hcov hb' hu'
  have hs₁ : (prisma.evalBy d.env (PaymentsService.reconcileBookingPaymentStep
    (p.after id ds).bookingId) (s'.written d.env id d.status (p.after id ds))).2 = s₁ :=
    congrArg Prod.snd he
  rw [hs₁]
  exact h.settled hset hd hs

/-- **Run.** -/
theorem after_deliverAll (hf : s.payments.findFirst (·.providerReference = reference) = some (id, p))
    (hb : s.bookings[p.bookingId]? = some b) (hu : s.users[b.pilgrimId]? = some u)
    (ds : List Delivery) : After s id p b ds (deliverAll reference s ds) := by
  induction ds using List.reverseRecOn with
  | nil =>
    refine ⟨rfl, rfl, ?_, ?_, fun n => ?_⟩
    · exact (Table.set_self (Table.findFirst_some hf).1).symm
    · exact (Table.set_self hb).symm
    · simp [lastSuccess, deliverAll]
  | append_singleton ds d ih =>
    have := ih.deliver hf hb hu d
    rwa [deliverAll, List.foldl_append]

end Sequence

/-! ## Two sequences -/

section TwoSequences

variable {s : Db} {reference : String} {id : PaymentId} {p : Payment} {b : Booking} {u : User}
  {ds ds' : List Delivery}

/-- The two successes are written at the same times: the payment, and the dossier when it is. -/
def SameTimes (s : Db) (id : PaymentId) (p : Payment) (d d' : Delivery) : Prop :=
  writeTime d'.env id .succeeded = writeTime d.env id .succeeded ∧
    (s.Settles id p →
      stepTime d'.env p.bookingId .payment = stepTime d.env p.bookingId .payment)

/-- The last status is the same, and the last success has the same times. -/
def SameLast (s : Db) (id : PaymentId) (p : Payment) (ds ds' : List Delivery) : Prop :=
  lastStatus ds' = lastStatus ds ∧
    ∀ d d', lastSuccess ds = some d → lastSuccess ds' = some d' → SameTimes s id p d d'

theorem sameLast_of_same (hr : Redelivers [] ds ds') (hpay : p.after id ds' = p.after id ds)
    (hdos : s.dossierAfter id p b ds' = s.dossierAfter id p b ds) : SameLast s id p ds ds' := by
  obtain ⟨hst, -⟩ := hr.isSome
  refine ⟨?_, fun d d' hd hd' => ⟨?_, fun hset => ?_⟩⟩
  · have hstatus : (lastStatus ds').getD p.status = (lastStatus ds).getD p.status :=
      congrArg Payment.status hpay
    rcases h₁ : lastStatus ds with _ | x <;> rcases h₂ : lastStatus ds' with _ | y
    · rfl
    · simp [h₁, h₂] at hst
    · simp [h₁, h₂] at hst
    · rw [h₁, h₂] at hstatus
      exact congrArg some hstatus
  · have hconf := congrArg Payment.confirmedAt hpay
    unfold Payment.after at hconf
    rw [hd, hd'] at hconf
    exact Option.some.inj hconf
  · unfold Db.dossierAfter at hdos
    rw [hd, hd'] at hdos
    simp only [if_pos hset] at hdos
    exact congrArg (fun b => (b.steps.get .payment).updatedAt) hdos

theorem same_of_sameLast (hr : Redelivers [] ds ds') (h : SameLast s id p ds ds') :
    p.after id ds' = p.after id ds ∧ s.dossierAfter id p b ds' = s.dossierAfter id p b ds := by
  obtain ⟨hst, htimes⟩ := h
  obtain ⟨-, hsome⟩ := hr.isSome
  unfold Payment.after Db.dossierAfter
  rw [hst]
  rcases hd : lastSuccess ds with _ | d <;> rcases hd' : lastSuccess ds' with _ | d'
  · exact ⟨rfl, rfl⟩
  · simp [hd, hd'] at hsome
  · simp [hd, hd'] at hsome
  · obtain ⟨hwrite, hstep⟩ := htimes d d' hd hd'
    refine ⟨by simp only [Option.map_some, hwrite], ?_⟩
    by_cases hset : s.Settles id p
    · simp only [if_pos hset, hstep hset]
    · simp only [if_neg hset]

/-- **Exact condition.** Copies of callbacks of a payment are harmless exactly when the last callback
has the same status with them as without them, and the last success the same times. -/
theorem redelivery_iff (hf : s.payments.findFirst (·.providerReference = reference) = some (id, p))
    (hb : s.bookings[p.bookingId]? = some b) (hu : s.users[b.pilgrimId]? = some u)
    (hr : Redelivers [] ds ds') :
    SameOutcome id p.bookingId (deliverAll reference s ds) (deliverAll reference s ds') ↔
      SameLast s id p ds ds' := by
  have h := after_deliverAll hf hb hu ds
  have h' := after_deliverAll hf hb hu ds'
  have hp := (Table.findFirst_some hf).1
  constructor
  · rintro ⟨hpay, hbook, -⟩
    rw [h.payments, h'.payments, Table.get_set hp, Table.get_set hp, if_pos rfl, if_pos rfl] at hpay
    rw [h.bookings, h'.bookings, Table.get_set hb, Table.get_set hb, if_pos rfl, if_pos rfl] at hbook
    exact sameLast_of_same hr (Option.some.inj hpay).symm (Option.some.inj hbook).symm
  · intro hlast
    obtain ⟨hpay, hdos⟩ := same_of_sameLast (b := b) hr hlast
    refine ⟨?_, ?_, fun n => ?_⟩
    · rw [h.payments, h'.payments, hpay]
    · rw [h.bookings, h'.bookings, hdos]
    · rw [h.notifications, h'.notifications, hr.isSome.2]

end TwoSequences

/-! ## Sequences on fixed inputs -/

/-- The booking of the example, with a payment of the price that is `PENDING`. -/
private def initiee : Db :=
  Trace.last .exemple (runAll { reference := some "REF" } .exemple
    [.createBooking 0 0, .initiatePayment 0 .exemple])

private def callback (status : PaymentStatus) : Delivery := ⟨status, fun _ => {}⟩

/-- A copy of a callback `FAILED` comes before the success. -/
theorem redelivery_iff_exemple : SameOutcome 0 0
    (deliverAll "REF" initiee [callback .failed, callback .succeeded])
    (deliverAll "REF" initiee [callback .failed, callback .failed, callback .succeeded]) := by
  obtain ⟨p, hp, hrow⟩ := Option.map_eq_some_iff.mp
    (show (initiee.payments[0]?).map (fun p => (p.providerReference, p.bookingId)) =
      some ("REF", 0) by decide +kernel)
  obtain ⟨b, hb, hpil⟩ := Option.map_eq_some_iff.mp
    (show (initiee.bookings[0]?).map (·.pilgrimId) = some 0 by decide +kernel)
  obtain ⟨u, hu, -⟩ := Option.map_eq_some_iff.mp
    (show (initiee.users[0]?).map (·.fullName) = some "Pèlerin" by decide +kernel)
  obtain ⟨href, hbid⟩ := Prod.mk.inj hrow
  have hf : initiee.payments.findFirst (·.providerReference = "REF") = some (0, p) :=
    Table.findFirst_zero hp (decide_eq_true href)
  have := redelivery_iff hf (hbid ▸ hb) (hpil ▸ hu)
    (.keep (callback .failed) (callback .failed) rfl
      (.copy (callback .failed) (by decide) (.keep (callback .succeeded) (callback .succeeded) rfl
        (.nil _))))
  rw [hbid] at this
  refine this.mpr ⟨rfl, fun d d' hd hd' => ?_⟩
  obtain rfl : callback .succeeded = d := Option.some.inj hd
  obtain rfl : callback .succeeded = d' := Option.some.inj hd'
  exact ⟨rfl, fun _ => rfl⟩

/-- A copy of a callback `FAILED` comes after the success, at the same times: the payment moves out
of `SUCCEEDED`. -/
theorem redelivery_not_harmless :
    Redelivers [] [callback .failed, callback .succeeded]
        [callback .failed, callback .succeeded, callback .failed] ∧
      ((deliverAll "REF" initiee [callback .failed, callback .succeeded]).payments[0]?).map
        (·.status) = some .succeeded ∧
      ((deliverAll "REF" initiee [callback .failed, callback .succeeded,
        callback .failed]).payments[0]?).map (·.status) = some .failed ∧
      ¬ SameOutcome 0 0 (deliverAll "REF" initiee [callback .failed, callback .succeeded])
        (deliverAll "REF" initiee [callback .failed, callback .succeeded, callback .failed]) := by
  have hr : Redelivers [] [callback .failed, callback .succeeded]
      [callback .failed, callback .succeeded, callback .failed] :=
    .keep _ _ rfl (.keep _ _ rfl (.copy _ (by decide) (.nil _)))
  have hwithout : ((deliverAll "REF" initiee [callback .failed, callback .succeeded]).payments[0]?).map
      (·.status) = some .succeeded := by decide +kernel
  have hwith : ((deliverAll "REF" initiee [callback .failed, callback .succeeded,
      callback .failed]).payments[0]?).map (·.status) = some .failed := by decide +kernel
  refine ⟨hr, hwithout, hwith, fun h => ?_⟩
  have := congrArg (Option.map (·.status)) h.payment
  rw [hwithout, hwith] at this
  cases this

end OumraHajj
