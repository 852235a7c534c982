import OumraHajj.Spec.Payments

/-!
# A callback that goes through

`Spec.Payments` says what a callback does to the core of the database in every run, a failing one
included. When the rows that a booking refers to exist, as the foreign keys of the schema demand, no
handler below fails, and the notifications that it sends can be told as well.

`s.Becomes c ns s'`: from `s` to `s'` the core becomes that of `c`, and the notifications `ns` are
added.
-/

namespace OumraHajj

open Async

/-- What becomes of the database (module doc). -/
structure Db.Becomes (s c : Db) (ns : List Notification) (s' : Db) : Prop where
  core : s'.core = c.core
  notifications : s'.notifications = s.notifications ++ ns

/-- The notification of `notifyStepDone`. -/
def etapeValidee (pilgrimId : UserId) (key : DossierStepKey) : Notification :=
  { recipientId := pilgrimId, type := .bookingStatus, title := BookingsService.titreEtape key
    content := BookingsService.contenuEtape key, isCritical := false }

/-- The notification of `notifyConfirmed`. -/
def dossierConfirme (pilgrimId : UserId) : Notification :=
  { recipientId := pilgrimId, type := .bookingStatus, title := BookingsService.titreConfirme
    content := BookingsService.contenuConfirme, isCritical := true }

/-- What `maybeConfirm` sends. -/
def Booking.confirmations (b : Booking) : List Notification :=
  if b.allDone ∧ b.status ≠ .confirmed then [dossierConfirme b.pilgrimId] else []

theorem Booking.confirmations_confirmIfDone (b : Booking) : b.confirmIfDone.confirmations = [] := by
  unfold confirmations
  refine if_neg fun ⟨hd, hst⟩ => hst ?_
  unfold confirmIfDone
  exact if_pos hd

theorem Booking.confirmations_withStep (b : Booking) (key : DossierStepKey)
    (status : DossierStepStatus) (now : Time) :
    (b.withStep key status now).confirmations = (b.withStep key status 0).confirmations := by
  unfold confirmations
  rw [allDone_withStep]
  rfl

section Evaluation

variable (env : Stmt → Env) {s : Db} {id : BookingId} {b : Booking} {u : User}

theorem send_eval {α : Type} (input : SendNotificationInput) (f : Unit → Req α) :
    prisma.evalBy env (Prog.bind (NotificationsService.send input) f) s =
      prisma.evalBy env (f ()) { s with
        notifications := s.notifications ++ input.recipientIds.map fun recipientId =>
          { recipientId, type := input.type, title := input.title, content := input.content
            isCritical := input.isCritical } } := rfl

theorem notifyPilgrimAndFamily_eval {pilgrimId : UserId} (hu : s.users[pilgrimId]? = some u)
    (title content : Texte) (isCritical : Bool) :
    ∃ s', prisma.evalBy env
        (BookingsService.notifyPilgrimAndFamily pilgrimId title content isCritical) s =
          (.ok (), s') ∧
      s.Becomes s [{ recipientId := pilgrimId, type := .bookingStatus, title, content
                     isCritical }] s' := by
  simp only [BookingsService.notifyPilgrimAndFamily, UsersService.findByIdOrFail, Prog.bind_eq,
    send_eval, await_bind, Prog.call_bind, Backend.evalBy_call, prisma_exec, exec, hu, Prog.pure_eq,
    Prog.ret_bind]
  rcases (toUserShape pilgrimId u).emergencyContact with _ | contact
  · exact ⟨_, rfl, rfl, rfl⟩
  · by_cases hphone : contact.phone = ""
    · simp only [if_pos hphone]
      exact ⟨_, rfl, rfl, rfl⟩
    · simp only [if_neg hphone]
      exact ⟨_, rfl, rfl, rfl⟩

theorem generateStandardChecklist_eval (s : Db) (id : BookingId) :
    ∃ s', prisma.evalBy env (ChecklistService.generateStandardChecklist id) s = (.ok (), s') ∧
      s.Becomes s [] s' := by
  simp only [ChecklistService.generateStandardChecklist, Prog.bind_eq, await_bind,
    Backend.evalBy_call, prisma_exec, exec]
  rcases s.bookingWithPackage id with _ | ⟨b, pkg⟩
  · exact ⟨s, rfl, rfl, (List.append_nil _).symm⟩
  · exact ⟨_, rfl, rfl, (List.append_nil _).symm⟩

theorem maybeConfirm_eval (hb : s.bookings[id]? = some b) (hu : s.users[b.pilgrimId]? = some u) :
    ∃ s', prisma.evalBy env (BookingsService.maybeConfirm id) s =
        (.ok (toBookingShape id b.confirmIfDone), s') ∧
      s.Becomes (s.putBooking id b.confirmIfDone) b.confirmations s' := by
  simp only [BookingsService.maybeConfirm, BookingsService.findByIdOrFail, Prog.bind_eq, await_bind,
    Prog.call_bind, Backend.evalBy_call, prisma_exec, exec, hb, Prog.pure_eq, Prog.ret_bind,
    allDone_toBookingShape]
  by_cases hc : b.allDone = true ∧ (toBookingShape id b).status ≠ .confirmed
  · have hc' : b.allDone = true ∧ b.status ≠ .confirmed := hc
    have hconf : b.confirmIfDone = { b with status := .confirmed } := by
      unfold Booking.confirmIfDone
      rw [if_pos hc.1]
    rw [if_pos hc]
    simp only [BookingsService.updateStatus, Prog.bind_eq, await_bind, Prog.call_bind,
      Backend.evalBy_call, prisma_exec, exec, hb, Prog.pure_eq, Prog.ret_bind]
    have hu' : (s.putBooking id b.confirmIfDone).users[b.pilgrimId]? = some u := hu
    obtain ⟨s₁, he₁, h₁⟩ := notifyPilgrimAndFamily_eval env hu'
      BookingsService.titreConfirme BookingsService.contenuConfirme true
    obtain ⟨s₂, he₂, h₂⟩ := generateStandardChecklist_eval env s₁ id
    refine ⟨s₂, ?_, h₂.core.trans h₁.core, ?_⟩
    · rw [← hconf]
      refine (Backend.evalBy_bind_ok he₁ _).trans ?_
      exact (Backend.evalBy_bind_ok he₂ _).trans rfl
    · rw [h₂.notifications, h₁.notifications, List.append_nil, Booking.confirmations, if_pos hc']
      rfl
  · have hc' : ¬ (b.allDone = true ∧ b.status ≠ .confirmed) := hc
    rw [if_neg hc, Booking.confirmIfDone_eq_self hc', Db.putBooking_self hb, Booking.confirmations,
      if_neg hc']
    exact ⟨s, rfl, rfl, (List.append_nil _).symm⟩

/-- The time of the statement that completes a step. -/
abbrev stepTime (env : Stmt → Env) (id : BookingId) (key : DossierStepKey) : Time :=
  (env (.bookingStepUpdate id key .done)).now

theorem markStepDone_eval (key : DossierStepKey) (hb : s.bookings[id]? = some b)
    (hu : s.users[b.pilgrimId]? = some u) :
    ∃ s', prisma.evalBy env (BookingsService.markStepDone id key) s =
        (.ok (toBookingShape id (b.withStep key .done (stepTime env id key)).confirmIfDone), s') ∧
      s.Becomes (s.putBooking id (b.withStep key .done (stepTime env id key)).confirmIfDone)
        ((b.withStep key .done (stepTime env id key)).confirmations ++
          [etapeValidee b.pilgrimId key]) s' := by
  simp only [BookingsService.markStepDone, Prog.bind_eq, await_bind, Backend.evalBy_call,
    prisma_exec, exec, hb]
  have hb' := Db.putBooking_get hb (b.withStep key .done (stepTime env id key))
  obtain ⟨s₁, he₁, h₁⟩ := maybeConfirm_eval env hb' hu
  have hu₁ : s₁.users[b.pilgrimId]? = some u := by rw [users_of_core h₁.core]; exact hu
  obtain ⟨s₂, he₂, h₂⟩ := notifyPilgrimAndFamily_eval env hu₁
    (BookingsService.titreEtape key) (BookingsService.contenuEtape key) false
  refine ⟨s₂, ?_, ?_, ?_⟩
  · have hnotify : prisma.evalBy env (BookingsService.notifyStepDone
        (toBookingShape id (b.withStep key .done (stepTime env id key)).confirmIfDone) key) s₁ =
          (.ok (), s₂) := he₂
    exact (Backend.evalBy_bind_ok he₁ _).trans (Backend.evalBy_bind_ok hnotify _)
  · rw [h₂.core, h₁.core, Db.putBooking_putBooking]
  · rw [h₂.notifications, h₁.notifications, List.append_assoc]
    rfl

/-- Once the payments cover the price, the `PAYMENT` step is done. -/
theorem reconcile_eval (hc : s.Covered id) (hb : s.bookings[id]? = some b)
    (hu : s.users[b.pilgrimId]? = some u) :
    ∃ s', prisma.evalBy env (PaymentsService.reconcileBookingPaymentStep id) s = (.ok (), s') ∧
      s.Becomes (s.putBooking id (b.withStep .payment .done (stepTime env id .payment)).confirmIfDone)
        ((b.withStep .payment .done (stepTime env id .payment)).confirmations ++
          [etapeValidee b.pilgrimId .payment]) s' := by
  obtain ⟨b₁, pkg, hb₁, hpk, hle⟩ := hc
  obtain rfl : b₁ = b := Option.some.inj (hb₁.symm.trans hb)
  obtain ⟨s', he, hs⟩ := markStepDone_eval env .payment hb hu
  refine ⟨s', ?_, hs⟩
  simp only [PaymentsService.reconcileBookingPaymentStep, BookingsService.findByIdOrFail,
    PackagesService.findByIdOrFail, PaymentsService.findByBooking, Prog.bind_eq, await_bind,
    Prog.call_bind, Backend.evalBy_call, prisma_exec, exec, hb, Prog.pure_eq, Prog.ret_bind,
    toBookingShape, hpk, totalPaid_eq]
  have hge : s.paidFor id ≥ (toPackageShape b₁.packageId pkg).price := hle
  rw [if_pos hge]
  exact (Backend.evalBy_bind_ok he _).trans rfl

theorem reconcile_eval_of_not_covered (hc : ¬ s.Covered id) :
    (prisma.evalBy env (PaymentsService.reconcileBookingPaymentStep id) s).2 = s := by
  rcases reconcile_runs (Backend.evalBy_runs env _ s) with ⟨h, -⟩ | ⟨-, h⟩
  · exact absurd h hc
  · exact h

variable {p : Payment} {reference : String}

/-- The time of the statement that writes a callback on the payment. -/
abbrev writeTime (env : Stmt → Env) (id : PaymentId) (status : PaymentStatus) : Time :=
  (env (.paymentUpdate id (PaymentsService.webhookUpdate id status))).now

/-- The database with a callback written on the payment. -/
def Db.written (s : Db) (env : Stmt → Env) (id : PaymentId) (status : PaymentStatus) (p : Payment) :
    Db :=
  s.putPayment id ((PaymentsService.webhookUpdate id status).apply (writeTime env id status) p)

/-- A callback is written on its payment; a success goes on with the dossier. -/
theorem handleWebhook_eval {id : PaymentId} {status : PaymentStatus}
    (hf : s.payments.findFirst (·.providerReference = reference) = some (id, p)) :
    (prisma.evalBy env (PaymentsService.handleWebhook ⟨reference, status⟩) s).2 =
      if status = .succeeded then
        (prisma.evalBy env (PaymentsService.reconcileBookingPaymentStep p.bookingId)
          (s.written env id status p)).2
      else s.written env id status p := by
  have hp := (Table.findFirst_some hf).1
  simp only [PaymentsService.handleWebhook, PaymentsService.update, Prog.bind_eq, await_bind,
    Prog.call_bind, Backend.evalBy_call, prisma_exec, exec, hf, hp, Prog.pure_eq, Prog.ret_bind]
  by_cases hst : status = .succeeded
  · rw [if_pos hst, if_pos hst]
    exact Backend.evalBy_bind_ret _ _ _
  · rw [if_neg hst, if_neg hst]
    rfl

end Evaluation

end OumraHajj
