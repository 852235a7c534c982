import OumraHajj.Services.Requests

/-!
# What a statement leaves alone

`Db.core` is the database without what is only ever appended and that no modelled handler reads
back: notifications, SMS, checklist items and the audit log. A statement is `Quiet` when it leaves
the core as it is, and a handler of quiet statements leaves it too (`core_of_uses`), so the messages
that a handler sends do not appear in the specifications of `Spec`.
-/

namespace OumraHajj

open Async

@[simp] theorem prisma_exec : prisma.exec = exec := rfl

@[simp] theorem await_bind {α : Type} (c : Stmt) (f : c.Resp → Req α) :
    Prog.bind (await c) f = .call c f := rfl

@[simp] theorem runs_await {c : Stmt} {s s' : Db} {r : Except Erreur c.Resp} :
    prisma.Runs (await c) s r s' ↔ ∃ e, r = .ok (exec c e s).1 ∧ s' = (exec c e s).2 := Iff.rfl

/-- The database without the messages (module doc). -/
def Db.core (s : Db) : Db :=
  { s with checklistItems := [], notifications := [], sms := [], auditLogs := [] }

/-- The statement leaves the core as it is. -/
def Quiet (c : Stmt) : Prop := ∀ e s, (exec c e s).2.core = s.core

theorem core_of_uses {α : Type} {p : Req α} (hp : p.Uses Quiet) {s s' : Db} {r : Except Erreur α}
    (h : prisma.Runs p s r s') : s'.core = s.core :=
  h.frame (R := fun s s' : Db => s'.core = s.core) (fun _ => rfl) (fun _ _ _ h₁ h₂ => Eq.trans h₂ h₁)
    (fun _ hc e s => hc e s) hp

/-- The statement leaves the database as it is. -/
def ReadOnly (c : Stmt) : Prop := ∀ e s, (exec c e s).2 = s

theorem state_of_uses {α : Type} {p : Req α} (hp : p.Uses ReadOnly) {s s' : Db}
    {r : Except Erreur α} (h : prisma.Runs p s r s') : s' = s :=
  h.frame (R := fun s s' : Db => s' = s) (fun _ => rfl) (fun _ _ _ h₁ h₂ => h₂.trans h₁)
    (fun _ hc e s => hc e s) hp

/-! ## The fields of the core -/

section Fields

variable {s s' : Db} (h : s'.core = s.core)

include h

theorem users_of_core : s'.users = s.users :=
  show s'.core.users = s.core.users from congrArg _ h

theorem packages_of_core : s'.packages = s.packages :=
  show s'.core.packages = s.core.packages from congrArg _ h

theorem bookings_of_core : s'.bookings = s.bookings :=
  show s'.core.bookings = s.core.bookings from congrArg _ h

theorem payments_of_core : s'.payments = s.payments :=
  show s'.core.payments = s.core.payments from congrArg _ h

theorem documents_of_core : s'.documents = s.documents :=
  show s'.core.documents = s.core.documents from congrArg _ h

end Fields

/-! ## The messages -/

/-- What `notifyPilgrimAndFamily` does after the notification. -/
def notifyFamily (pilgrimId : UserId) (content : Texte) : Req Unit := do
  let pilgrim ← UsersService.findByIdOrFail pilgrimId
  match pilgrim.emergencyContact with
  | some contact =>
    if contact.phone = "" then return ()
    else NotificationsService.sendRawSms contact.phone (.txt (pilgrim.fullName ++ " — ") :: content)
  | none => return ()

theorem notifyPilgrimAndFamily_eq (pilgrimId : UserId) (title content : Texte) (isCritical : Bool) :
    BookingsService.notifyPilgrimAndFamily pilgrimId title content isCritical =
      (NotificationsService.send { recipientIds := [pilgrimId], type := .bookingStatus, title, content
                                   isCritical }).bind fun _ => notifyFamily pilgrimId content := rfl

/-- Every statement that informs a pilgrim and the family satisfies `A`. -/
structure Informs (A : Stmt → Prop) : Prop where
  userFindUnique : ∀ id, A (.userFindUnique id)
  bookingFindUniqueWithPackage : ∀ id, A (.bookingFindUniqueWithPackage id)
  now : A .now
  notificationCreateMany : ∀ data, A (.notificationCreateMany data)
  sendRawSms : ∀ phone content, A (.sendRawSms phone content)
  checklistItemCreateMany : ∀ data, A (.checklistItemCreateMany data)

section Informs

variable {A : Stmt → Prop}

theorem uses_send (h : Informs A) (input : SendNotificationInput) :
    (NotificationsService.send input).Uses A := Prog.uses_exec (h.notificationCreateMany _)

theorem uses_notifyFamily (hu : ∀ id, A (.userFindUnique id))
    (hs : ∀ phone content, A (.sendRawSms phone content)) (pilgrimId : UserId) (content : Texte) :
    (notifyFamily pilgrimId content).Uses A := by
  unfold notifyFamily UsersService.findByIdOrFail
  simp only [Prog.bind_eq, await_bind, Prog.call_bind]
  refine ⟨hu pilgrimId, fun u => ?_⟩
  rcases u with _ | u
  · trivial
  · simp only [Prog.pure_eq, Prog.ret_bind]
    split
    · split
      · trivial
      · exact Prog.uses_exec (hs _ _)
    · trivial

theorem uses_notifyPilgrimAndFamily (h : Informs A) (pilgrimId : UserId) (title content : Texte)
    (isCritical : Bool) :
    (BookingsService.notifyPilgrimAndFamily pilgrimId title content isCritical).Uses A := by
  rw [notifyPilgrimAndFamily_eq]
  exact (uses_send h _).bind fun _ => uses_notifyFamily h.userFindUnique h.sendRawSms _ _

theorem uses_notifyStepDone (h : Informs A) (booking : BookingShape) (key : DossierStepKey) :
    (BookingsService.notifyStepDone booking key).Uses A := uses_notifyPilgrimAndFamily h _ _ _ _

theorem uses_notifyConfirmed (h : Informs A) (booking : BookingShape) :
    (BookingsService.notifyConfirmed booking).Uses A := uses_notifyPilgrimAndFamily h _ _ _ _

theorem uses_generateStandardChecklist (h : Informs A) (bookingId : BookingId) :
    (ChecklistService.generateStandardChecklist bookingId).Uses A := by
  refine (Prog.uses_exec (h.bookingFindUniqueWithPackage bookingId)).bind fun x => ?_
  rcases x with _ | ⟨b, pkg⟩
  · trivial
  · exact (Prog.uses_exec h.now).bind fun _ => Prog.uses_exec (h.checklistItemCreateMany _)

/-- What follows the update of a step. -/
theorem uses_afterStep (h : Informs A) (booking : BookingShape) (key : DossierStepKey) :
    ((BookingsService.notifyStepDone booking key).bind fun _ => .ret booking).Uses A :=
  (uses_notifyStepDone h booking key).bind fun _ => trivial

/-- What follows a confirmation. -/
theorem uses_afterConfirmation (h : Informs A) (booking : BookingShape) (bookingId : BookingId) :
    ((BookingsService.notifyConfirmed booking).bind fun _ =>
      (ChecklistService.generateStandardChecklist bookingId).bind fun _ => .ret booking).Uses A :=
  (uses_notifyConfirmed h booking).bind fun _ =>
    (uses_generateStandardChecklist h bookingId).bind fun _ => trivial

end Informs

theorem informs_quiet : Informs Quiet where
  userFindUnique _ _ _ := rfl
  bookingFindUniqueWithPackage _ _ _ := rfl
  now _ _ := rfl
  notificationCreateMany _ _ _ := rfl
  sendRawSms _ _ _ _ := rfl
  checklistItemCreateMany _ _ _ := rfl

end OumraHajj
