import OumraHajj.Async.Rely
import OumraHajj.Spec.Frame

/-!
# What creates a booking

Only `BookingsService.create` executes `booking.create` (`handler_uses`): the other handlers write the
rows that exist, and none of their statements changes the terms of a booking (`exec_terms`) or what a
package offers (`exec_offer`). `create_keeps` is the rule for what `create` keeps among other handlers.
-/

namespace OumraHajj

open Async

/-- `booking.create`. -/
def Stmt.isBookingCreate : Stmt → Bool
  | .bookingCreate _ _ _ _ => true
  | _ => false

/-- The statement creates no booking. -/
abbrev NoBooking (c : Stmt) : Prop := c.isBookingCreate = false

/-- The statement creates no booking and cancels none. -/
def Courante : Stmt → Prop
  | .bookingCreate _ _ _ _ => False
  | .bookingUpdate _ .cancelled => False
  | _ => True

theorem Courante.noBooking {c : Stmt} (h : Courante c) : NoBooking c := by
  cases c
  case bookingCreate => exact h.elim
  all_goals rfl

/-- A handler that executes such statements creates no booking. -/
theorem noBooking_of {α : Type} {p : Req α} (hp : p.Uses Courante) : p.Uses NoBooking :=
  hp.mono fun _ => Courante.noBooking

theorem informs_courante : Informs Courante where
  userFindUnique _ := trivial
  bookingFindUniqueWithPackage _ := trivial
  now := trivial
  notificationCreateMany _ := trivial
  sendRawSms _ _ := trivial
  checklistItemCreateMany _ := trivial

/-! ## What a statement leaves of the rows -/

/-- The columns of a booking that its creation sets for good. -/
structure Terms where
  pilgrimId : UserId
  packageId : PackageId
  agencyId : AgencyId
  groupId : Option Nat
  refundPolicySnapshot : Option Json

def Booking.terms (b : Booking) : Terms :=
  { pilgrimId := b.pilgrimId
    packageId := b.packageId
    agencyId := b.agencyId
    groupId := b.groupId
    refundPolicySnapshot := b.refundPolicySnapshot }

/-- A package without its seats and its status. -/
def Package.offer (p : Package) : Package := { p with seatsTaken := 0, status := .open }

/-- A row that is replaced by one with the same value of `f`. -/
theorem map_set_of_eq {α β : Type} {f : α → β} {t : Table α} {i : Nat} {x y : α}
    (h : t[i]? = some x) (hf : f y = f x) : (t.set i y).map f = t.map f := by
  rw [List.map_set, hf]
  refine Table.set_self ?_
  rw [List.getElem?_map, h, Option.map_some]

theorem exec_terms {c : Stmt} (hc : NoBooking c) (e : Env) (s : Db) :
    (exec c e s).2.bookings.map Booking.terms = s.bookings.map Booking.terms := by
  cases c
  case bookingCreate => cases hc
  case bookingUpdate id status =>
    simp only [exec]
    split
    · rename_i b hb
      exact map_set_of_eq hb rfl
    · rfl
  case bookingStepUpdate id key status =>
    simp only [exec]
    split
    · rename_i b hb
      exact map_set_of_eq hb rfl
    · rfl
  all_goals first
    | rfl
    | simp only [exec]
      split <;> rfl

/-- The statement cancels no booking. -/
def SansAnnulation : Stmt → Prop
  | .bookingUpdate _ .cancelled => False
  | _ => True

theorem sansAnnulation_or (c : Stmt) : (∃ id, c = .bookingUpdate id .cancelled) ∨ SansAnnulation c := by
  cases c
  case bookingUpdate id status => cases status <;> first | exact .inl ⟨id, rfl⟩ | exact .inr trivial
  all_goals exact .inr trivial

theorem Courante.sansAnnulation {c : Stmt} (h : Courante c) : SansAnnulation c := by
  cases c
  case bookingUpdate id status => cases status <;> first | exact h.elim | trivial
  all_goals trivial

/-- The bookings that are not cancelled stay so, with their terms. -/
def Db.Laisse (s s' : Db) : Prop :=
  ∀ (id : BookingId) (b : Booking), s.bookings[id]? = some b → b.status ≠ .cancelled →
    ∃ b' : Booking, s'.bookings[id]? = some b' ∧ b'.terms = b.terms ∧ b'.status ≠ .cancelled

theorem laisse_of_eq {s s' : Db} (h : s'.bookings = s.bookings) : s.Laisse s' :=
  fun _ b hb hst => ⟨b, h ▸ hb, rfl, hst⟩

theorem Db.Laisse.trans {s s₁ s' : Db} (h : s.Laisse s₁) (h' : s₁.Laisse s') : s.Laisse s' := by
  intro id b hb hst
  obtain ⟨b₁, hb₁, hterms₁, hst₁⟩ := h id b hb hst
  obtain ⟨b', hb', hterms, hst'⟩ := h' id b₁ hb₁ hst₁
  exact ⟨b', hb', hterms.trans hterms₁, hst'⟩

/-- One row is replaced. -/
theorem laisse_set {s s' : Db} {id : BookingId} {b b' : Booking} (hb : s.bookings[id]? = some b)
    (hs' : s'.bookings = s.bookings.set id b') (hterms : b'.terms = b.terms)
    (hst : b.status ≠ .cancelled → b'.status ≠ .cancelled) : s.Laisse s' := by
  intro k x hx hxst
  rw [hs', Table.get_set hb]
  split
  · next hk =>
    subst hk
    obtain rfl := Option.some.inj (hb.symm.trans hx)
    exact ⟨b', rfl, hterms, hst hxst⟩
  · exact ⟨x, hx, rfl, hxst⟩

theorem exec_laisse {c : Stmt} (hc : SansAnnulation c) (e : Env) (s : Db) :
    s.Laisse (exec c e s).2 := by
  cases c
  case bookingCreate pilgrimId packageId agencyId snapshot =>
    intro id b hb hst
    exact ⟨b, Table.get_append_of_get hb _, rfl, hst⟩
  case bookingUpdate id status =>
    simp only [exec]
    split
    · next b hb =>
      refine laisse_set hb rfl rfl fun _ hst => ?_
      cases status <;> first | exact hc | cases hst
    · exact laisse_of_eq rfl
  case bookingStepUpdate id key status =>
    simp only [exec]
    split
    · next b hb => exact laisse_set hb rfl rfl fun hst => hst
    · exact laisse_of_eq rfl
  all_goals first
    | exact laisse_of_eq rfl
    | simp only [exec]
      split <;> exact laisse_of_eq rfl

theorem exec_offer (c : Stmt) (e : Env) (s : Db) :
    (exec c e s).2.packages.map Package.offer = s.packages.map Package.offer := by
  cases c
  case packageUpdate id data =>
    simp only [exec]
    split
    · rename_i p hp
      exact map_set_of_eq hp rfl
    · rfl
  all_goals first
    | rfl
    | simp only [exec]
      split <;> rfl

theorem exec_refundPolicyTiers (c : Stmt) (e : Env) (s : Db) :
    (exec c e s).2.refundPolicyTiers = s.refundPolicyTiers := by
  cases c
  all_goals first
    | rfl
    | simp only [exec]
      split <;> rfl

/-- Agencies are only added. -/
theorem exec_agencies (c : Stmt) (e : Env) (s : Db) : s.agencies <+: (exec c e s).2.agencies := by
  cases c
  case agencyCreate data =>
    simp only [exec]
    split
    · exact List.prefix_rfl
    · exact List.prefix_rfl
    · exact List.prefix_append _ _
  all_goals first
    | exact List.prefix_rfl
    | simp only [exec]
      split <;> exact List.prefix_rfl

/-- The agency of an owner stays. -/
theorem Db.agencyOf_of_prefix {s s' : Db} (h : s.agencies <+: s'.agencies) {ownerId : UserId}
    {x : AgencyId × Agency} (hx : s.agencyOf ownerId = some x) : s'.agencyOf ownerId = some x :=
  Table.findFirst_prefix h hx

/-! ## The handlers -/

section Bookings

variable (id : BookingId) (ownerId : UserId)

theorem courante_find : (BookingsService.findByIdOrFail id).Uses Courante := by
  refine ⟨trivial, fun r => ?_⟩
  cases r <;> trivial

theorem courante_owner : (AgenciesService.findByOwnerOrFail ownerId).Uses Courante := by
  refine ⟨trivial, fun r => ?_⟩
  rcases r with _ | ⟨agencyId, agency⟩ <;> trivial

theorem courante_ownership (booking : BookingShape) :
    (BookingsService.assertAgencyOwnership ownerId booking).Uses Courante := by
  refine (courante_owner ownerId).bind fun agency => ?_
  split <;> trivial

theorem courante_confirm : (BookingsService.updateStatus id .confirmed).Uses Courante := by
  refine ⟨trivial, fun r => ?_⟩
  cases r <;> trivial

theorem courante_maybeConfirm : (BookingsService.maybeConfirm id).Uses Courante := by
  refine (courante_find id).bind fun booking => ?_
  split
  · exact (courante_confirm id).bind fun _ =>
      uses_afterConfirmation informs_courante _ _
  · trivial

theorem courante_markStepDone (key : DossierStepKey) :
    (BookingsService.markStepDone id key).Uses Courante := by
  refine ⟨trivial, fun r => ?_⟩
  cases r with
  | none => trivial
  | some _ => exact (courante_maybeConfirm id).bind fun _ => uses_afterStep informs_courante _ _

theorem courante_updateStep (key : DossierStepKey) (status : DossierStepStatus) :
    (BookingsService.updateStep ownerId id key status).Uses Courante := by
  refine (courante_find id).bind fun booking => (courante_ownership ownerId booking).bind fun _ => ?_
  refine ⟨trivial, fun r => ?_⟩
  cases r with
  | none => trivial
  | some _ =>
    refine (courante_maybeConfirm _).bind fun updated => ?_
    split
    · exact uses_afterStep informs_courante _ _
    · trivial

theorem noBooking_updateStatus (status : BookingStatus) :
    (BookingsService.updateStatus id status).Uses NoBooking := by
  refine ⟨rfl, fun r => ?_⟩
  cases r <;> trivial

theorem noBooking_cancel (pilgrimId : UserId) :
    (BookingsService.cancel pilgrimId id).Uses NoBooking := by
  refine (noBooking_of (courante_find id)).bind fun booking => ?_
  split
  · trivial
  split
  · refine Prog.Uses.bind ?_ fun _ => noBooking_updateStatus _ _
    refine ⟨rfl, fun r => ?_⟩
    cases r with
    | none => trivial
    | some pkg =>
      refine ⟨rfl, fun r => ?_⟩
      cases r <;> trivial
  · exact noBooking_updateStatus _ _

end Bookings

section Packages

variable (id : PackageId)

theorem courante_package : (PackagesService.findByIdOrFail id).Uses Courante := by
  refine ⟨trivial, fun r => ?_⟩
  cases r <;> trivial

theorem courante_packageUpdate (data : PackageUpdate) :
    (PackagesService.update id data).Uses Courante := by
  refine ⟨trivial, fun r => ?_⟩
  cases r <;> trivial

theorem courante_packageOwnership (ownerId : UserId) (pkg : PackageShape) :
    (PackagesService.assertOwnership ownerId pkg).Uses Courante := by
  refine (courante_owner ownerId).bind fun agency => ?_
  split <;> trivial

theorem courante_close (ownerId : UserId) : (PackagesService.close ownerId id).Uses Courante :=
  (courante_package id).bind fun pkg => (courante_packageOwnership ownerId pkg).bind fun _ =>
    courante_packageUpdate _ _

theorem courante_reserveSeat : (PackagesService.reserveSeat id).Uses Courante := by
  refine (courante_package id).bind fun pkg => ?_
  split
  · trivial
  split
  · exact (courante_packageUpdate _ _).bind fun _ => trivial
  · exact courante_packageUpdate _ _

end Packages

section Payments

variable (id : PaymentId)

theorem courante_payment : (PaymentsService.findByIdOrFail id).Uses Courante := by
  refine ⟨trivial, fun r => ?_⟩
  cases r <;> trivial

theorem courante_paymentUpdate (data : PaymentUpdate) :
    (PaymentsService.update id data).Uses Courante := by
  refine ⟨trivial, fun r => ?_⟩
  cases r <;> trivial

theorem courante_initiate (pilgrimId : UserId) (dto : InitiatePaymentDto) :
    (PaymentsService.initiate pilgrimId dto).Uses Courante := by
  refine (courante_find dto.bookingId).bind fun booking => ?_
  split
  · trivial
  refine ⟨trivial, fun count => ⟨trivial, fun reference => ?_⟩⟩
  cases reference with
  | none => trivial
  | some providerReference =>
    refine ⟨trivial, fun r => ?_⟩
    rcases r with _ | ⟨paymentId, payment⟩ <;> trivial

theorem courante_reconcile (bookingId : BookingId) :
    (PaymentsService.reconcileBookingPaymentStep bookingId).Uses Courante := by
  refine (courante_find bookingId).bind fun booking => (courante_package _).bind fun pkg => ?_
  refine ⟨trivial, fun payments => ?_⟩
  simp only [Prog.pure_eq, Prog.ret_bind]
  split
  · exact (courante_markStepDone bookingId .payment).bind fun _ => trivial
  · trivial

theorem courante_webhook (dto : PaymentWebhookDto) :
    (PaymentsService.handleWebhook dto).Uses Courante := by
  refine ⟨trivial, fun r => ?_⟩
  rcases r with _ | ⟨paymentId, payment⟩
  · trivial
  refine (courante_paymentUpdate paymentId _).bind fun payment => ?_
  split
  · exact (courante_reconcile payment.bookingId).bind fun _ => trivial
  · trivial

theorem courante_authorized (requesterId : UserId) (requesterRole : Role) :
    (PaymentsService.findAuthorizedOrFail requesterId requesterRole id).Uses Courante := by
  refine (courante_payment id).bind fun payment => (courante_find payment.bookingId).bind
    fun booking => ?_
  split
  · trivial
  split
  · refine (courante_owner requesterId).bind fun agency => ?_
    split <;> trivial
  · trivial

theorem courante_contextFor (bookingId : BookingId) :
    (RefundPolicyService.contextFor bookingId).Uses Courante := by
  refine ⟨trivial, fun now => ⟨trivial, fun r => ?_⟩⟩
  rcases r with _ | ⟨reservation, pkg⟩ <;> trivial

theorem courante_requestRefund (requesterId : UserId) (requesterRole : Role) :
    (PaymentsService.requestRefund requesterId requesterRole id).Uses Courante := by
  refine (courante_authorized id requesterId requesterRole).bind fun payment => ?_
  split
  · trivial
  refine (courante_find payment.bookingId).bind fun booking =>
    (courante_contextFor booking.id).bind fun contexte => ?_
  simp only
  split
  · trivial
  refine ⟨trivial, fun accepted => ?_⟩
  cases accepted with
  | false => trivial
  | true =>
    exact (courante_paymentUpdate payment.id _).bind fun _ =>
      (uses_send informs_courante _).bind fun _ => trivial

end Payments

section Documents

variable (id : DocumentId) (ownerId : UserId)

theorem courante_document : (DocumentsService.findByIdOrFail id).Uses Courante := by
  refine ⟨trivial, fun r => ?_⟩
  cases r <;> trivial

theorem courante_documentUpdate (data : DocumentUpdate) :
    (DocumentsService.update id data).Uses Courante := by
  refine ⟨trivial, fun r => ?_⟩
  cases r <;> trivial

theorem courante_documentOwnership (doc : PilgrimDocumentShape) :
    (DocumentsService.assertAgencyOwnership ownerId doc).Uses Courante := by
  refine (courante_find doc.bookingId).bind fun booking => (courante_owner ownerId).bind
    fun agency => ?_
  split <;> trivial

theorem courante_upload (pilgrimId : UserId) (bookingId : BookingId) (type : PilgrimDocumentType)
    (expiresAt : Option Time) :
    (DocumentsService.upload pilgrimId bookingId type expiresAt).Uses Courante := by
  refine (courante_find bookingId).bind fun booking => ?_
  split
  · trivial
  · exact ⟨trivial, fun storageRef => ⟨trivial, fun created => trivial⟩⟩

theorem courante_validate : (DocumentsService.validate ownerId id).Uses Courante := by
  refine (courante_document id).bind fun doc => (courante_documentOwnership ownerId doc).bind
    fun _ => (courante_documentUpdate doc.id _).bind fun updated => Prog.Uses.bind ?_ fun _ => trivial
  refine ⟨trivial, fun docs => ?_⟩
  simp only [Prog.ret_bind]
  split
  · exact (courante_markStepDone updated.bookingId .documents).bind fun _ => trivial
  · trivial

theorem courante_reject (reason : String) :
    (DocumentsService.reject ownerId id reason).Uses Courante :=
  (courante_document id).bind fun doc => (courante_documentOwnership ownerId doc).bind fun _ =>
    courante_documentUpdate doc.id _

end Documents

/-- Every request that is not `createBooking` or `cancelBooking` creates no booking and cancels none. -/
theorem handler_courante (q : Request) :
    (∃ pilgrimId packageId, q = .createBooking pilgrimId packageId) ∨
      (∃ pilgrimId bookingId, q = .cancelBooking pilgrimId bookingId) ∨ (handler q).Uses Courante := by
  cases q with
  | createBooking pilgrimId packageId => exact .inl ⟨_, _, rfl⟩
  | cancelBooking pilgrimId bookingId => exact .inr (.inl ⟨_, _, rfl⟩)
  | updateStep ownerId bookingId key status =>
    exact .inr (.inr (courante_updateStep bookingId ownerId key status).void)
  | markStepDone bookingId key => exact .inr (.inr (courante_markStepDone bookingId key).void)
  | closePackage ownerId packageId => exact .inr (.inr (courante_close packageId ownerId).void)
  | initiatePayment pilgrimId dto => exact .inr (.inr (courante_initiate pilgrimId dto).void)
  | webhook dto => exact .inr (.inr (courante_webhook dto).void)
  | requestRefund requesterId requesterRole paymentId =>
    exact .inr (.inr (courante_requestRefund paymentId requesterId requesterRole).void)
  | uploadDocument pilgrimId bookingId type expiresAt =>
    exact .inr (.inr (courante_upload pilgrimId bookingId type expiresAt).void)
  | validateDocument ownerId documentId =>
    exact .inr (.inr (courante_validate documentId ownerId).void)
  | rejectDocument ownerId documentId reason =>
    exact .inr (.inr (courante_reject documentId ownerId reason).void)

/-- Every request that is not `createBooking` creates no booking. -/
theorem handler_uses (q : Request) :
    (∃ pilgrimId packageId, q = .createBooking pilgrimId packageId) ∨ (handler q).Uses NoBooking := by
  rcases handler_courante q with h | ⟨pilgrimId, bookingId, rfl⟩ | h
  · exact .inl h
  · exact .inr (noBooking_cancel bookingId pilgrimId).void
  · exact .inr (noBooking_of h)

/-- The creation of a booking cancels none. -/
theorem create_sansAnnulation (pilgrimId : UserId) (packageId : PackageId) :
    (BookingsService.create pilgrimId packageId).Uses SansAnnulation := by
  have hpackage : (PackagesService.findByIdOrFail packageId).Uses SansAnnulation :=
    (courante_package packageId).mono fun _ => Courante.sansAnnulation
  have hseat : (PackagesService.reserveSeat packageId).Uses SansAnnulation :=
    (courante_reserveSeat packageId).mono fun _ => Courante.sansAnnulation
  exact hpackage.bind fun pkg => ⟨trivial, fun paliers => hseat.bind fun _ => ⟨trivial, fun r => trivial⟩⟩

/-! ## The agency of an owner -/

theorem owner_runs {ownerId : UserId} {s s' : Db} {r : Except Erreur AgencyShape}
    (h : prisma.Runs (AgenciesService.findByOwnerOrFail ownerId) s r s') : s' = s ∧
      ((∃ id agency, s.agencyOf ownerId = some (id, agency) ∧ r = .ok (toAgencyShape id agency)) ∨
        (s.agencyOf ownerId = none ∧ ∃ x, r = .error x)) := by
  simp only [AgenciesService.findByOwnerOrFail, Prog.bind_eq, await_bind, Backend.runs_call,
    prisma_exec, exec] at h
  obtain ⟨_, h⟩ := h
  rcases ha : s.agencyOf ownerId with _ | ⟨agencyId, agency⟩
  · simp only [ha, Backend.runs_fail] at h
    exact ⟨h.2, .inr ⟨rfl, _, h.1⟩⟩
  · simp only [ha, Prog.pure_eq, Backend.runs_ret] at h
    exact ⟨h.2, .inl ⟨agencyId, agency, rfl, h.1⟩⟩

/-! ## Among other handlers -/

/-- The agency that was found is that of the owner from then on. -/
theorem owner_keeps {D : Rely Db} {ok : Stmt → Db → Env → Prop}
    (hD : ∀ s s', D.le s s' → s.agencies <+: s'.agencies) (ownerId : UserId) (s : Db) :
    D.Keeps prisma ok (AgenciesService.findByOwnerOrFail ownerId) s fun r s' => D.le s s' ∧
      ∀ shape, r = .ok shape → ∃ agency, ∀ s'', D.le s' s'' →
        s''.agencyOf ownerId = some (shape.id, agency) := by
  intro s' e hi hle _
  rw [prisma_exec, exec]
  refine ⟨hi, D.refl s', ?_⟩
  rcases ha : s'.agencyOf ownerId with _ | ⟨id, agency⟩
  · exact ⟨hle, by rintro shape ⟨⟩⟩
  · refine ⟨hle, ?_⟩
    rintro shape ⟨⟩
    exact ⟨agency, fun s'' hle'' => Db.agencyOf_of_prefix (hD s' s'' hle'') ha⟩

/-- What a booking is created with: the package, as it was read first, and the schedule of its agency,
as it was read next. -/
theorem create_keeps {D : Rely Db} {ok : Stmt → Db → Env → Prop}
    (hstep : ∀ c, NoBooking c → D.Step prisma ok c) {pilgrimId : UserId} {packageId : PackageId}
    (hcreate : ∀ s₁ s₂ s₃ e p, D.inv s₁ → s₁.packages[packageId]? = some p → D.inv s₂ → D.le s₁ s₂ →
      D.inv s₃ → D.le s₂ s₃ → ∀ paliers, paliers = (exec (.refundPolicyTierFindMany p.agencyId) e s₂).1 →
      D.Step prisma (fun c s e => s = s₃ ∧ ok c s e) (.bookingCreate pilgrimId packageId p.agencyId
        (if paliers.length > 0 then some (tiersJson paliers) else none))) (s : Db) :
    D.Keeps prisma ok (BookingsService.create pilgrimId packageId) s fun _ _ => True := by
  simp only [BookingsService.create, PackagesService.findByIdOrFail, Prog.bind_eq, await_bind,
    Prog.call_bind]
  refine Rely.Keeps.read (fun _ _ => rfl) fun s₁ e hs₁ _ => ?_
  rw [prisma_exec, exec]
  rcases hp : s₁.packages[packageId]? with _ | p
  · trivial
  simp only [Prog.pure_eq, Prog.ret_bind]
  refine Rely.Keeps.read (fun _ _ => rfl) fun s₂ e hs₂ hle₂ => ?_
  refine Rely.Keeps.bind ((Rely.Keeps.of_uses hstep (noBooking_of (courante_reserveSeat packageId)) s₂).mono ?_)
  rintro (x | shape) s₃ hle₃
  · trivial
  intro s₄ e₄ hs₄ hle₄ ho
  obtain ⟨hi, hle⟩ := hcreate s₁ s₂ s₄ e p hs₁ hp hs₂ hle₂ hs₄ (D.trans _ _ _ hle₃ hle₄) _ rfl s₄ e₄ hs₄
    ⟨rfl, ho⟩
  exact ⟨hi, hle, trivial⟩

end OumraHajj
