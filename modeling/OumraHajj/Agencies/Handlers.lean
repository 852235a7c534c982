import OumraHajj.Agencies.Service
import OumraHajj.Groups.Handlers

/-!
# What creates an account, an agency or a package

Of the requests of the bookings, the packages and the groups, only `createPackage` creates a package, and none
creates an account or an agency (`handler_etablie`). Of those of the agencies, `register` and `addGuide` create an
account, and `approve` and `reject` decide on an agency.
-/

namespace OumraHajj.Agencies

open Async Groups

/-- The statement creates neither an account nor an agency. -/
def EtablieApp : OumraHajj.Stmt → Prop
  | .userCreate _ => False
  | .agencyCreate _ => False
  | _ => True

/-- The statement creates no account, no agency and no package. -/
def Etablie : Groups.sig.Stmt → Prop
  | .inl (.inl c) => EtablieApp c
  | .inl (.inr (.packageCreate _)) => False
  | _ => True

theorem informs_etablie : Informs EtablieApp where
  userFindUnique _ := trivial
  bookingFindUniqueWithPackage _ := trivial
  now := trivial
  notificationCreateMany _ := trivial
  sendRawSms _ _ := trivial
  checklistItemCreateMany _ := trivial

/-! ## The bookings -/

section Bookings

variable (id : BookingId) (ownerId : UserId)

theorem owner_etablie : (OumraHajj.AgenciesService.findByOwnerOrFail ownerId).Uses EtablieApp := by
  refine ⟨trivial, fun r => ?_⟩
  cases r <;> trivial

theorem booking_etablie : (OumraHajj.BookingsService.findByIdOrFail id).Uses EtablieApp := by
  refine ⟨trivial, fun r => ?_⟩
  cases r <;> trivial

theorem bookingOwnership_etablie (booking : BookingShape) :
    (OumraHajj.BookingsService.assertAgencyOwnership ownerId booking).Uses EtablieApp := by
  refine (owner_etablie ownerId).bind fun agency => ?_
  split <;> trivial

theorem updateStatus_etablie (status : BookingStatus) :
    (OumraHajj.BookingsService.updateStatus id status).Uses EtablieApp := by
  refine ⟨trivial, fun r => ?_⟩
  cases r <;> trivial

theorem maybeConfirm_etablie : (OumraHajj.BookingsService.maybeConfirm id).Uses EtablieApp := by
  refine (booking_etablie id).bind fun booking => ?_
  split
  · exact (updateStatus_etablie id .confirmed).bind fun _ => uses_afterConfirmation informs_etablie _ _
  · trivial

theorem markStepDone_etablie (key : DossierStepKey) :
    (OumraHajj.BookingsService.markStepDone id key).Uses EtablieApp := by
  refine ⟨trivial, fun r => ?_⟩
  cases r with
  | none => trivial
  | some _ => exact (maybeConfirm_etablie id).bind fun _ => uses_afterStep informs_etablie _ _

theorem updateStep_etablie (key : DossierStepKey) (status : DossierStepStatus) :
    (OumraHajj.BookingsService.updateStep ownerId id key status).Uses EtablieApp := by
  refine (booking_etablie id).bind fun booking => (bookingOwnership_etablie ownerId booking).bind fun _ => ?_
  refine ⟨trivial, fun r => ?_⟩
  cases r with
  | none => trivial
  | some _ =>
    refine (maybeConfirm_etablie _).bind fun updated => ?_
    split
    · exact uses_afterStep informs_etablie _ _
    · trivial

end Bookings

/-! ## The packages -/

section Packages

variable (id : PackageId)

theorem package_etablie : (OumraHajj.PackagesService.findByIdOrFail id).Uses EtablieApp := by
  refine ⟨trivial, fun r => ?_⟩
  cases r <;> trivial

theorem packageUpdate_etablie (data : PackageUpdate) :
    (OumraHajj.PackagesService.update id data).Uses EtablieApp := by
  refine ⟨trivial, fun r => ?_⟩
  cases r <;> trivial

theorem packageOwnership_etablie (ownerId : UserId) (pkg : PackageShape) :
    (OumraHajj.PackagesService.assertOwnership ownerId pkg).Uses EtablieApp := by
  refine (owner_etablie ownerId).bind fun agency => ?_
  split <;> trivial

theorem close_etablie (ownerId : UserId) : (OumraHajj.PackagesService.close ownerId id).Uses EtablieApp :=
  (package_etablie id).bind fun pkg => (packageOwnership_etablie ownerId pkg).bind fun _ =>
    packageUpdate_etablie _ _

theorem reserveSeat_etablie : (OumraHajj.PackagesService.reserveSeat id).Uses EtablieApp := by
  refine (package_etablie id).bind fun pkg => ?_
  split
  · trivial
  split
  · exact (packageUpdate_etablie _ _).bind fun _ => trivial
  · exact packageUpdate_etablie _ _

theorem createBooking_etablie (pilgrimId : UserId) :
    (OumraHajj.BookingsService.create pilgrimId id).Uses EtablieApp :=
  (package_etablie id).bind fun _ => ⟨trivial, fun _ => (reserveSeat_etablie id).bind fun _ =>
    ⟨trivial, fun _ => trivial⟩⟩

theorem cancel_etablie (pilgrimId : UserId) (bookingId : BookingId) :
    (OumraHajj.BookingsService.cancel pilgrimId bookingId).Uses EtablieApp := by
  refine (booking_etablie bookingId).bind fun booking => ?_
  split
  · trivial
  split
  · exact ((package_etablie _).bind fun _ => packageUpdate_etablie _ _).bind fun _ =>
      updateStatus_etablie _ _
  · exact updateStatus_etablie _ _

end Packages

/-! ## The payments and the documents -/

section Payments

variable (id : PaymentId)

theorem payment_etablie : (PaymentsService.findByIdOrFail id).Uses EtablieApp := by
  refine ⟨trivial, fun r => ?_⟩
  cases r <;> trivial

theorem paymentUpdate_etablie (data : PaymentUpdate) : (PaymentsService.update id data).Uses EtablieApp := by
  refine ⟨trivial, fun r => ?_⟩
  cases r <;> trivial

theorem initiate_etablie (pilgrimId : UserId) (dto : InitiatePaymentDto) :
    (PaymentsService.initiate pilgrimId dto).Uses EtablieApp := by
  refine (booking_etablie dto.bookingId).bind fun booking => ?_
  split
  · trivial
  refine ⟨trivial, fun count => ⟨trivial, fun reference => ?_⟩⟩
  cases reference with
  | none => trivial
  | some providerReference =>
    refine ⟨trivial, fun r => ?_⟩
    rcases r with _ | ⟨paymentId, payment⟩ <;> trivial

theorem webhook_etablie (dto : PaymentWebhookDto) :
    (PaymentsService.handleWebhook dto).Uses EtablieApp := by
  have hreconcile : ∀ bookingId,
      (PaymentsService.reconcileBookingPaymentStep bookingId).Uses EtablieApp := by
    intro bookingId
    refine (booking_etablie bookingId).bind fun booking => (package_etablie _).bind fun pkg =>
      ⟨trivial, fun payments => ?_⟩
    simp only [Prog.pure_eq, Prog.ret_bind]
    split
    · exact (markStepDone_etablie bookingId .payment).bind fun _ => trivial
    · trivial
  refine ⟨trivial, fun r => ?_⟩
  rcases r with _ | ⟨paymentId, payment⟩
  · trivial
  refine (paymentUpdate_etablie paymentId _).bind fun payment => ?_
  split
  · exact (hreconcile payment.bookingId).bind fun _ => trivial
  · trivial

theorem requestRefund_etablie (requesterId : UserId) (requesterRole : Role) :
    (PaymentsService.requestRefund requesterId requesterRole id).Uses EtablieApp := by
  have hauthorized : (PaymentsService.findAuthorizedOrFail requesterId requesterRole id).Uses EtablieApp := by
    refine (payment_etablie id).bind fun payment => (booking_etablie payment.bookingId).bind fun booking => ?_
    split
    · trivial
    split
    · refine (owner_etablie requesterId).bind fun agency => ?_
      split <;> trivial
    · trivial
  have hcontext : ∀ bookingId, (RefundPolicyService.contextFor bookingId).Uses EtablieApp := by
    intro bookingId
    refine ⟨trivial, fun now => ⟨trivial, fun r => ?_⟩⟩
    rcases r with _ | ⟨reservation, pkg⟩ <;> trivial
  refine hauthorized.bind fun payment => ?_
  split
  · trivial
  refine (booking_etablie payment.bookingId).bind fun booking => (hcontext booking.id).bind fun contexte => ?_
  simp only
  split
  · trivial
  refine ⟨trivial, fun accepted => ?_⟩
  cases accepted with
  | false => trivial
  | true =>
    exact (paymentUpdate_etablie payment.id _).bind fun _ => (uses_send informs_etablie _).bind fun _ => trivial

end Payments

section Documents

variable (id : DocumentId) (ownerId : UserId)

theorem document_etablie : (DocumentsService.findByIdOrFail id).Uses EtablieApp := by
  refine ⟨trivial, fun r => ?_⟩
  cases r <;> trivial

theorem documentUpdate_etablie (data : DocumentUpdate) : (DocumentsService.update id data).Uses EtablieApp := by
  refine ⟨trivial, fun r => ?_⟩
  cases r <;> trivial

theorem documentOwnership_etablie (doc : PilgrimDocumentShape) :
    (DocumentsService.assertAgencyOwnership ownerId doc).Uses EtablieApp := by
  refine (booking_etablie doc.bookingId).bind fun booking => (owner_etablie ownerId).bind fun agency => ?_
  split <;> trivial

theorem upload_etablie (pilgrimId : UserId) (bookingId : BookingId) (type : PilgrimDocumentType)
    (expiresAt : Option Time) :
    (DocumentsService.upload pilgrimId bookingId type expiresAt).Uses EtablieApp := by
  refine (booking_etablie bookingId).bind fun booking => ?_
  split
  · trivial
  · exact ⟨trivial, fun storageRef => ⟨trivial, fun created => trivial⟩⟩

theorem validateDocument_etablie : (DocumentsService.validate ownerId id).Uses EtablieApp := by
  refine (document_etablie id).bind fun doc => (documentOwnership_etablie ownerId doc).bind fun _ =>
    (documentUpdate_etablie doc.id _).bind fun updated => Prog.Uses.bind ?_ fun _ => trivial
  refine ⟨trivial, fun docs => ?_⟩
  simp only [Prog.ret_bind]
  split
  · exact (markStepDone_etablie updated.bookingId .documents).bind fun _ => trivial
  · trivial

end Documents

theorem app_handler_etablie (q : OumraHajj.Request) : (OumraHajj.handler q).Uses EtablieApp := by
  cases q with
  | createBooking pilgrimId packageId => exact (createBooking_etablie packageId pilgrimId).void
  | cancelBooking pilgrimId bookingId => exact (cancel_etablie pilgrimId bookingId).void
  | updateStep ownerId bookingId key status => exact (updateStep_etablie bookingId ownerId key status).void
  | markStepDone bookingId key => exact (markStepDone_etablie bookingId key).void
  | closePackage ownerId packageId => exact (close_etablie packageId ownerId).void
  | initiatePayment pilgrimId dto => exact (initiate_etablie pilgrimId dto).void
  | webhook dto => exact (webhook_etablie dto).void
  | requestRefund requesterId requesterRole paymentId =>
    exact (requestRefund_etablie paymentId requesterId requesterRole).void
  | uploadDocument pilgrimId bookingId type expiresAt =>
    exact (upload_etablie pilgrimId bookingId type expiresAt).void
  | validateDocument ownerId documentId => exact (validateDocument_etablie documentId ownerId).void
  | rejectDocument ownerId documentId reason =>
    exact ((document_etablie documentId).bind fun doc => (documentOwnership_etablie ownerId doc).bind fun _ =>
      documentUpdate_etablie doc.id _).void

/-! ## The groups -/

theorem left_etablie {α : Type} {p : OumraHajj.Req α} (hp : p.Uses EtablieApp) :
    (Groups.app p).Uses Etablie := by
  have hcatalogue : (Prog.left p : Catalogue.Req α).Uses fun c => Etablie (.inl c) := hp.left fun _ h => h
  exact hcatalogue.left fun _ h => h

theorem group_etablie (id : GroupId) : (GroupsService.findByIdOrFail id).Uses Etablie := by
  refine ⟨trivial, fun r => ?_⟩
  cases r <;> trivial

theorem groupOwnership_etablie (ownerId : UserId) (group : GroupShape) :
    (GroupsService.assertAgencyOwnership ownerId group).Uses Etablie := by
  refine (left_etablie (owner_etablie ownerId)).bind fun agency => ?_
  split <;> trivial

theorem user_etablie (id : UserId) : (OumraHajj.UsersService.findByIdOrFail id).Uses EtablieApp := by
  refine ⟨trivial, fun r => ?_⟩
  cases r <;> trivial

theorem assignGuide_etablie (ownerId : UserId) (groupId : GroupId) (guideUserId : UserId) :
    (GroupsService.assignGuide ownerId groupId guideUserId).Uses Etablie := by
  refine (group_etablie groupId).bind fun group => (groupOwnership_etablie ownerId group).bind fun _ =>
    (left_etablie (user_etablie guideUserId)).bind fun guide => ?_
  split
  · trivial
  split
  · trivial
  refine Prog.Uses.bind ⟨trivial, fun forfait => ?_⟩ fun _ => ⟨trivial, fun r => ?_⟩
  · rcases forfait with _ | forfait
    · trivial
    refine ⟨trivial, fun autre => ?_⟩
    rcases autre with _ | title
    · refine ⟨trivial, fun absence => ?_⟩
      cases absence <;> trivial
    · trivial
  · cases r <;> trivial

theorem assignGroup_etablie (ownerId : UserId) (bookingId : BookingId) (groupId : GroupId) :
    (Groups.BookingsService.assignGroup ownerId bookingId groupId).Uses Etablie := by
  refine (left_etablie (booking_etablie bookingId)).bind fun booking =>
    (left_etablie (bookingOwnership_etablie ownerId booking)).bind fun _ => Prog.Uses.bind ?_ fun _ => ?_
  · refine (group_etablie groupId).bind fun group => (groupOwnership_etablie ownerId group).bind fun _ => ?_
    split
    · exact group_etablie groupId
    · refine ⟨trivial, fun r => ?_⟩
      cases r with
      | error code => trivial
      | ok _ => exact group_etablie groupId
  · refine ⟨trivial, fun r => ?_⟩
    cases r <;> trivial

theorem updateLocation_etablie (userId : UserId) (groupId : GroupId) (lat lng : ℚ) :
    (GroupsService.updateLocation userId groupId lat lng).Uses Etablie := by
  refine (group_etablie groupId).bind fun group => ?_
  split
  · trivial
  · refine ⟨trivial, fun r => ?_⟩
    cases r with
    | error code => trivial
    | ok _ => exact group_etablie groupId

theorem alerter_etablie (group : GroupShape) (type : NotificationType) (title content : Texte)
    (isCritical : Bool) : (GroupsService.alerter group type title content isCritical).Uses Etablie := by
  unfold GroupsService.alerter
  split
  · exact left_etablie (uses_send informs_etablie _)
  · trivial

theorem triggerSos_etablie (pilgrimUserId : UserId) (groupId : GroupId) :
    (GroupsService.triggerSos pilgrimUserId groupId).Uses Etablie := by
  refine (group_etablie groupId).bind fun group => ?_
  split
  · trivial
  refine (left_etablie (user_etablie pilgrimUserId)).bind fun pilgrim =>
    (alerter_etablie group _ _ _ _).bind fun _ => ?_
  split
  · split
    · trivial
    · exact left_etablie (Prog.uses_exec trivial)
  · trivial

/-! ## The requests -/

theorem catalogue_etablie {α : Type} {p : Catalogue.Req α} (hp : p.Uses fun c => Etablie (.inl c)) :
    (Prog.left p : Groups.Req α).Uses Etablie := hp.left fun _ h => h

/-- Every request of the bookings, the packages and the groups but `createPackage`. -/
theorem handler_etablie (q : Groups.Request) :
    (∃ ownerId dto, q = .catalogue (.createPackage ownerId dto)) ∨ (Groups.handler q).Uses Etablie := by
  cases q with
  | catalogue q =>
    cases q with
    | app q => exact .inr (left_etablie (app_handler_etablie q))
    | createPackage ownerId dto => exact .inl ⟨ownerId, dto, rfl⟩
    | updatePackage ownerId packageId dto =>
      have hp : (Catalogue.PackagesService.update ownerId packageId dto).Uses fun c => Etablie (.inl c) := by
        refine ((package_etablie packageId).left fun _ h => h).bind fun pkg =>
          ((packageOwnership_etablie ownerId pkg).left fun _ h => h).bind fun _ => ⟨trivial, fun r => ?_⟩
        cases r <;> trivial
      exact .inr (catalogue_etablie hp.void)
    | replacePolicy ownerId dto =>
      have hp : (Catalogue.RefundPolicyService.replaceForOwner ownerId dto).Uses fun c =>
          Etablie (.inl c) := by
        refine ((owner_etablie ownerId).left fun _ h => h).bind fun agence => ?_
        split
        · trivial
        · refine ⟨trivial, fun r => ?_⟩
          cases r with
          | error code => trivial
          | ok _ => exact ⟨trivial, fun _ => trivial⟩
      exact .inr (catalogue_etablie hp.void)
  | createGroup ownerId dto =>
    refine .inr (Prog.Uses.void ((left_etablie (owner_etablie ownerId)).bind fun agency =>
      ⟨trivial, fun r => ?_⟩))
    cases r <;> trivial
  | assignGuide ownerId groupId guideUserId =>
    exact .inr (assignGuide_etablie ownerId groupId guideUserId).void
  | assignGroup ownerId bookingId groupId =>
    exact .inr (assignGroup_etablie ownerId bookingId groupId).void
  | addItineraryStep ownerId groupId dto =>
    refine .inr (Prog.Uses.void ((group_etablie groupId).bind fun group =>
      (groupOwnership_etablie ownerId group).bind fun _ => ⟨trivial, fun r => ?_⟩))
    cases r with
    | error code => trivial
    | ok _ => exact group_etablie groupId
  | updateLocation userId groupId lat lng => exact .inr (updateLocation_etablie userId groupId lat lng).void
  | clearLocation userId groupId => exact .inr ⟨trivial, fun _ => trivial⟩
  | triggerSos pilgrimUserId groupId => exact .inr (triggerSos_etablie pilgrimUserId groupId)
  | triggerLostAlert pilgrimUserId groupId lat lng =>
    refine .inr ((group_etablie groupId).bind fun group => ?_)
    split
    · trivial
    · exact (updateLocation_etablie pilgrimUserId groupId lat lng).bind fun _ =>
        (left_etablie (user_etablie pilgrimUserId)).bind fun pilgrim => alerter_etablie group _ _ _ _
  | replaceSpecialNeeds userId dto =>
    refine .inr (Prog.Uses.void ⟨trivial, fun r => ?_⟩)
    cases r <;> trivial

end OumraHajj.Agencies
