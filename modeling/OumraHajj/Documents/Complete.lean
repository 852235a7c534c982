import OumraHajj.Services.Requests
import OumraHajj.Spec.Documents
import OumraHajj.Spec.Packages
import OumraHajj.Spec.Payments

/-!
# A complete document step

`validate` completes the `DOCUMENTS` step of a booking when every required type has a validated
document, and `reject` leaves the step as it is, also when it takes away the last validated document of
a type. `complete_iff` is the exact condition under which a step that is done means complete documents
(`Db.Complet`) through a run.

Of the other requests only a step update writes the steps of a booking: they leave the documents, and
the `DOCUMENTS` step is done only where it was (`Db.Avance`).
-/

namespace OumraHajj

open Async

namespace Db

/-- The validated documents of the booking that have the type. -/
def validated (s : Db) (id : BookingId) (type : PilgrimDocumentType) : Finset DocumentId :=
  s.documents.ids fun d => d.bookingId = id ∧ d.type = type ∧ d.status = .validated

/-- The `DOCUMENTS` step of the booking is done. -/
def documentsDone (s : Db) (id : BookingId) : Bool :=
  (s.bookings[id]?).any fun b => (b.steps.get .documents).status = .done

/-- A booking whose `DOCUMENTS` step is done has a validated document of each required type. -/
def Complet (s : Db) : Prop :=
  ∀ id, s.documentsDone id = true → ∀ type ∈ requiredTypes, (s.validated id type).Nonempty

/-- The row of a document is replaced. -/
def putDocument (s : Db) (id : DocumentId) (d : PilgrimDocument) : Db :=
  { s with documents := s.documents.set id d }

/-- The documents are the same, and the `DOCUMENTS` step of a booking is done only where it was. -/
structure Avance (s s' : Db) : Prop where
  documents : s'.documents = s.documents
  done : ∀ id, s'.documentsDone id = true → s.documentsDone id = true

variable {s s' s'' : Db} {id : BookingId}

theorem documentsDone_iff :
    s.documentsDone id = true ↔
      ∃ b, s.bookings[id]? = some b ∧ (b.steps.get .documents).status = .done := by
  unfold documentsDone
  rw [Option.any_eq_true]
  simp

theorem complet_iff_lt : (∀ id < s.bookings.length, s.documentsDone id = true →
    ∀ type ∈ requiredTypes, (s.validated id type).Nonempty) ↔ s.Complet := by
  constructor
  · intro h id hdone
    obtain ⟨b, hb, -⟩ := documentsDone_iff.mp hdone
    exact h id (Table.lt_of_get hb) hdone
  · intro h id _ hdone
    exact h id hdone

instance : DecidablePred Complet := fun s =>
  decidable_of_iff (∀ id < s.bookings.length, s.documentsDone id = true →
    ∀ type ∈ requiredTypes, (s.validated id type).Nonempty) complet_iff_lt

theorem documentsDone_congr (h : s'.bookings = s.bookings) :
    s'.documentsDone id = s.documentsDone id := by
  unfold documentsDone
  rw [h]

theorem Avance.refl (s : Db) : s.Avance s := ⟨rfl, fun _ h => h⟩

theorem Avance.trans (h : s.Avance s') (h' : s'.Avance s'') : s.Avance s'' :=
  ⟨h'.documents.trans h.documents, fun id hd => h.done id (h'.done id hd)⟩

theorem Avance.of_eq (hd : s'.documents = s.documents) (hb : s'.bookings = s.bookings) :
    s.Avance s' :=
  ⟨hd, fun id h => by rwa [documentsDone_congr hb] at h⟩

theorem Avance.complet (h : s.Avance s') (hs : s.Complet) : s'.Complet := by
  intro id hd type ht
  unfold validated
  rw [h.documents]
  exact hs id (h.done id hd) type ht

/-- A row is replaced by one whose `DOCUMENTS` step is done only if it was. -/
theorem Avance.putBooking {b b' : Booking} (hb : s.bookings[id]? = some b)
    (h : (b'.steps.get .documents).status = .done → (b.steps.get .documents).status = .done) :
    s.Avance (s.putBooking id b') := by
  refine ⟨rfl, fun i hi => ?_⟩
  obtain ⟨c, hc, hdone⟩ := documentsDone_iff.mp hi
  unfold Db.putBooking at hc
  rw [Table.get_set hb] at hc
  split at hc
  · next heq =>
    obtain rfl := Option.some.inj hc
    subst heq
    exact documentsDone_iff.mpr ⟨b, hb, h hdone⟩
  · exact documentsDone_iff.mpr ⟨c, hc, hdone⟩

/-- The update of another step. -/
theorem Avance.stepped {key : DossierStepKey} {status : DossierStepStatus}
    (h : s.Stepped id key status s') (hk : key ≠ .documents) : s.Avance s' := by
  rcases h.core_eq with ⟨-, hc⟩ | ⟨b, now, hb, hc⟩
  · exact .of_eq (documents_of_core hc) (bookings_of_core hc)
  · refine @Avance.trans s (s.putBooking id (b.withStep key status now).confirmIfDone) s' ?_ ?_
    · refine Avance.putBooking hb fun hdone => ?_
      rwa [Booking.confirmIfDone_steps, Booking.withStep, BookingSteps.get_set, if_neg hk] at hdone
    · exact .of_eq (documents_of_core hc) (bookings_of_core hc)

end Db

/-! ## The validated documents of a booking -/

namespace Db

variable {s : Db} {id : BookingId} {type : PilgrimDocumentType}

theorem mem_requiredTypes (type : PilgrimDocumentType) : type ∈ requiredTypes := by
  cases type <;> decide

/-- What `allValidated` tells of the booking. -/
theorem validated_of_allValidated
    (h : DocumentsService.allValidated ((s.documents.findMany (·.bookingId = id)).map fun x =>
      toDocumentShape x.1 x.2) = true) (ht : type ∈ requiredTypes) :
    (s.validated id type).Nonempty := by
  have hany := List.all_eq_true.mp h type ht
  obtain ⟨shape, hs, hv⟩ := List.any_eq_true.mp hany
  obtain ⟨⟨i, d⟩, hd, rfl⟩ := List.mem_map.mp hs
  obtain ⟨hmem, hid⟩ := List.mem_filter.mp hd
  have hv' : d.status = .validated ∧ d.type = type := of_decide_eq_true hv
  refine ⟨i, Table.mem_ids.mpr ⟨d, Table.mem_withIds.mp hmem, ?_⟩⟩
  simpa [hv'] using hid

/-- A document that is created, pending, is not a validated one. -/
theorem validated_append {d : PilgrimDocument} (hd : d.status = .pending) :
    ({ s with documents := s.documents ++ [d] } : Db).validated id type = s.validated id type := by
  unfold validated
  rw [Table.ids_append]
  simp [hd]

/-- A validation takes no validated document away. -/
theorem validated_subset {i : DocumentId} {d d' : PilgrimDocument} (hd : s.documents[i]? = some d)
    (hb : d'.bookingId = d.bookingId) (htype : d'.type = d.type) (hst : d'.status = .validated) :
    s.validated id type ⊆ (s.putDocument i d').validated id type := by
  intro j hj
  unfold validated putDocument at *
  rw [Table.mem_ids_set hd]
  split
  · next heq =>
    subst heq
    have := (Table.mem_ids_of_get hd).mp hj
    simp only [decide_eq_true_eq] at this ⊢
    exact ⟨hb.trans this.1, htype.trans this.2.1, hst⟩
  · exact hj

/-- A rejection takes the document away. -/
theorem validated_erase {i : DocumentId} {d d' : PilgrimDocument} (hd : s.documents[i]? = some d)
    (hst : d'.status = .rejected) :
    (s.putDocument i d').validated id type = (s.validated id type).erase i := by
  unfold validated putDocument
  exact Table.ids_set_erase hd (by simp [hst])

end Db

/-! ## The other requests -/

section Others

variable {s s' : Db}

theorem initiate_avance {pilgrimId : UserId} {dto : InitiatePaymentDto}
    {r : Except Erreur PaymentShape}
    (h : prisma.Runs (PaymentsService.initiate pilgrimId dto) s r s') : s.Avance s' := by
  rcases initiate_runs h with rfl | ⟨p, -, -, -, -, -, -, rfl⟩
  · exact .refl _
  · exact .of_eq rfl rfl

theorem handleWebhook_avance {dto : PaymentWebhookDto} {r : Except Erreur PaymentShape}
    (h : prisma.Runs (PaymentsService.handleWebhook dto) s r s') : s.Avance s' := by
  rcases handleWebhook_runs h with ⟨-, rfl⟩ | ⟨id, p, now, -, ⟨-, -, hs⟩ | ⟨-, rfl⟩⟩
  · exact .refl _
  · refine Db.Avance.trans ?_ (.stepped hs (by decide))
    exact .of_eq rfl rfl
  · exact .of_eq rfl rfl

theorem requestRefund_avance {requesterId : UserId} {requesterRole : Role} {id : PaymentId}
    {r : Except Erreur PaymentShape}
    (h : prisma.Runs (PaymentsService.requestRefund requesterId requesterRole id) s r s') :
    s.Avance s' := by
  rcases requestRefund_runs h with rfl | ⟨p, b, rate, now, -, -, -, -, -, hc⟩
  · exact .refl _
  · refine Db.Avance.trans ?_ (.of_eq (documents_of_core hc) (bookings_of_core hc))
    exact .of_eq rfl rfl

theorem create_avance {pilgrimId : UserId} {id : PackageId} {r : Except Erreur BookingShape}
    (h : prisma.Runs (BookingsService.create pilgrimId id) s r s') : s.Avance s' := by
  rcases create_runs h with rfl | ⟨p, -, rfl⟩ | ⟨p, b, -, -, -, -, -, hsteps, rfl⟩
  · exact .refl _
  · exact .of_eq rfl rfl
  · refine ⟨rfl, fun i hi => ?_⟩
    obtain ⟨c, hc, hdone⟩ := Db.documentsDone_iff.mp hi
    have hget : (s.bookings ++ [b])[i]? = some c := hc
    rw [Table.get_append] at hget
    split at hget
    · -- The steps of the new booking are pending.
      obtain rfl := Option.some.inj hget
      rw [hsteps] at hdone
      cases hdone
    · exact Db.documentsDone_iff.mpr ⟨c, hget, hdone⟩

theorem cancel_avance {pilgrimId : UserId} {id : BookingId} {r : Except Erreur BookingShape}
    (h : prisma.Runs (BookingsService.cancel pilgrimId id) s r s') : s.Avance s' := by
  rcases cancel_runs h with ⟨-, rfl⟩ | ⟨b, p, hc, rfl⟩
  · exact .refl _
  · have hput : s.Avance (s.putPackage b.packageId p.released) := .of_eq rfl rfl
    have hb : (s.putPackage b.packageId p.released).bookings[id]? = some b :=
      (Db.cancelled_eq_some.mp hc).1
    exact hput.trans (.putBooking hb fun hdone => hdone)

theorem close_avance {ownerId : UserId} {id : PackageId} {r : Except Erreur PackageShape}
    (h : prisma.Runs (PackagesService.close ownerId id) s r s') : s.Avance s' := by
  rcases close_runs h with rfl | ⟨p, -, rfl⟩
  · exact .refl _
  · exact .of_eq rfl rfl

end Others

/-- The request is about a document. -/
def Request.SurDocument : Request → Prop
  | .uploadDocument _ _ _ _ | .validateDocument _ _ | .rejectDocument _ _ _ => True
  | _ => False

/-- The request is not an edit of the `DOCUMENTS` step by hand. -/
def Request.SansMain : Request → Prop
  | .updateStep _ _ key _ | .markStepDone _ key => key ≠ .documents
  | _ => True

instance : DecidablePred Request.SansMain
  | .updateStep _ _ key _ | .markStepDone _ key => inferInstanceAs (Decidable (key ≠ .documents))
  | .createBooking _ _ | .cancelBooking _ _ | .closePackage _ _ | .initiatePayment _ _ | .webhook _
  | .requestRefund _ _ _ | .uploadDocument _ _ _ _ | .validateDocument _ _ | .rejectDocument _ _ _ =>
    isTrue trivial

/-- **Frame.** A request that is not about a document and does not edit the `DOCUMENTS` step. -/
theorem other_avance {q : Request} (hq : ¬ q.SurDocument) (hm : q.SansMain) {s s' : Db}
    {r : Except Erreur Unit} (h : prisma.Runs (handler q) s r s') : s.Avance s' := by
  cases q with
  | createBooking pilgrimId packageId =>
    obtain ⟨_, h⟩ := Backend.runs_void h
    exact create_avance h
  | cancelBooking pilgrimId bookingId =>
    obtain ⟨_, h⟩ := Backend.runs_void h
    exact cancel_avance h
  | updateStep ownerId bookingId key status =>
    obtain ⟨_, h⟩ := Backend.runs_void h
    have hs := updateStep_runs h
    split at hs
    · exact .stepped hs hm
    · exact hs ▸ .refl _
  | markStepDone bookingId key =>
    obtain ⟨_, h⟩ := Backend.runs_void h
    exact .stepped (markStepDone_runs h) hm
  | closePackage ownerId packageId =>
    obtain ⟨_, h⟩ := Backend.runs_void h
    exact close_avance h
  | initiatePayment pilgrimId dto =>
    obtain ⟨_, h⟩ := Backend.runs_void h
    exact initiate_avance h
  | webhook dto =>
    obtain ⟨_, h⟩ := Backend.runs_void h
    exact handleWebhook_avance h
  | requestRefund requesterId requesterRole paymentId =>
    obtain ⟨_, h⟩ := Backend.runs_void h
    exact requestRefund_avance h
  | uploadDocument | validateDocument | rejectDocument => exact absurd trivial hq

/-! ## The requests about a document -/

namespace Db

/-- The user owns the agency of the document's booking. -/
def decides (s : Db) (ownerId : UserId) (documentId : DocumentId) : Bool :=
  (s.documents[documentId]?).any fun d => s.owns ownerId d.bookingId

end Db

section Documents

variable {s s' : Db}

/-- A request of the owner of the agency goes on; any other one ends without a change. -/
theorem documentOwnership_bind {α : Type} {ownerId : UserId} {doc : PilgrimDocumentShape}
    {f : Unit → Req α} {r : Except Erreur α}
    (h : prisma.Runs (Prog.bind (DocumentsService.assertAgencyOwnership ownerId doc) f) s r s') :
    (s.owns ownerId doc.bookingId = true ∧ prisma.Runs (f ()) s r s') ∨
      (s.owns ownerId doc.bookingId = false ∧ s' = s) := by
  simp only [DocumentsService.assertAgencyOwnership, BookingsService.findByIdOrFail,
    AgenciesService.findByOwnerOrFail, Prog.bind_eq, await_bind, Prog.call_bind, Backend.runs_call,
    prisma_exec, exec] at h
  obtain ⟨_, h⟩ := h
  unfold Db.owns
  rcases hb : s.bookings[doc.bookingId]? with _ | b
  · simp only [hb, Prog.fail_bind, Backend.runs_fail] at h
    exact .inr ⟨rfl, h.2⟩
  simp only [hb, Prog.pure_eq, Prog.ret_bind, Prog.call_bind, Backend.runs_call, prisma_exec, exec]
    at h
  obtain ⟨_, h⟩ := h
  rcases ha : s.agencyOf ownerId with _ | ⟨agencyId, agency⟩
  · simp only [ha, Prog.fail_bind, Backend.runs_fail] at h
    exact .inr ⟨rfl, h.2⟩
  simp only [ha, Prog.ret_bind] at h
  by_cases heq : (toBookingShape doc.bookingId b).agencyId = (toAgencyShape agencyId agency).id
  · rw [if_neg (not_not.mpr heq)] at h
    exact .inl ⟨decide_eq_true heq, h⟩
  · rw [if_pos heq] at h
    exact .inr ⟨decide_eq_false heq, h.2⟩

/-- What `validate` and `reject` have in common: the owner of the agency writes the document. -/
theorem decision_runs {α : Type} {ownerId : UserId} {documentId : DocumentId}
    {data : DocumentUpdate} {f : PilgrimDocumentShape → Req α} {r : Except Erreur α}
    (h : prisma.Runs ((DocumentsService.findByIdOrFail documentId).bind fun doc =>
      (DocumentsService.assertAgencyOwnership ownerId doc).bind fun _ =>
        (DocumentsService.update doc.id data).bind f) s r s') :
    (s.decides ownerId documentId = false ∧ s' = s) ∨
      ∃ d, s.documents[documentId]? = some d ∧ s.owns ownerId d.bookingId = true ∧
        prisma.Runs (f (toDocumentShape documentId (data.apply d)))
          (s.putDocument documentId (data.apply d)) r s' := by
  simp only [DocumentsService.findByIdOrFail, Prog.bind_eq, await_bind, Prog.call_bind,
    Backend.runs_call, prisma_exec, exec] at h
  obtain ⟨_, h⟩ := h
  unfold Db.decides
  rcases hd : s.documents[documentId]? with _ | d
  · simp only [hd, Prog.fail_bind, Backend.runs_fail] at h
    exact .inl ⟨rfl, h.2⟩
  simp only [hd, Prog.pure_eq, Prog.ret_bind] at h
  rcases documentOwnership_bind h with ⟨ho, h⟩ | ⟨ho, rfl⟩
  · simp only [DocumentsService.update, toDocumentShape, Prog.bind_eq, await_bind, Prog.call_bind,
      Backend.runs_call, prisma_exec, exec, hd, Prog.pure_eq, Prog.ret_bind] at h
    obtain ⟨_, h⟩ := h
    exact .inr ⟨d, rfl, ho, h⟩
  · exact .inl ⟨ho, rfl⟩

theorem upload_runs {pilgrimId : UserId} {bookingId : BookingId} {type : PilgrimDocumentType}
    {expiresAt : Option Time} {r : Except Erreur PilgrimDocumentShape}
    (h : prisma.Runs (DocumentsService.upload pilgrimId bookingId type expiresAt) s r s') :
    s' = s ∨ ∃ d, d.status = .pending ∧ s' = { s with documents := s.documents ++ [d] } := by
  simp only [DocumentsService.upload, BookingsService.findByIdOrFail, Prog.bind_eq, await_bind,
    Prog.call_bind, Backend.runs_call, prisma_exec, exec] at h
  obtain ⟨_, h⟩ := h
  rcases hb : s.bookings[bookingId]? with _ | b
  · simp only [hb, Prog.fail_bind, Backend.runs_fail] at h
    exact .inl h.2
  simp only [hb, Prog.pure_eq, Prog.ret_bind] at h
  by_cases hpil : (toBookingShape bookingId b).pilgrimId = pilgrimId
  · rw [if_neg (not_not.mpr hpil)] at h
    simp only [Backend.runs_call, prisma_exec, exec, Backend.runs_ret] at h
    obtain ⟨_, _, -, rfl⟩ := h
    exact .inr ⟨_, rfl, rfl⟩
  · rw [if_pos hpil] at h
    exact .inl h.2

theorem completed_runs {id : BookingId} {r : Except Erreur Unit}
    (h : prisma.Runs (DocumentsService.maybeCompleteDocumentsStep id) s r s') :
    s' = s ∨ ((∀ type ∈ requiredTypes, (s.validated id type).Nonempty) ∧
      s.Stepped id .documents .done s') := by
  rcases maybeCompleteDocumentsStep_cases h with ⟨hall, hs⟩ | hs
  · exact .inr ⟨fun type ht => Db.validated_of_allValidated hall ht, hs⟩
  · exact .inl hs

/-- A validation writes the document, and completes the step if every required type then has a
validated document. -/
theorem validate_cases {ownerId : UserId} {documentId : DocumentId}
    {r : Except Erreur PilgrimDocumentShape}
    (h : prisma.Runs (DocumentsService.validate ownerId documentId) s r s') :
    s' = s ∨ ∃ d d', s.documents[documentId]? = some d ∧ d'.bookingId = d.bookingId ∧
      d'.type = d.type ∧ d'.status = .validated ∧
      (s' = s.putDocument documentId d' ∨
        ((∀ type ∈ requiredTypes,
          ((s.putDocument documentId d').validated d.bookingId type).Nonempty) ∧
          (s.putDocument documentId d').Stepped d.bookingId .documents .done s')) := by
  rcases decision_runs h with ⟨-, rfl⟩ | ⟨d, hd, -, h⟩
  · exact .inl rfl
  refine .inr ⟨d, DocumentUpdate.apply { status := .validated, rejectionReason := none } d, hd, rfl,
    rfl, rfl, ?_⟩
  rcases Backend.runs_bind.mp h with ⟨_, _, hm, -, rfl⟩ | ⟨_, hm, -⟩
  · exact completed_runs hm
  · exact completed_runs hm

/-- A rejection of the owner of the agency writes the document, and nothing else. -/
theorem reject_cases {ownerId : UserId} {documentId : DocumentId} {reason : String}
    {r : Except Erreur PilgrimDocumentShape}
    (h : prisma.Runs (DocumentsService.reject ownerId documentId reason) s r s') :
    (s.decides ownerId documentId = false ∧ s' = s) ∨
      ∃ d d', s.documents[documentId]? = some d ∧ s.owns ownerId d.bookingId = true ∧
        d'.status = .rejected ∧ s' = s.putDocument documentId d' := by
  have hret : DocumentsService.reject ownerId documentId reason =
      (DocumentsService.findByIdOrFail documentId).bind fun doc =>
        (DocumentsService.assertAgencyOwnership ownerId doc).bind fun _ =>
          (DocumentsService.update doc.id
            { status := .rejected, rejectionReason := some reason }).bind .ret := by
    simp only [Prog.bind_ret]
    rfl
  rw [hret] at h
  rcases decision_runs h with h | ⟨d, hd, ho, -, hs⟩
  · exact .inl h
  · exact .inr ⟨d, _, hd, ho, rfl, hs⟩

end Documents

/-! ## Runs -/

/-- The document is the last validated one of its type in a booking whose `DOCUMENTS` step is done. -/
def Db.dernierValide (s : Db) (documentId : DocumentId) : Bool :=
  (s.documents[documentId]?).any fun d =>
    s.documentsDone d.bookingId ∧ s.validated d.bookingId d.type = {documentId}

/-- The owner of the agency rejects the last validated document of its type. -/
def Request.Retire (s : Db) : Request → Prop
  | .rejectDocument ownerId documentId _ =>
    s.decides ownerId documentId = true ∧ s.dernierValide documentId = true
  | _ => False

instance (s : Db) : (q : Request) → Decidable (q.Retire s)
  | .rejectDocument _ _ _ => inferInstanceAs (Decidable (_ = true ∧ _ = true))
  | .createBooking _ _ | .cancelBooking _ _ | .updateStep _ _ _ _ | .markStepDone _ _
  | .closePackage _ _ | .initiatePayment _ _ | .webhook _ | .requestRefund _ _ _
  | .uploadDocument _ _ _ _ | .validateDocument _ _ => isFalse id

namespace Db

variable {s : Db} {id : BookingId} {documentId : DocumentId} {d : PilgrimDocument}

theorem decides_iff {ownerId : UserId} (h : s.documents[documentId]? = some d) :
    s.decides ownerId documentId = true ↔ s.owns ownerId d.bookingId = true := by
  unfold decides
  rw [h, Option.any_some]

theorem dernierValide_iff (h : s.documents[documentId]? = some d) :
    s.dernierValide documentId = true ↔
      s.documentsDone d.bookingId = true ∧ s.validated d.bookingId d.type = {documentId} := by
  unfold dernierValide
  rw [h, Option.any_some, decide_eq_true_iff]

theorem of_mem_validated {type : PilgrimDocumentType} (h : s.documents[documentId]? = some d)
    (hmem : documentId ∈ s.validated id type) : d.bookingId = id ∧ d.type = type := by
  have := (Table.mem_ids_of_get h).mp hmem
  simp only [decide_eq_true_eq] at this
  exact ⟨this.1, this.2.1⟩

end Db

section Runs

variable {s s' : Db}

/-- What `validate` leaves of a complete dossier is complete: the step is completed only over a complete
dossier. -/
theorem validate_complet {ownerId : UserId} {documentId : DocumentId}
    {r : Except Erreur PilgrimDocumentShape}
    (h : prisma.Runs (DocumentsService.validate ownerId documentId) s r s') (hs : s.Complet) :
    s'.Complet := by
  rcases validate_cases h with rfl | ⟨d, d', hd, hb, htype, hst, h⟩
  · exact hs
  have hput : (s.putDocument documentId d').Complet := by
    intro id hdone type ht
    exact (hs id hdone type ht).mono (Db.validated_subset hd hb htype hst)
  rcases h with rfl | ⟨hall, hstep⟩
  · exact hput
  rcases hstep.core_eq with ⟨-, hc⟩ | ⟨b, now, hbook, hc⟩
  · exact Db.Avance.complet (.of_eq (documents_of_core hc) (bookings_of_core hc)) hput
  intro id hdone type ht
  unfold Db.validated
  rw [show s'.documents = _ from documents_of_core hc]
  rw [Db.documentsDone_congr (bookings_of_core hc)] at hdone
  by_cases hid : id = d.bookingId
  · exact hid ▸ hall type ht
  · refine hput id ?_ type ht
    obtain ⟨c, hget, hcdone⟩ := Db.documentsDone_iff.mp hdone
    unfold Db.putBooking at hget
    rw [Table.get_set hbook, if_neg (Ne.symm hid)] at hget
    exact Db.documentsDone_iff.mpr ⟨c, hget, hcdone⟩

/-- **Step.** A request that does not reject a last validated document. -/
theorem complet_step {q : Request} (hm : q.SansMain) (hs : s.Complet) (hq : ¬ q.Retire s)
    {r : Except Erreur Unit} (h : prisma.Runs (handler q) s r s') : s'.Complet := by
  by_cases hd : q.SurDocument
  swap
  · exact (other_avance hd hm h).complet hs
  cases q with
  | uploadDocument pilgrimId bookingId type expiresAt =>
    obtain ⟨_, h⟩ := Backend.runs_void h
    rcases upload_runs h with rfl | ⟨d, hst, rfl⟩
    · exact hs
    · intro id hdone type ht
      rw [Db.validated_append hst]
      exact hs id hdone type ht
  | validateDocument ownerId documentId =>
    obtain ⟨_, h⟩ := Backend.runs_void h
    exact validate_complet h hs
  | rejectDocument ownerId documentId reason =>
    obtain ⟨_, h⟩ := Backend.runs_void h
    rcases reject_cases h with ⟨-, rfl⟩ | ⟨d, d', hget, ho, hst, rfl⟩
    · exact hs
    intro id hdone type ht
    rw [Db.validated_erase hget hst, Finset.nonempty_iff_ne_empty]
    intro hempty
    rcases Finset.erase_eq_empty_iff _ _ |>.mp hempty with hnone | hlast
    · exact (hs id hdone type ht).ne_empty hnone
    · -- The document is the last one, so the request is the one excluded.
      have hmem : documentId ∈ s.validated id type := hlast ▸ Finset.mem_singleton_self _
      obtain ⟨rfl, rfl⟩ := Db.of_mem_validated hget hmem
      exact hq ⟨Db.decides_iff hget |>.mpr ho, Db.dernierValide_iff hget |>.mpr ⟨hdone, hlast⟩⟩
  | _ => exact hd.elim

/-- A request that rejects a last validated document leaves a step done over an incomplete dossier. -/
theorem not_complet_step {q : Request} (hq : q.Retire s) {r : Except Erreur Unit}
    (h : prisma.Runs (handler q) s r s') : ¬ s'.Complet := by
  cases q with
  | rejectDocument ownerId documentId reason =>
    obtain ⟨hdec, hlast⟩ := hq
    obtain ⟨_, h⟩ := Backend.runs_void h
    rcases reject_cases h with ⟨hno, -⟩ | ⟨d, d', hget, ho, hst, rfl⟩
    · rw [hdec] at hno
      cases hno
    · intro hs'
      obtain ⟨hdone, heq⟩ := Db.dernierValide_iff hget |>.mp hlast
      have hne := hs' d.bookingId hdone d.type (Db.mem_requiredTypes _)
      rw [Db.validated_erase hget hst, heq, Finset.erase_singleton] at hne
      exact Finset.not_nonempty_empty hne
  | _ => exact hq.elim

/-- **Complete dossiers.** In a run that does not edit the `DOCUMENTS` step by hand, a booking whose
`DOCUMENTS` step is done has a validated document of each required type in every state, if and only if
no request of the run rejects the last validated document of a type while the step is done. -/
theorem complet_iff {tr : Trace Request Db} (hr : RunFrom s tr) (hm : ∀ x ∈ tr, x.1.SansMain)
    (hs : s.Complet) :
    (∀ x ∈ tr, x.2.Complet) ↔ Trace.Steps (fun s q _ => ¬ q.Retire s) s tr := by
  rw [← Trace.steps_after (P := Db.Complet) (s := s)]
  refine hr.steps_iff (I := Db.Complet) (A := Request.SansMain) ?_ ?_ hm hs
  · intro s q r s' hs hm hr hq
    have := complet_step hm hs hq hr
    exact ⟨this, this⟩
  · intro s q r s' _ _ hr hq
    exact not_complet_step (not_not.mp hq) hr

end Runs

/-- The dossier of a booking is opened, and its documents are uploaded and validated. -/
def Request.deposes : List Request :=
  .createBooking 0 0 :: requiredTypes.map (fun type => .uploadDocument 0 0 type none) ++
    (List.range requiredTypes.length).map fun i => .validateDocument 1 i

theorem complet_iff_exemple :
    (∀ x ∈ runAll {} .exemple Request.deposes, x.2.Complet) ↔
      Trace.Steps (fun s q _ => ¬ q.Retire s) .exemple (runAll {} .exemple Request.deposes) :=
  complet_iff (Backend.evalAll_run _ _ _) (by decide +kernel) (by decide)

/-- The dossier is complete, and one of its documents is rejected. -/
theorem incomplet :
    ¬ ∀ tr, RunFrom .exemple tr → (∀ x ∈ tr, x.1.SansMain) → ∀ x ∈ tr, x.2.Complet := by
  intro h
  have := h (runAll {} .exemple (Request.deposes ++ [.rejectDocument 1 0 "Illisible"]))
    (Backend.evalAll_run _ _ _) (by decide +kernel)
  revert this
  decide +kernel

end OumraHajj
