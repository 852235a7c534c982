import OumraHajj.Spec.Bookings

/-!
# Documents: what a handler does

The handlers of `DocumentsService` leave bookings, payments and packages as they are
(`SameDossiers`), but for the validation that completes a dossier's documents: it ends with
`markStepDone` on the `DOCUMENTS` step.
-/

namespace OumraHajj

open Async

/-- Bookings, payments and packages are the same. -/
structure SameDossiers (s s' : Db) : Prop where
  bookings : s'.bookings = s.bookings
  payments : s'.payments = s.payments
  packages : s'.packages = s.packages

namespace SameDossiers

variable {s s' s'' : Db}

theorem refl (s : Db) : SameDossiers s s := ⟨rfl, rfl, rfl⟩

theorem trans (h : SameDossiers s s') (h' : SameDossiers s' s'') : SameDossiers s s'' :=
  ⟨h'.bookings.trans h.bookings, h'.payments.trans h.payments, h'.packages.trans h.packages⟩

end SameDossiers

/-- The statement leaves the dossiers as they are. -/
def Steady (c : Stmt) : Prop := ∀ e s, SameDossiers s (exec c e s).2

theorem same_of_uses {α : Type} {p : Req α} (hp : p.Uses Steady) {s s' : Db} {r : Except Erreur α}
    (h : prisma.Runs p s r s') : SameDossiers s s' :=
  h.frame (R := SameDossiers) .refl (fun _ _ _ h₁ h₂ => h₁.trans h₂) (fun _ hc e s => hc e s) hp

/-! ## The statements on documents -/

theorem steady_documentUpdate (id : DocumentId) (data : DocumentUpdate) :
    Steady (.documentUpdate id data) := by
  intro e s
  rw [exec]
  split <;> exact ⟨rfl, rfl, rfl⟩

theorem uses_findBooking (id : BookingId) : (BookingsService.findByIdOrFail id).Uses Steady := by
  refine (Prog.uses_exec fun _ _ => .refl _).bind fun x => ?_
  cases x <;> trivial

theorem uses_findDocument (id : DocumentId) : (DocumentsService.findByIdOrFail id).Uses Steady := by
  refine (Prog.uses_exec fun _ _ => .refl _).bind fun x => ?_
  cases x <;> trivial

theorem uses_findAgency (ownerId : UserId) :
    (AgenciesService.findByOwnerOrFail ownerId).Uses Steady := by
  refine (Prog.uses_exec fun _ _ => .refl _).bind fun x => ?_
  rcases x with _ | ⟨id, agency⟩ <;> trivial

theorem uses_updateDocument (id : DocumentId) (data : DocumentUpdate) :
    (DocumentsService.update id data).Uses Steady := by
  refine (Prog.uses_exec (steady_documentUpdate id data)).bind fun x => ?_
  cases x <;> trivial

theorem uses_assertDocumentOwnership (ownerId : UserId) (doc : PilgrimDocumentShape) :
    (DocumentsService.assertAgencyOwnership ownerId doc).Uses Steady := by
  refine (uses_findBooking _).bind fun booking => (uses_findAgency _).bind fun agency => ?_
  split <;> trivial

theorem uses_upload (pilgrimId : UserId) (bookingId : BookingId) (type : PilgrimDocumentType)
    (expiresAt : Option Time) :
    (DocumentsService.upload pilgrimId bookingId type expiresAt).Uses Steady := by
  refine (uses_findBooking _).bind fun booking => ?_
  split
  · trivial
  · exact (Prog.uses_exec fun _ _ => .refl _).bind fun _ =>
      (Prog.uses_exec fun _ _ => ⟨rfl, rfl, rfl⟩).bind fun _ => trivial

theorem uses_reject (ownerId : UserId) (documentId : DocumentId) (reason : String) :
    (DocumentsService.reject ownerId documentId reason).Uses Steady :=
  (uses_findDocument _).bind fun _ => (uses_assertDocumentOwnership _ _).bind fun _ =>
    uses_updateDocument _ _

/-! ## Validation -/

variable {s s' : Db}

/-- The step is completed when every required type has a validated document. -/
theorem maybeCompleteDocumentsStep_cases {id : BookingId} {r : Except Erreur Unit}
    (h : prisma.Runs (DocumentsService.maybeCompleteDocumentsStep id) s r s') :
    (DocumentsService.allValidated ((s.documents.findMany (·.bookingId = id)).map fun x =>
        toDocumentShape x.1 x.2) = true ∧ s.Stepped id .documents .done s') ∨ s' = s := by
  obtain ⟨_, h⟩ := h
  change prisma.Runs (if DocumentsService.allValidated
      ((s.documents.findMany (·.bookingId = id)).map fun x => toDocumentShape x.1 x.2) then
    (BookingsService.markStepDone id .documents).bind fun _ => .ret () else .ret ()) s r s' at h
  split at h
  · next hall =>
    rcases Backend.runs_bind.mp h with ⟨_, _, hm, -, rfl⟩ | ⟨_, hm, -⟩ <;>
      exact .inl ⟨hall, markStepDone_runs hm⟩
  · exact .inr h.2

theorem maybeCompleteDocumentsStep_runs {id : BookingId} {r : Except Erreur Unit}
    (h : prisma.Runs (DocumentsService.maybeCompleteDocumentsStep id) s r s') :
    s' = s ∨ s.Stepped id .documents .done s' := by
  rcases maybeCompleteDocumentsStep_cases h with ⟨-, hs⟩ | hs
  · exact .inr hs
  · exact .inl hs

/-- A validation at most completes the `DOCUMENTS` step of one booking. -/
theorem validate_runs {ownerId : UserId} {documentId : DocumentId}
    {r : Except Erreur PilgrimDocumentShape}
    (h : prisma.Runs (DocumentsService.validate ownerId documentId) s r s') :
    SameDossiers s s' ∨ ∃ s₁ id, SameDossiers s s₁ ∧ s₁.Stepped id .documents .done s' := by
  rcases Backend.runs_bind.mp h with ⟨doc, s₁, hd, h⟩ | ⟨_, hd, -⟩
  swap
  · exact .inl (same_of_uses (uses_findDocument _) hd)
  have h₁ := same_of_uses (uses_findDocument _) hd
  rcases Backend.runs_bind.mp h with ⟨_, s₂, ho, h⟩ | ⟨_, ho, -⟩
  swap
  · exact .inl (h₁.trans (same_of_uses (uses_assertDocumentOwnership _ _) ho))
  have h₂ := h₁.trans (same_of_uses (uses_assertDocumentOwnership _ _) ho)
  rcases Backend.runs_bind.mp h with ⟨updated, s₃, hu, h⟩ | ⟨_, hu, -⟩
  swap
  · exact .inl (h₂.trans (same_of_uses (uses_updateDocument _ _) hu))
  have h₃ := h₂.trans (same_of_uses (uses_updateDocument _ _) hu)
  have hm : ∃ r', prisma.Runs (DocumentsService.maybeCompleteDocumentsStep updated.bookingId) s₃ r'
      s' := by
    rcases Backend.runs_bind.mp h with ⟨_, _, hm, -, rfl⟩ | ⟨_, hm, -⟩
    · exact ⟨_, hm⟩
    · exact ⟨_, hm⟩
  obtain ⟨_, hm⟩ := hm
  rcases maybeCompleteDocumentsStep_runs hm with rfl | hs
  · exact .inl h₃
  · exact .inr ⟨s₃, _, h₃, hs⟩

end OumraHajj
