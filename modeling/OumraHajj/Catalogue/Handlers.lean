import OumraHajj.Catalogue.Service
import OumraHajj.Spec.Creation

/-!
# What the handlers of the catalogue execute

Only `replaceForOwner` replaces a schedule (`handler_single`), and only `BookingsService.create` and
`cancel` create and cancel a booking (`handler_courante`).
-/

namespace OumraHajj.Catalogue

open Async

/-- What `PackagesService.create` executes. -/
def Publishes : sig.Stmt → Prop
  | .inl (.agencyFindUnique _) => True
  | .inl _ => False
  | .inr (.agencyFindUnique _) => True
  | .inr (.packageCreate _) => True
  | .inr _ => False

/-- What `PackagesService.update` executes. -/
def Edits : sig.Stmt → Prop
  | .inl c => OumraHajj.Courante c
  | .inr (.packageUpdate _ _) => True
  | .inr _ => False

/-- The statement is not the replacement of a schedule. -/
def Single : sig.Stmt → Prop
  | .inr (.refundPolicyTierReplace _ _) => False
  | _ => True

theorem create_publishes (ownerId : UserId) (dto : CreatePackageDto) :
    (PackagesService.create ownerId dto).Uses Publishes := by
  refine Prog.Uses.bind ⟨trivial, fun r => ?_⟩ fun agency => Prog.Uses.bind ?_ fun _ =>
    ⟨trivial, fun r => ?_⟩
  · rcases r with _ | ⟨id, agency⟩ <;> trivial
  · refine Prog.Uses.bind ⟨trivial, fun r => ?_⟩ fun shape => ?_
    · cases r <;> trivial
    · split <;> trivial
  · rcases r with x | ⟨id, pkg⟩ <;> trivial

theorem update_edits (ownerId : UserId) (id : PackageId) (dto : PackageEdit) :
    (PackagesService.update ownerId id dto).Uses Edits := by
  refine ((courante_package id).left fun _ h => h).bind fun pkg =>
    ((courante_packageOwnership ownerId pkg).left fun _ h => h).bind fun _ => ⟨trivial, fun r => ?_⟩
  cases r <;> trivial

theorem Publishes.single {c : sig.Stmt} (h : Publishes c) : Single c := by
  rcases c with c | c
  · trivial
  · cases c <;> trivial

theorem Edits.single {c : sig.Stmt} (h : Edits c) : Single c := by
  rcases c with c | c
  · trivial
  · cases c <;> trivial

theorem handler_single (q : Request) :
    (∃ ownerId dto, q = .replacePolicy ownerId dto) ∨ (handler q).Uses Single := by
  cases q with
  | app q => exact .inr (Prog.uses_left (fun _ => trivial) _)
  | createPackage ownerId dto =>
    exact .inr ((create_publishes ownerId dto).mono fun _ => Publishes.single).void
  | updatePackage ownerId packageId dto =>
    exact .inr ((update_edits ownerId packageId dto).mono fun _ => Edits.single).void
  | replacePolicy ownerId dto => exact .inl ⟨ownerId, dto, rfl⟩

/-- A handler that neither books nor replaces a schedule executes statements that do neither. -/
theorem handler_quiet {P : sig.Stmt → Prop} (happ : ∀ c, NoBooking c → P (.inl c))
    (hrow : ∀ c, Single (.inr c) → P (.inr c)) (q : Request) :
    (∃ pilgrimId packageId, q = .app (.createBooking pilgrimId packageId)) ∨
      (∃ ownerId dto, q = .replacePolicy ownerId dto) ∨ (handler q).Uses P := by
  cases q with
  | app q =>
    rcases handler_uses q with ⟨_, _, rfl⟩ | hq
    · exact .inl ⟨_, _, rfl⟩
    · exact .inr (.inr (hq.left happ))
  | createPackage ownerId dto =>
    refine .inr (.inr ((create_publishes ownerId dto).mono fun c hc => ?_).void)
    rcases c with c | c
    · cases c <;> first | exact happ _ rfl | cases hc
    · exact hrow c hc.single
  | updatePackage ownerId packageId dto =>
    refine .inr (.inr ((update_edits ownerId packageId dto).mono fun c hc => ?_).void)
    rcases c with c | c
    · exact happ c (OumraHajj.Courante.noBooking hc)
    · exact hrow c hc.single
  | replacePolicy ownerId dto => exact .inr (.inl ⟨ownerId, dto, rfl⟩)

/-- The statement creates no booking and cancels none. -/
def Courante : sig.Stmt → Prop
  | .inl c => OumraHajj.Courante c
  | .inr _ => True

theorem Publishes.courante {c : sig.Stmt} (h : Publishes c) : Courante c := by
  rcases c with c | c
  · cases c <;> trivial
  · trivial

theorem Edits.courante {c : sig.Stmt} (h : Edits c) : Courante c := by
  rcases c with c | c
  · exact h
  · trivial

theorem replace_courante (ownerId : UserId) (dto : ReplaceRefundPolicyDto) :
    (RefundPolicyService.replaceForOwner ownerId dto).Uses Courante := by
  refine ((courante_owner ownerId).left fun _ h => h).bind fun agence => ?_
  split
  · trivial
  · refine ⟨trivial, fun r => ?_⟩
    cases r with
    | error code => trivial
    | ok _ => exact ⟨trivial, fun _ => trivial⟩

theorem handler_courante (q : Request) :
    (∃ pilgrimId packageId, q = .app (.createBooking pilgrimId packageId)) ∨
      (∃ pilgrimId bookingId, q = .app (.cancelBooking pilgrimId bookingId)) ∨
        (handler q).Uses Courante := by
  cases q with
  | app q =>
    rcases OumraHajj.handler_courante q with ⟨_, _, rfl⟩ | ⟨_, _, rfl⟩ | hq
    · exact .inl ⟨_, _, rfl⟩
    · exact .inr (.inl ⟨_, _, rfl⟩)
    · exact .inr (.inr (hq.left fun _ h => h))
  | createPackage ownerId dto =>
    exact .inr (.inr ((create_publishes ownerId dto).mono fun _ => Publishes.courante).void)
  | updatePackage ownerId packageId dto =>
    exact .inr (.inr ((update_edits ownerId packageId dto).mono fun _ => Edits.courante).void)
  | replacePolicy ownerId dto => exact .inr (.inr (replace_courante ownerId dto).void)

end OumraHajj.Catalogue
