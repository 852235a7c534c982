import OumraHajj.Tenancy.Coherent

/-!
# The agencies stay apart

`tenant_consistent`: whatever requests any agencies and pilgrims make at once, every row is for a package of
its agency, where each group is created for a package of its agency and each booking goes to a group for
its package (`Accord`).
-/

namespace OumraHajj.Tenancy

open Async

/-- The invariant; the agency of a package stays. -/
def tenantRely : Rely Store where
  inv := Coherent
  le s s' := s.agences <+: s'.agences
  refl _ := List.prefix_rfl
  trans _ _ _ := List.IsPrefix.trans

/-- The statements of the handlers of the groups. -/
def Regulier : sig.Stmt → Prop
  | .inl (.inl c) => Groups.SansReservation c
  | c => Ordinaire c

variable {s : Store}

theorem ordinaire_step {c : sig.Stmt} (hc : Ordinaire c) : tenantRely.Step backend Accord c := by
  intro s e hi _
  have hsuite := suite_of_ordinaire hc e s
  exact ⟨hi.suite hsuite, hsuite.agences⟩

theorem regulier_step {c : sig.Stmt} (hc : Regulier c) : tenantRely.Step backend Accord c := by
  rcases c with (((c | c) | c) | c) | c
  · exact ordinaire_step hc
  · exact ordinaire_step trivial
  · cases c
    case groupCreate packageId agencyId title =>
      intro s e hi ho
      refine ⟨hi.groupCreate ho e, Store.agences_of_app ?_⟩
      simp only [backend, Groups.backend, Groups.exec]
      split <;> rfl
    case bookingUpdate id groupId =>
      intro s e hi ho
      refine ⟨hi.bookingUpdate ho e, Store.agences_prefix ?_⟩
      simp only [backend, Groups.backend, Groups.exec]
      split <;> rfl
    all_goals exact ordinaire_step trivial
  · exact ordinaire_step hc
  · exact ordinaire_step hc

/-- A handler of the services of the bookings, the users and the agencies. -/
abbrev app {α : Type} (p : OumraHajj.Req α) : Req α := ofGroups (Groups.app p)

theorem app_bind {α β : Type} (p : OumraHajj.Req α) (f : α → OumraHajj.Req β) :
    app (p.bind f) = (app p).bind fun a => app (f a) := by
  simp only [app, ofGroups, Groups.app, Prog.left_bind]

theorem ofGroups_regulier {α : Type} {p : Groups.Req α} (hp : p.Uses Groups.SansReservation) :
    (ofGroups p).Uses Regulier := by
  have hrooms : (Prog.left p : Prog (Groups.sig.sum ⟨Rooms.Stmt, Rooms.Resp⟩) Erreur α).Uses
    fun c => Regulier (.inl c) := hp.left fun _ h => h
  exact hrooms.left fun _ h => h

theorem app_regulier {α : Type} {p : OumraHajj.Req α} (hp : p.Uses NoBooking) :
    (app p).Uses Regulier :=
  ofGroups_regulier (Groups.app_sansReservation hp)

theorem regulier_keeps {α : Type} {p : Req α} (hp : p.Uses Regulier) (s : Store) :
    tenantRely.Keeps backend Accord p s fun _ s' => tenantRely.le s s' :=
  .of_uses (fun _ hc => regulier_step hc) hp s

theorem regulier_bind {α β : Type} {p : Req α} {f : α → Req β} (hp : p.Uses Regulier)
    (hf : ∀ a s', tenantRely.le s s' → tenantRely.Keeps backend Accord (f a) s' fun _ _ => True) :
    tenantRely.Keeps backend Accord (p.bind f) s fun _ _ => True := by
  refine .bind ((regulier_keeps hp s).mono ?_)
  rintro (x | a) s' hle
  · trivial
  · exact hf a s' hle

theorem agenceDe_eq {packageId : PackageId} {p : Package}
    (hp : s.groups.app.packages[packageId]? = some p) : s.agenceDe packageId = some p.agencyId := by
  rw [Store.agenceDe, Store.agences, List.getElem?_map, hp, Option.map_some]

/-- A package that is read, and the rest with its agency. -/
theorem read_package {α : Type} {packageId : PackageId} {k : Option Package → Req α}
    {Q : Except Erreur α → Store → Prop}
    (hnone : ∀ s', tenantRely.le s s' → tenantRely.Keeps backend Accord (k none) s' Q)
    (hsome : ∀ p s', tenantRely.le s s' → s'.agenceDe packageId = some p.agencyId →
      tenantRely.Keeps backend Accord (k (some p)) s' Q) :
    tenantRely.Keeps backend Accord
      (.call (S := sig) (.inl (.inl (.inl (.inl (.packageFindUnique packageId))))) k) s Q := by
  intro s' e hi hle _
  refine ⟨hi, tenantRely.refl s', ?_⟩
  show tenantRely.Keeps backend Accord (k s'.groups.app.packages[packageId]?) s' Q
  rcases hp : s'.groups.app.packages[packageId]? with _ | p
  · exact hnone s' hle
  · exact hsome p s' hle (agenceDe_eq hp)

/-- A statement that keeps the invariant with what was read, and the rest. -/
theorem create_bind {α : Type} {c : sig.Stmt} {k : sig.Resp c → Req α}
    (hc : ∀ s' e, Coherent s' → s.agences <+: s'.agences → Coherent (backend.exec c e s').2 ∧
      s'.agences <+: (backend.exec c e s').2.agences) (hk : ∀ r, (k r).Uses Regulier) :
    tenantRely.Keeps backend Accord (.call c k) s fun _ _ => True := by
  intro s' e hi hle _
  obtain ⟨hi', hle'⟩ := hc s' e hi hle
  exact ⟨hi', hle', (regulier_keeps (hk _) _).mono fun _ _ _ => trivial⟩

/-- The package that was found is of its agency from then on. -/
theorem package_keeps (packageId : PackageId) (s : Store) :
    tenantRely.Keeps backend Accord (app (PackagesService.findByIdOrFail packageId)) s
      fun r s' => tenantRely.le s s' ∧ ∀ pkg, r = .ok pkg → pkg.id = packageId ∧
        s'.agenceDe packageId = some pkg.agencyId := by
  refine read_package (fun s' hle => ⟨hle, by rintro pkg ⟨⟩⟩) fun p s' hle ha => ⟨hle, ?_⟩
  rintro pkg ⟨⟩
  exact ⟨rfl, ha⟩

/-- The booking of a pilgrim has the agency of its package. -/
theorem createBooking_keeps (pilgrimId : UserId) (packageId : PackageId) (s : Store) :
    tenantRely.Keeps backend Accord (app (BookingsService.create pilgrimId packageId)) s
      fun _ _ => True := by
  rw [BookingsService.create, Prog.bind_eq, app_bind]
  refine .seq (package_keeps packageId s) ?_ fun _ _ _ => trivial
  rintro pkg s₁ - ⟨rfl, hagence⟩
  rw [Prog.bind_eq, app_bind]
  refine regulier_bind (app_regulier (Prog.uses_exec rfl)) fun paliers s₂ hle₂ => ?_
  rw [Prog.bind_eq, app_bind]
  refine regulier_bind (app_regulier (noBooking_of (courante_reserveSeat pkg.id))) fun _ s₃ hle₃ => ?_
  refine create_bind (fun s₄ e hi hle₄ => ⟨hi.bookingCreate ?_ e, List.prefix_rfl⟩) fun _ => trivial
  exact Store.agenceDe_of_prefix (hle₂.trans (hle₃.trans hle₄)) hagence

theorem groups_keeps (q : Groups.Request) (s : Store) :
    tenantRely.Keeps backend Accord (ofGroups (Groups.handler q)) s fun _ _ => True := by
  rcases Groups.handler_sansReservation q with ⟨pilgrimId, packageId, rfl⟩ | hq
  · show tenantRely.Keeps backend Accord (app (BookingsService.create pilgrimId packageId).void) s _
    rw [Prog.void, app_bind]
    refine .bind ((createBooking_keeps pilgrimId packageId s).mono ?_)
    rintro (x | shape) s' - <;> trivial
  · refine (regulier_keeps ?_ s).mono fun _ _ _ => trivial
    exact ofGroups_regulier hq

/-! ## The blocks of rooms -/

/-- The statements of the rooms that create no block. -/
def SansBloc : Rooms.sig.Stmt → Prop
  | .inl c => NoBooking c
  | .inr (.roomBlockCreate _) => False
  | .inr _ => True

theorem rooms_regulier {α : Type} {p : Rooms.Req α} (hp : p.Uses SansBloc) :
    (p.via roomsHom).Uses Regulier := by
  refine hp.via fun c hc => ?_
  rcases c with c | c
  · exact hc
  · cases c
    case roomBlockCreate => exact hc.elim
    all_goals trivial

theorem agencyIdOf_sansBloc (ownerId : UserId) :
    (Rooms.RoomsService.agencyIdOf ownerId).Uses SansBloc :=
  ((noBooking_of (courante_owner ownerId)).left fun _ h => h).bind fun _ => trivial

theorem findOwned_sansBloc (ownerId : UserId) (id : Rooms.RoomBlockId) :
    (Rooms.RoomsService.findOwnedOrFail ownerId id).Uses SansBloc := by
  refine (agencyIdOf_sansBloc ownerId).bind fun agencyId => ⟨trivial, fun bloc => ?_⟩
  rcases bloc with _ | bloc
  · trivial
  · show Prog.Uses _ (ite _ _ _)
    split <;> trivial

theorem getBlock_sansBloc (ownerId : UserId) (id : Rooms.RoomBlockId) :
    (Rooms.RoomsService.getBlock ownerId id).Uses SansBloc :=
  (findOwned_sansBloc ownerId id).bind fun _ => ⟨trivial, fun _ => trivial⟩

theorem updateBlock_sansBloc (ownerId : UserId) (id : Rooms.RoomBlockId)
    (dto : Rooms.RoomBlockUpdate) :
    (Rooms.RoomsService.updateBlock ownerId id dto).Uses SansBloc := by
  refine (findOwned_sansBloc ownerId id).bind fun bloc => ?_
  split
  · trivial
  · refine ⟨trivial, fun r => ?_⟩
    rcases r with _ | _
    · trivial
    · exact getBlock_sansBloc ownerId id

theorem deleteBlock_sansBloc (ownerId : UserId) (id : Rooms.RoomBlockId) :
    (Rooms.RoomsService.deleteBlock ownerId id).Uses SansBloc := by
  refine (findOwned_sansBloc ownerId id).bind fun bloc => ?_
  split
  · trivial
  · refine ⟨trivial, fun r => ?_⟩
    rcases r with _ | _ <;> trivial

/-- A new block is for a package of the agency that creates it. -/
theorem createBlock_keeps (ownerId : UserId) (dto : Rooms.CreateRoomBlockDto) (s : Store) :
    tenantRely.Keeps backend Accord ((Rooms.RoomsService.createBlock ownerId dto).via roomsHom) s
      fun _ _ => True := by
  rw [Rooms.RoomsService.createBlock, Prog.bind_eq, Prog.via_bind]
  refine regulier_bind (rooms_regulier (agencyIdOf_sansBloc ownerId)) fun agencyId s₁ _ => ?_
  refine read_package (fun _ _ => trivial) fun forfait s₂ _ hagence => ?_
  show tenantRely.Keeps backend Accord (Prog.via roomsHom (ite (forfait.agencyId ≠ agencyId) _ _)) s₂ _
  split
  · trivial
  next hown =>
  show tenantRely.Keeps backend Accord (Prog.via roomsHom (ite _ _ _)) s₂ _
  split
  · trivial
  split
  · refine create_bind (fun s₃ e hi hle => ⟨hi.roomBlockCreate ?_ e,
      Store.agences_of_app (rooms_app _ e s₃.rooms)⟩) fun r => ?_
    · rw [← not_not.mp hown]
      exact Store.agenceDe_of_prefix hle hagence
    · refine rooms_regulier ?_
      rcases r with code | id
      · trivial
      · exact getBlock_sansBloc ownerId id
  · trivial

/-! ## The shifts -/

/-- The statements of the shifts that create no shift. -/
def SansCreneau : OnCall.sig.Stmt → Prop
  | .inl c => NoBooking c
  | .inr (.onCallShiftCreate _) => False
  | .inr _ => True

theorem onCall_regulier {α : Type} {p : OnCall.Req α} (hp : p.Uses SansCreneau) :
    (p.via onCallHom).Uses Regulier := by
  refine hp.via fun c hc => ?_
  rcases c with c | c
  · exact hc
  · cases c
    case onCallShiftCreate => exact hc.elim
    all_goals trivial

theorem agencyIdOf_sansCreneau (ownerId : UserId) :
    (OnCall.OnCallService.agencyIdOf ownerId).Uses SansCreneau :=
  ((noBooking_of (courante_owner ownerId)).left fun _ h => h).bind fun _ => trivial

theorem findOwned_sansCreneau (ownerId : UserId) (id : OnCall.OnCallShiftId) :
    (OnCall.OnCallService.findOwnedOrFail ownerId id).Uses SansCreneau := by
  refine (agencyIdOf_sansCreneau ownerId).bind fun agencyId => ⟨trivial, fun creneau => ?_⟩
  rcases creneau with _ | creneau
  · trivial
  · show Prog.Uses _ (ite _ _ _)
    split <;> trivial

theorem verifierPeriode_sansCreneau (startsAt endsAt : Time) :
    (OnCall.verifierPeriode startsAt endsAt).Uses SansCreneau := by
  unfold OnCall.verifierPeriode
  split
  · trivial
  · split <;> trivial

theorem updateShift_sansCreneau (ownerId : UserId) (id : OnCall.OnCallShiftId)
    (dto : OnCall.UpdateOnCallShiftDto) :
    (OnCall.OnCallService.updateShift ownerId id dto).Uses SansCreneau := by
  refine (findOwned_sansCreneau ownerId id).bind fun actuel =>
    (verifierPeriode_sansCreneau _ _).bind fun _ => ⟨trivial, fun r => ?_⟩
  rcases r with _ | creneau <;> trivial

theorem deleteShift_sansCreneau (ownerId : UserId) (id : OnCall.OnCallShiftId) :
    (OnCall.OnCallService.deleteShift ownerId id).Uses SansCreneau := by
  refine (findOwned_sansCreneau ownerId id).bind fun _ => ⟨trivial, fun r => ?_⟩
  rcases r with _ | _ <;> trivial

/-- The package that a shift is for, if it is for one, is of the agency. -/
theorem assertPackage_keeps (agencyId : AgencyId) (packageId : Option PackageId) (s : Store) :
    tenantRely.Keeps backend Accord ((OnCall.OnCallService.assertPackage agencyId packageId).via onCallHom)
      s fun r s' => tenantRely.le s s' ∧ ∀ x, r = .ok x → ∀ p ∈ packageId,
        s'.agenceDe p = some agencyId := by
  rcases packageId with _ | packageId
  · exact ⟨tenantRely.refl s, by rintro x - p ⟨⟩⟩
  refine read_package (fun s' hle => ⟨hle, by rintro x ⟨⟩⟩) fun forfait s' hle ha => ?_
  show tenantRely.Keeps backend Accord (Prog.via onCallHom (Prog.bind (ite (forfait.agencyId ≠ agencyId)
    _ _) _)) s' _
  split
  · exact ⟨hle, by rintro x ⟨⟩⟩
  · next hown =>
    refine ⟨hle, ?_⟩
    rintro x - p ⟨⟩
    rw [← not_not.mp hown]
    exact ha

/-- A new shift is for a package of the agency that creates it, or for all of them. -/
theorem createShift_keeps (ownerId : UserId) (dto : OnCall.CreateOnCallShiftDto) (s : Store) :
    tenantRely.Keeps backend Accord ((OnCall.OnCallService.createShift ownerId dto).via onCallHom) s
      fun _ _ => True := by
  rw [OnCall.OnCallService.createShift, Prog.bind_eq, Prog.via_bind]
  refine regulier_bind (onCall_regulier (agencyIdOf_sansCreneau ownerId)) fun agencyId s₁ _ => ?_
  rw [Prog.bind_eq, Prog.via_bind]
  refine regulier_bind (onCall_regulier (verifierPeriode_sansCreneau _ _)) fun _ s₂ _ => ?_
  rw [Prog.bind_eq, Prog.via_bind]
  refine .seq (assertPackage_keeps agencyId dto.packageId s₂) ?_ fun _ _ _ => trivial
  intro x s₃ _ hagence
  refine create_bind (fun s₄ e hi hle => ⟨hi.onCallShiftCreate (fun p hp => ?_) e,
    Store.agences_of_app (onCall_app _ s₄.onCall)⟩) fun r => ?_
  · exact Store.agenceDe_of_prefix hle (hagence p hp)
  · refine onCall_regulier ?_
    rcases r with code | creneau <;> trivial

/-! ## Every run -/

theorem handler_keeps (q : Request) (s : Store) :
    tenantRely.Keeps backend Accord (handler q) s fun _ _ => True := by
  cases q with
  | groups q => exact groups_keeps q s
  | createBlock ownerId dto =>
    rw [handler, Prog.void, Prog.via_bind]
    refine .bind ((createBlock_keeps ownerId dto s).mono ?_)
    rintro (x | shape) s' - <;> trivial
  | updateBlock ownerId id dto =>
    exact (regulier_keeps (rooms_regulier (updateBlock_sansBloc ownerId id dto).void) s).mono
      fun _ _ _ => trivial
  | deleteBlock ownerId id =>
    exact (regulier_keeps (rooms_regulier (deleteBlock_sansBloc ownerId id)) s).mono fun _ _ _ => trivial
  | shift q =>
    cases q with
    | createShift ownerId dto =>
      rw [handler, OnCall.handler, Prog.void, Prog.via_bind]
      refine .bind ((createShift_keeps ownerId dto s).mono ?_)
      rintro (x | shape) s' - <;> trivial
    | updateShift ownerId id dto =>
      exact (regulier_keeps (onCall_regulier (updateShift_sansCreneau ownerId id dto).void) s).mono
        fun _ _ _ => trivial
    | deleteShift ownerId id =>
      exact (regulier_keeps (onCall_regulier (deleteShift_sansCreneau ownerId id)) s).mono
        fun _ _ _ => trivial

/-- **Tenant consistency**, where each group is created for a package of its agency and each booking goes
to a group for its package. -/
theorem tenant_consistent {ι : Type} [DecidableEq ι] (requests : ι → Request) {s : Store}
    (hs : Coherent s) {c : Pool sig ι Store Erreur Unit}
    (hr : Pool.Reach backend (Rely.cond Accord) (poolOf requests s) c) : Coherent c.st :=
  (Rely.reach hs (fun t => handler_keeps (requests t) s) hr).1

/-- The agency of user 1 has a package, and the one of user 2 has none. -/
private def deuxAgences : Store where
  groups :=
    { app := { Db.exemple with
        users := [{ fullName := "Pèlerin" }, { fullName := "Gérante" }, { fullName := "Gérant" }]
        agencies := Db.exemple.agencies ++
          [{ ownerId := 2, legalName := "Autre agence", contactEmail := "", contactPhone := "" }] } }

private theorem deuxAgences_coherent : Coherent deuxAgences := by
  refine ⟨?_, ?_, ?_, ?_, ?_⟩ <;> rintro _ ⟨⟩

private theorem titre_length : 2 ≤ "Groupe".length := by decide

/-- A booking, a group of the agency of user `ownerId`, and the booking in the group. -/
private def demandes (ownerId : UserId) : Fin 3 → Request
  | 0 => .groups (.catalogue (.app (.createBooking 0 0)))
  | 1 => .groups (.createGroup ownerId ⟨0, "Groupe", titre_length⟩)
  | 2 => .groups (.assignGroup ownerId 0 0)

/-- One request after the other. -/
private def deroulement (ownerId : UserId) : Pool sig (Fin 3) Store Erreur Unit :=
  Pool.run backend (turns (n := 2) [0, 0, 0, 0, 0, 0, 1, 1, 2, 2, 2, 2, 2, 2, 2, 2])
    (poolOf (demandes ownerId) deuxAgences)

/-- The agency of the package creates the group. -/
theorem tenant_consistent_propre : Coherent (deroulement 1).st := by
  refine tenant_consistent (demandes 1) deuxAgences_coherent (Pool.Allowed.reach ?_ .refl)
  decide +kernel

/-- The other agency creates a group for the package. -/
theorem tenant_inconsistent :
    ¬ ∀ (requests : Fin 3 → Request) (s : Store) (c : Pool sig (Fin 3) Store Erreur Unit),
      Coherent s → Pool.Reach backend (fun _ _ _ _ => True) (poolOf requests s) c → Coherent c.st := by
  intro h
  have hreach : Pool.Reach backend (fun _ _ _ _ => True) (poolOf (demandes 2) deuxAgences)
      (deroulement 2) := Pool.Allowed.reach (by decide +kernel) .refl
  have hgroups := (h (demandes 2) deuxAgences _ deuxAgences_coherent hreach).groups
  have hend : (deroulement 2).st.groups.groups.map attache = [(0, 1)] ∧
      (deroulement 2).st.agenceDe 0 = some 0 := by decide +kernel
  obtain ⟨hgroup, hagence⟩ := hend
  obtain ⟨g, hg, hattache⟩ := List.map_eq_singleton_iff.mp hgroup
  have hbad := hgroups g (hg ▸ List.mem_singleton_self g)
  rw [show g.packageId = 0 from congrArg Prod.fst hattache,
    show g.agencyId = 1 from congrArg Prod.snd hattache, hagence] at hbad
  exact absurd hbad (by decide)

end OumraHajj.Tenancy
