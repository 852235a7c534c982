import OumraHajj.Agencies.Handlers
import OumraHajj.Async.History
import OumraHajj.Groups.Attaches

/-!
# An agency sells once it is approved

`approve` and `reject` decide on an agency in one statement; `PackagesService.create` reads the decision and writes
the package later. The history has the decisions, the last one first, and `Suit s₀ x` says what the state `x.1` is
after the decisions `x.2`, from the state `s₀`: the status of an agency is that of the last decision about it, or
the one it had. So an agency that is registered is pending until a decision, and never again.

`agencies_approved`: whatever requests run at once, every package that is created is one of an agency that was
approved before, each decision is one that an administrator asked for, and an account is opened by a registration
or by the owner of the agency that the guide is for.
-/

namespace OumraHajj.Agencies

open Async Groups

structure Decision where
  agencyId : AgencyId
  data : ValidationUpdate
  deriving DecidableEq

/-- The decisions, the last one first. -/
abbrev Decisions := List Decision

/-- What a statement notes. -/
def note : (c : sig.Stmt) → sig.Resp c → Decisions → Decisions
  | .inr (.agencyValidate id data), .ok _, h => ⟨id, data⟩ :: h
  | _, _, h => h

/-- A statement of the bookings, the users and the agencies. -/
abbrev ofApp (c : OumraHajj.Stmt) : sig.Stmt := .inl (.inl (.inl c))

/-- A statement of the catalogue. -/
abbrev ofCatalogue (c : Catalogue.Stmt) : sig.Stmt := .inl (.inl (.inr c))

/-- The backend with the decisions. -/
abbrev historique : Backend sig (Store × Decisions) Env := backend.logged note

namespace Store

variable (s : Store)

/-- The status of an agency, with what the administration wrote; `pending` where there is none. -/
def etat (id : AgencyId) : AgencyValidationStatus × Validation :=
  (((s.groups.app.agencies[id]?).map (·.validationStatus)).getD .pending, (s.dossiers id).validation)

/-- The owners of the agencies. -/
def owners : List UserId := s.groups.app.agencies.map (·.ownerId)

/-- The agencies of the packages. -/
def vendeurs : List AgencyId := s.groups.app.packages.map (·.agencyId)

end Store

/-- The last decision about an agency. -/
def derniere (h : Decisions) (id : AgencyId) : Option ValidationUpdate :=
  (h.find? (·.agencyId = id)).map (·.data)

/-- The agency was approved, at the beginning or by a decision. -/
def Approuvee (s₀ : Store) (h : Decisions) (id : AgencyId) : Prop :=
  (s₀.etat id).1 = .approved ∨ ∃ d ∈ h, d.agencyId = id ∧ d.data.validationStatus = .approved

section Requests

variable {ι : Type} (requests : ι → Request) (toLowerCase : String → String)

/-- The request of a decision. -/
def Demandee (d : Decision) : Prop :=
  (d.data.validationStatus = .approved ∧ d.data.rejectionReason = none ∧
    ∃ t, requests t = .approve d.agencyId d.data.validatedById) ∨
  (d.data.validationStatus = .rejected ∧
    ∃ t reason, requests t = .reject d.agencyId d.data.validatedById reason ∧
      d.data.rejectionReason = some reason)

/-- The request of a new account. -/
def Ouvert (s : Store) (u : User) : Prop :=
  (u.role = .agency ∧ u.agencyId = none ∧
    ∃ t dto, requests t = .register dto ∧ u.email = some (toLowerCase dto.contactEmail)) ∨
  (u.role = .guide ∧ ∃ t ownerId dto a, requests t = .addGuide ownerId dto ∧ u.agencyId = some a ∧
    s.owners[a]? = some ownerId)

/-- The state after the decisions (module doc). -/
structure Suit (s₀ : Store) (x : Store × Decisions) : Prop where
  etat : ∀ id, x.1.etat id =
    ((derniere x.2 id).map fun d => (d.validationStatus, d.columns)).getD (s₀.etat id)
  vendeurs : ∀ id ∈ x.1.vendeurs.drop s₀.vendeurs.length, Approuvee s₀ x.2 id
  demandes : ∀ d ∈ x.2, Demandee requests d
  comptes : ∀ u ∈ x.1.groups.app.users.drop s₀.groups.app.users.length, Ouvert requests toLowerCase x.1 u

end Requests

/-- Accounts and packages are added, the owner of an agency stays, and so do the decisions. -/
structure Apres (x x' : Store × Decisions) : Prop where
  users : x.1.groups.app.users <+: x'.1.groups.app.users
  owners : x.1.owners <+: x'.1.owners
  vendeurs : x.1.vendeurs <+: x'.1.vendeurs
  decisions : x.2 <:+ x'.2

section States

variable {ι : Type} {requests : ι → Request} {toLowerCase : String → String} {s₀ s s' : Store}
  {h : Decisions} {x x' x₁ : Store × Decisions}

theorem Apres.refl (x : Store × Decisions) : Apres x x :=
  ⟨List.prefix_rfl, List.prefix_rfl, List.prefix_rfl, List.suffix_rfl⟩

theorem Apres.trans (h : Apres x x₁) (h' : Apres x₁ x') : Apres x x' :=
  ⟨h.users.trans h'.users, h.owners.trans h'.owners, h.vendeurs.trans h'.vendeurs,
    h.decisions.trans h'.decisions⟩

theorem Approuvee.later {h h' : Decisions} {id : AgencyId} (ha : Approuvee s₀ h id) (hle : h <:+ h') :
    Approuvee s₀ h' id := by
  rcases ha with ha | ⟨d, hd, hid, hst⟩
  · exact .inl ha
  · exact .inr ⟨d, hle.subset hd, hid, hst⟩

theorem Ouvert.later {u : User} (hu : Ouvert requests toLowerCase s u) (hle : s.owners <+: s'.owners) :
    Ouvert requests toLowerCase s' u := by
  rcases hu with hu | ⟨hrole, t, ownerId, dto, a, ht, ha, howner⟩
  · exact .inl hu
  · exact .inr ⟨hrole, t, ownerId, dto, a, ht, ha, get_of_grown hle howner⟩

/-- Who is approved now was approved. -/
theorem Suit.approuvee (hs : Suit requests toLowerCase s₀ x) {id : AgencyId} {agency : Agency}
    (ha : x.1.groups.app.agencies[id]? = some agency) (hst : agency.validationStatus = .approved) :
    Approuvee s₀ x.2 id := by
  have hetat : (x.1.etat id).1 = .approved := by rw [Store.etat, ha]; exact hst
  rw [hs.etat id, derniere] at hetat
  rcases hd : x.2.find? (·.agencyId = id) with _ | d
  · rw [hd] at hetat
    exact .inl hetat
  · rw [hd] at hetat
    exact .inr ⟨d, List.mem_of_find?_eq_some hd, by simpa using List.find?_some hd, hetat⟩

/-- A statement that leaves the accounts, the decisions and the sellers. -/
theorem Suit.frame (hs : Suit requests toLowerCase s₀ (s, h)) (hetat : ∀ id, s'.etat id = s.etat id)
    (husers : s'.groups.app.users = s.groups.app.users) (howners : s.owners <+: s'.owners)
    (hvendeurs : s'.vendeurs = s.vendeurs) :
    Suit requests toLowerCase s₀ (s', h) ∧ Apres (s, h) (s', h) := by
  refine ⟨⟨fun id => (hetat id).trans (hs.etat id), ?_, hs.demandes, fun u hu => ?_⟩,
    husers ▸ List.prefix_rfl, howners, hvendeurs ▸ List.prefix_rfl, List.suffix_rfl⟩
  · show ∀ id ∈ s'.vendeurs.drop _, _
    rw [hvendeurs]
    exact hs.vendeurs
  · exact (hs.comptes u (by simpa only [husers] using hu)).later howners

/-- A row is added after the ones that there were. -/
theorem mem_drop_append {α : Type} {l : List α} {a b : α} {n : Nat} (h : b ∈ (l ++ [a]).drop n) :
    b ∈ l.drop n ∨ b = a := by
  rw [List.drop_append] at h
  rcases List.mem_append.mp h with h | h
  · exact .inl h
  · exact .inr (List.mem_singleton.mp (List.mem_of_mem_drop h))

/-- A package of an agency that was approved. -/
theorem Suit.publie (hs : Suit requests toLowerCase s₀ (s, h)) {a : AgencyId} (ha : Approuvee s₀ h a)
    (hetat : ∀ id, s'.etat id = s.etat id) (husers : s'.groups.app.users = s.groups.app.users)
    (howners : s'.owners = s.owners) (hvendeurs : s'.vendeurs = s.vendeurs ++ [a]) :
    Suit requests toLowerCase s₀ (s', h) ∧ Apres (s, h) (s', h) := by
  refine ⟨⟨fun id => (hetat id).trans (hs.etat id), fun id hid => ?_, hs.demandes, fun u hu => ?_⟩,
    husers ▸ List.prefix_rfl, howners ▸ List.prefix_rfl, hvendeurs ▸ List.prefix_append _ _, List.suffix_rfl⟩
  · have hid' : id ∈ (s.vendeurs ++ [a]).drop s₀.vendeurs.length := hvendeurs ▸ hid
    rcases mem_drop_append hid' with hid' | rfl
    · exact hs.vendeurs id hid'
    · exact ha
  · exact (hs.comptes u (by simpa only [husers] using hu)).later (howners ▸ List.prefix_rfl)

/-- A new account. -/
theorem Suit.ouvre (hs : Suit requests toLowerCase s₀ (s, h)) {u : User}
    (hu : Ouvert requests toLowerCase s u) :
    Suit requests toLowerCase s₀ (s.addUser u, h) ∧ Apres (s, h) (s.addUser u, h) := by
  refine ⟨⟨hs.etat, hs.vendeurs, hs.demandes, fun v hv => ?_⟩,
    List.prefix_append _ _, List.prefix_rfl, List.prefix_rfl, List.suffix_rfl⟩
  rcases mem_drop_append hv with hv | rfl
  · exact hs.comptes v hv
  · exact hu

/-- A new agency is pending, as one that does not exist. -/
theorem Suit.inscrit (hs : Suit requests toLowerCase s₀ (s, h)) {agency : Agency}
    (hst : agency.validationStatus = .pending) :
    let x' := ({ s with groups := { s.groups with
      app := { s.groups.app with agencies := s.groups.app.agencies ++ [agency] } } }, h)
    Suit requests toLowerCase s₀ x' ∧ Apres (s, h) x' := by
  refine hs.frame (fun id => ?_) rfl ((List.prefix_append _ _).map _) rfl
  rw [Store.etat, Store.etat]
  rcases Nat.lt_trichotomy id s.groups.app.agencies.length with hlt | rfl | hgt
  · rw [List.getElem?_append_left hlt]
  · rw [List.getElem?_concat_length, List.getElem?_eq_none (le_refl _)]
    exact congrArg (·, _) hst
  · rw [List.getElem?_eq_none hgt.le, List.getElem?_eq_none]
    rw [List.length_append, List.length_singleton]
    exact hgt

theorem etat_write {id : AgencyId} {agency agency' : Agency} {dossier : Dossier}
    (ha : s.groups.app.agencies[id]? = some agency) (j : AgencyId) :
    (s.write id agency' dossier).etat j =
      if j = id then (agency'.validationStatus, dossier.validation) else s.etat j := by
  by_cases hj : j = id
  · subst hj
    simp [Store.etat, Store.write, Table.get_set ha]
  · simp [Store.etat, Store.write, Table.get_set ha, hj, Ne.symm hj]

theorem owners_write {id : AgencyId} {agency agency' : Agency} {dossier : Dossier}
    (ha : s.groups.app.agencies[id]? = some agency) (ho : agency'.ownerId = agency.ownerId) :
    (s.write id agency' dossier).owners = s.owners := map_set_of_eq ha ho

/-- An edit that is no decision. -/
theorem Suit.edite (hs : Suit requests toLowerCase s₀ (s, h)) {id : AgencyId} {agency agency' : Agency}
    {dossier : Dossier} (ha : s.groups.app.agencies[id]? = some agency)
    (hstatus : agency'.validationStatus = agency.validationStatus) (howner : agency'.ownerId = agency.ownerId)
    (hvalidation : dossier.validation = (s.dossiers id).validation) :
    Suit requests toLowerCase s₀ (s.write id agency' dossier, h) ∧
      Apres (s, h) (s.write id agency' dossier, h) := by
  have howners : (s.write id agency' dossier).owners = s.owners := owners_write ha howner
  refine hs.frame (fun j => ?_) rfl (howners ▸ List.prefix_rfl) rfl
  rw [etat_write ha]
  split
  · next hj => rw [hj, Store.etat, ha, hstatus, hvalidation]; rfl
  · rfl

/-- A decision. -/
theorem Suit.valide (hs : Suit requests toLowerCase s₀ (s, h)) {id : AgencyId} {agency : Agency}
    {data : ValidationUpdate} (ha : s.groups.app.agencies[id]? = some agency)
    (hd : Demandee requests ⟨id, data⟩) :
    let x' := (s.write id { agency with validationStatus := data.validationStatus }
      { s.dossiers id with validation := data.columns }, ⟨id, data⟩ :: h)
    Suit requests toLowerCase s₀ x' ∧ Apres (s, h) x' := by
  have howners : (s.write id { agency with validationStatus := data.validationStatus }
      { s.dossiers id with validation := data.columns }).owners = s.owners := owners_write ha rfl
  refine ⟨⟨fun j => ?_, fun j hj => ?_, ?_, fun u hu => ?_⟩,
    List.prefix_rfl, howners ▸ List.prefix_rfl, List.prefix_rfl, List.suffix_cons _ _⟩
  · rw [etat_write ha]
    by_cases hj : j = id
    · subst hj
      rw [if_pos rfl, derniere, List.find?_cons_of_pos (by simp)]
      rfl
    · rw [if_neg hj, derniere, List.find?_cons_of_neg (by simpa using Ne.symm hj)]
      exact hs.etat j
  · exact (hs.vendeurs j hj).later (List.suffix_cons _ _)
  · exact List.forall_mem_cons.mpr ⟨hd, hs.demandes⟩
  · exact (hs.comptes u hu).later (howners ▸ List.prefix_rfl)

end States

/-! ## The statements of the other services -/

section Statements

variable {ι : Type} {requests : ι → Request} {toLowerCase : String → String} {s₀ : Store}
  {x : Store × Decisions}

/-- They leave the accounts, the agencies and the sellers. -/
theorem etablie_exec {c : Groups.sig.Stmt} (hc : Etablie c) (e : Env) (g : Groups.Store) :
    let g' := (Groups.backend.exec c e g).2
    g'.app.users = g.app.users ∧ g'.app.agencies = g.app.agencies ∧
      g'.app.packages.map (·.agencyId) = g.app.packages.map (·.agencyId) := by
  rcases c with (c | c) | c
  · have hpackages : ∀ {l l' : List Package}, l'.map Package.offer = l.map Package.offer →
        l'.map (·.agencyId) = l.map (·.agencyId) := by
      intro l l' h
      have h' := congrArg (List.map Package.agencyId) h
      rwa [List.map_map, List.map_map] at h'
    refine ⟨?_, ?_, hpackages (exec_offer c e g.app)⟩
    · show (OumraHajj.exec c e g.app).2.users = g.app.users
      cases c
      case userCreate => exact hc.elim
      all_goals first
        | rfl
        | simp only [OumraHajj.exec]
          split <;> rfl
    · show (OumraHajj.exec c e g.app).2.agencies = g.app.agencies
      cases c
      case agencyCreate => exact hc.elim
      all_goals first
        | rfl
        | simp only [OumraHajj.exec]
          split <;> rfl
  · show (Catalogue.exec c g.app).2.users = g.app.users ∧ (Catalogue.exec c g.app).2.agencies = g.app.agencies ∧
      (Catalogue.exec c g.app).2.packages.map (·.agencyId) = g.app.packages.map (·.agencyId)
    cases c with
    | agencyFindUnique id => exact ⟨rfl, rfl, rfl⟩
    | packageCreate data => exact hc.elim
    | packageUpdate id data =>
      simp only [Catalogue.exec]
      split
      · next p hp => exact ⟨rfl, rfl, map_set_of_eq hp rfl⟩
      · exact ⟨rfl, rfl, rfl⟩
    | refundPolicyTierReplace agencyId data =>
      simp only [Catalogue.exec, Catalogue.replaceTiers]
      split <;> exact ⟨rfl, rfl, rfl⟩
  · show (Groups.exec c e g).2.app.users = g.app.users ∧ (Groups.exec c e g).2.app.agencies = g.app.agencies ∧
      (Groups.exec c e g).2.app.packages.map (·.agencyId) = g.app.packages.map (·.agencyId)
    cases c
    all_goals first
      | exact ⟨rfl, rfl, rfl⟩
      | simp only [Groups.exec]
        split <;> first
          | exact ⟨rfl, rfl, rfl⟩
          | split <;> exact ⟨rfl, rfl, rfl⟩

variable (requests toLowerCase s₀) in
/-- The invariant, and what stays (module doc). -/
def rely : Rely (Store × Decisions) where
  inv := Suit requests toLowerCase s₀
  le := Apres
  refl := .refl
  trans _ _ _ := .trans

variable (requests toLowerCase s₀) in
/-- The handler keeps the invariant, and ends with `Q`. -/
abbrev Tient {α : Type} (p : Req α) (x : Store × Decisions)
    (Q : Except Erreur α → Store × Decisions → Prop) : Prop :=
  (rely requests toLowerCase s₀).Keeps historique (fun _ _ _ => True) p x Q

/-- The statement is one of the other services, and creates nothing. -/
def Calme : sig.Stmt → Prop
  | .inl c => Etablie c
  | .inr _ => False

theorem calme_step {c : sig.Stmt} (hc : Calme c) :
    (rely requests toLowerCase s₀).Step historique (fun _ _ _ => True) c := by
  rintro ⟨s, h⟩ e hs -
  rcases c with c | c
  · obtain ⟨husers, hagencies, hpackages⟩ := etablie_exec hc e s.groups
    show Suit requests toLowerCase s₀ ((backend.exec (.inl c) e s).2, h) ∧
      Apres (s, h) ((backend.exec (.inl c) e s).2, h)
    refine Suit.frame hs (fun id => ?_) husers ?_ hpackages
    · show (_, _) = (_, _)
      rw [show (backend.exec (.inl c) e s).2.groups.app.agencies = s.groups.app.agencies from hagencies]
      rfl
    · rw [Store.owners, Store.owners,
        show (backend.exec (.inl c) e s).2.groups.app.agencies = s.groups.app.agencies from hagencies]
  · exact hc.elim

theorem calme_keeps {α : Type} {p : Req α} (hp : p.Uses Calme) (x : Store × Decisions) :
    Tient requests toLowerCase s₀ p x fun _ x' => Apres x x' :=
  .of_uses (fun _ => calme_step) hp x

theorem calme_bind {α β : Type} {p : Req α} {f : α → Req β} (hp : p.Uses Calme)
    {Q : Except Erreur β → Store × Decisions → Prop} (hx : ∀ e x', Q (.error e) x')
    (hf : ∀ a x', Apres x x' → Tient requests toLowerCase s₀ (f a) x' Q) :
    Tient requests toLowerCase s₀ (p.bind f) x Q := by
  refine .bind ((calme_keeps hp x).mono ?_)
  rintro (e | a) x' hle
  · exact hx e x'
  · exact hf a x' hle

/-! ## The handlers -/

/-- The agency of an owner. -/
theorem owner_keeps (ownerId : UserId) (x : Store × Decisions) :
    Tient requests toLowerCase s₀ (app (OumraHajj.AgenciesService.findByOwnerOrFail ownerId)) x
      fun r x' => Apres x x' ∧ ∀ agency, r = .ok agency → x'.1.owners[agency.id]? = some ownerId := by
  rintro x' e hx hle -
  refine ⟨hx, .refl x', ?_⟩
  have hexec : (historique.exec (ofApp (.agencyFindUnique ownerId)) e x').1 =
    x'.1.groups.app.agencyOf ownerId := rfl
  rw [hexec]
  rcases ha : x'.1.groups.app.agencyOf ownerId with _ | ⟨id, agency⟩
  · exact ⟨hle, by rintro agency ⟨⟩⟩
  · refine ⟨hle, ?_⟩
    rintro shape ⟨⟩
    obtain ⟨hget, howner⟩ := Table.findFirst_some ha
    show (x'.1.groups.app.agencies.map (·.ownerId))[id]? = some ownerId
    rw [List.getElem?_map, hget, Option.map_some]
    exact congrArg some (by simpa using howner)

/-- An approval that was read is one of the history. -/
theorem approved_keeps (id : AgencyId) (x : Store × Decisions) :
    Tient requests toLowerCase s₀ (Prog.left (Prog.left (Catalogue.AgenciesService.assertApproved id))) x
      fun r x' => Apres x x' ∧ ∀ u : Unit, r = .ok u → Approuvee s₀ x'.2 id := by
  refine .read (c := ofCatalogue (.agencyFindUnique id)) (fun _ _ => rfl) fun x' e hx hle => ?_
  have hexec : (historique.exec (ofCatalogue (.agencyFindUnique id)) e x').1 =
    x'.1.groups.app.agencies[id]? := rfl
  rw [hexec]
  rcases ha : x'.1.groups.app.agencies[id]? with _ | agency
  · exact ⟨hle, by rintro u ⟨⟩⟩
  show Tient requests toLowerCase s₀ (Prog.left (Prog.left (if agency.validationStatus ≠ .approved then
    Prog.fail _ else Prog.ret ()))) x' _
  by_cases hst : agency.validationStatus = .approved
  · rw [if_neg (not_not.mpr hst)]
    exact ⟨hle, fun _ _ => hx.approuvee ha hst⟩
  · rw [if_pos hst]
    exact ⟨hle, by rintro u ⟨⟩⟩

/-- The package of an agency that was approved. -/
theorem packageCreate_step (hs : Suit requests toLowerCase s₀ x) (data : Package)
    (ha : Approuvee s₀ x.2 data.agencyId) (e : Env) :
    let y := historique.exec (ofCatalogue (.packageCreate data)) e x
    Suit requests toLowerCase s₀ y.2 ∧ Apres x y.2 := by
  obtain ⟨s, h⟩ := x
  simp only [Backend.logged, backend, Groups.backend, Catalogue.backend, Catalogue.exec]
  split
  · exact hs.publie ha (fun _ => rfl) rfl rfl (List.map_append ..)
  · exact ⟨hs, .refl _⟩

theorem createPackage_keeps (ownerId : UserId) (dto : Catalogue.CreatePackageDto) (x : Store × Decisions) :
    Tient requests toLowerCase s₀ (handler toLowerCase (.groups (.catalogue (.createPackage ownerId dto)))) x
      fun _ _ => True := by
  simp only [handler, Groups.handler, Catalogue.handler, Catalogue.PackagesService.create, Prog.void,
    Prog.bind_eq, Prog.left_bind, Prog.bind_assoc]
  refine .seq (owner_keeps ownerId x) ?_ fun _ _ _ => trivial
  intro agency x₁ _ _
  refine .seq (approved_keeps agency.id x₁) ?_ fun _ _ _ => trivial
  rintro ⟨⟩ x₂ _ happrouvee
  rintro x₃ e hx₃ hle -
  obtain ⟨hinv, hle'⟩ := packageCreate_step hx₃ (dto.row agency.id) (happrouvee.later hle.decisions) e
  refine ⟨hinv, hle', ?_⟩
  rcases (historique.exec (ofCatalogue (.packageCreate (dto.row agency.id))) e x₃).1 with code | ⟨id, pkg⟩ <;>
    trivial

/-- A decision that an administrator asks for. -/
theorem validate_keeps {id : AgencyId} {data : ValidationUpdate} (hd : Demandee requests ⟨id, data⟩)
    (x : Store × Decisions) :
    Tient requests toLowerCase s₀ (AgenciesService.validate id data) x fun _ _ => True := by
  rintro ⟨s, h⟩ e hs hle -
  simp only [Backend.logged, backend, exec]
  split
  · next agency _ ha _ =>
    obtain ⟨hinv, hle'⟩ := Suit.valide hs ha hd
    exact ⟨hinv, hle', trivial⟩
  · exact ⟨hs, .refl _, trivial⟩
  · exact ⟨hs, .refl _, trivial⟩

theorem approve_keeps {t : ι} {id : AgencyId} {adminId : UserId} (ht : requests t = .approve id adminId)
    (x : Store × Decisions) :
    Tient requests toLowerCase s₀ (AgenciesService.approve id adminId) x fun _ _ => True := by
  refine .read (c := ofApp .now) (fun _ _ => rfl) fun x' e _ _ => validate_keeps ?_ x'
  exact .inl ⟨rfl, rfl, t, ht⟩

theorem reject_keeps {t : ι} {id : AgencyId} {adminId : UserId} {reason : String}
    (ht : requests t = .reject id adminId reason) (x : Store × Decisions) :
    Tient requests toLowerCase s₀ (AgenciesService.reject id adminId reason) x fun _ _ => True := by
  refine .read (c := ofApp .now) (fun _ _ => rfl) fun x' e _ _ => validate_keeps ?_ x'
  exact .inr ⟨rfl, t, reason, ht, rfl⟩

theorem updateOwn_keeps (ownerId : UserId) (dto : UpdateAgencyDto) (x : Store × Decisions) :
    Tient requests toLowerCase s₀ (AgenciesService.updateOwn ownerId dto) x fun _ _ => True := by
  refine .seq (owner_keeps ownerId x) ?_ fun _ _ _ => trivial
  rintro owned x₁ _ _ ⟨s, h⟩ e hs hle -
  simp only [Backend.logged, backend, exec]
  split
  · next agency ha =>
    exact and_assoc.mp ⟨Suit.edite hs ha rfl rfl rfl, trivial⟩
  · exact ⟨hs, .refl _, trivial⟩

theorem app_calme {α : Type} {p : OumraHajj.Req α} (hp : p.Uses EtablieApp) : (app p).Uses Calme :=
  (left_etablie hp).left fun _ h => h

theorem parTelephone_etablie (phone : Option String) : (AgenciesService.parTelephone phone).Uses EtablieApp := by
  unfold AgenciesService.parTelephone
  split
  · exact ⟨trivial, fun _ => trivial⟩
  · trivial

theorem parEmail_etablie (email : Option String) :
    (AgenciesService.parEmail toLowerCase email).Uses EtablieApp := by
  unfold AgenciesService.parEmail
  split
  · exact ⟨trivial, fun _ => trivial⟩
  · trivial

theorem addGuide_keeps {t : ι} {ownerId : UserId} {dto : CreateGuideDto} (ht : requests t = .addGuide ownerId dto)
    (x : Store × Decisions) :
    Tient requests toLowerCase s₀ (AgenciesService.addGuide toLowerCase ownerId dto) x fun _ _ => True := by
  refine .seq (owner_keeps ownerId x) ?_ fun _ _ _ => trivial
  intro owned x₁ _ howner
  refine calme_bind (app_calme (parTelephone_etablie dto.phone)) (fun _ _ => trivial) fun telephone x₂ hle₂ => ?_
  refine calme_bind (app_calme (parEmail_etablie dto.email)) (fun _ _ => trivial) fun email x₃ hle₃ => ?_
  show Tient requests toLowerCase s₀ (if telephone.isSome ∨ email.isSome then _ else _) x₃ _
  split
  · trivial
  rintro ⟨s, h⟩ e hs hle -
  have howner' : s.owners[owned.id]? = some ownerId := get_of_grown ((hle₂.trans hle₃).trans hle).owners howner
  simp only [Backend.logged, backend, exec]
  split
  · exact ⟨hs, .refl _, trivial⟩
  · exact ⟨hs, .refl _, trivial⟩
  · exact and_assoc.mp ⟨Suit.ouvre hs (.inr ⟨rfl, t, ownerId, dto, owned.id, ht, rfl, howner'⟩), trivial⟩

theorem register_keeps {t : ι} {dto : RegisterAgencyDto} (ht : requests t = .register dto)
    (x : Store × Decisions) :
    Tient requests toLowerCase s₀ (handler toLowerCase (.register dto)) x fun _ _ => True := by
  refine .read (c := ofApp (.userFindByEmail (toLowerCase dto.contactEmail))) (fun _ _ => rfl) fun x₁ e _ _ => ?_
  have hexec : (historique.exec (ofApp (.userFindByEmail (toLowerCase dto.contactEmail))) e x₁).1 =
    x₁.1.groups.app.users.findFirst (·.email = some (toLowerCase dto.contactEmail)) := rfl
  rw [hexec]
  rcases x₁.1.groups.app.users.findFirst (·.email = some (toLowerCase dto.contactEmail)) with _ | existing
  swap
  · trivial
  refine .read (c := ofApp (.bcryptHash dto.password)) (fun _ _ => rfl) fun x₂ e₂ _ _ => ?_
  rintro ⟨s, h⟩ e₃ hs _ -
  simp only [Backend.logged, backend, Groups.backend, Catalogue.backend, prisma, OumraHajj.exec]
  split
  · exact ⟨hs, .refl _, trivial⟩
  refine and_assoc.mp ⟨Suit.ouvre hs (.inl ⟨rfl, rfl, t, dto, ht, rfl⟩), ?_⟩
  rintro ⟨s', h'⟩ e₄ hs' _ -
  dsimp only [toUserShape]
  split
  · exact ⟨hs', .refl _, trivial⟩
  · exact ⟨hs', .refl _, trivial⟩
  · exact and_assoc.mp ⟨Suit.inscrit hs' rfl, trivial⟩

/-- Every handler. -/
theorem handler_keeps (t : ι) (x : Store × Decisions) :
    Tient requests toLowerCase s₀ (handler toLowerCase (requests t)) x fun _ _ => True := by
  rcases ht : requests t with q | dto | ⟨ownerId, dto⟩ | ⟨id, adminId⟩ | ⟨id, adminId, reason⟩ | ⟨ownerId, dto⟩
  · rcases handler_etablie q with ⟨ownerId, dto, rfl⟩ | hq
    · exact createPackage_keeps ownerId dto x
    · have hcalme : (handler toLowerCase (.groups q)).Uses Calme := hq.left fun _ h => h
      exact (calme_keeps hcalme x).mono fun _ _ _ => trivial
  · exact register_keeps ht x
  · exact (updateOwn_keeps ownerId dto x).void
  · exact (approve_keeps ht x).void
  · exact (reject_keeps ht x).void
  · exact (addGuide_keeps ht x).void

end Statements

/-- The requests run at once, from the store `s`. -/
def poolOf {ι : Type} (toLowerCase : String → String) (requests : ι → Request) (s : Store) :
    Pool sig ι (Store × Decisions) Erreur Unit :=
  ⟨fun t => handler toLowerCase (requests t), (s, [])⟩

/-- The approved agencies, by the last decision about each. -/
theorem findByStatus_ids {ι : Type} {requests : ι → Request} {toLowerCase : String → String} {s₀ : Store}
    {x : Store × Decisions} (hs : Suit requests toLowerCase s₀ x) (e : Env) :
    ∃ l, backend.eval e (AgenciesService.findByStatus (some .approved)) x.1 = (.ok l, x.1) ∧
      ∀ id, id ∈ l.map (·.id) ↔ id < x.1.groups.app.agencies.length ∧
        ((derniere x.2 id).map (·.validationStatus)).getD (s₀.etat id).1 = .approved := by
  refine ⟨((x.1.groups.app.agencies.findMany (·.validationStatus = .approved)).map fun y =>
    (y.1, y.2, x.1.dossiers y.1)).map toAgencyShape, rfl, fun id => ?_⟩
  have hetat : (x.1.etat id).1 = ((derniere x.2 id).map (·.validationStatus)).getD (s₀.etat id).1 := by
    rw [hs.etat id]
    cases derniere x.2 id <;> rfl
  have hmem : ∀ y : AgencyId × Agency,
      y ∈ x.1.groups.app.agencies.findMany (·.validationStatus = .approved) ↔
        x.1.groups.app.agencies[y.1]? = some y.2 ∧ y.2.validationStatus = .approved := by
    intro y
    rw [Table.findMany, List.mem_filter, Table.mem_withIds, decide_eq_true_eq]
  rw [← hetat, List.map_map, List.map_map]
  constructor
  · intro hid
    obtain ⟨⟨i, agency⟩, hi, rfl⟩ := List.mem_map.mp hid
    obtain ⟨hget, hst⟩ := (hmem (i, agency)).mp hi
    refine ⟨Table.lt_of_get hget, ?_⟩
    show ((x.1.groups.app.agencies[i]?).map (·.validationStatus)).getD .pending = .approved
    rw [hget]
    exact hst
  · rintro ⟨hlt, hst⟩
    have hget : x.1.groups.app.agencies[id]? = some x.1.groups.app.agencies[id] := List.getElem?_eq_getElem hlt
    rw [Store.etat, hget] at hst
    exact List.mem_map.mpr ⟨(id, x.1.groups.app.agencies[id]), (hmem _).mpr ⟨hget, hst⟩, rfl⟩

/-- **An agency sells once it is approved.** Whatever requests run at once, the status of an agency is that of the
last decision about it, each package that is created is one of an agency that was approved before, and each
decision and each account was asked for by who may ask for it; a row is never taken back. The approved agencies
that are listed are those whose last decision is an approval. -/
theorem agencies_approved {ι : Type} [DecidableEq ι] (toLowerCase : String → String) (requests : ι → Request)
    (s : Store) {c : Pool sig ι (Store × Decisions) Erreur Unit}
    (hr : Pool.Reach historique Pool.anyStep (poolOf toLowerCase requests s) c) :
    Suit requests toLowerCase s c.st ∧ Apres (s, []) c.st ∧
      ∀ e : Env, ∃ l, backend.eval e (AgenciesService.findByStatus (some .approved)) c.st.1 = (.ok l, c.st.1) ∧
        ∀ id, id ∈ l.map (·.id) ↔ id < c.st.1.groups.app.agencies.length ∧
          ((derniere c.st.2 id).map (·.validationStatus)).getD (s.etat id).1 = .approved := by
  have h₀ : (rely requests toLowerCase s).inv (poolOf toLowerCase requests s).st := by
    refine ⟨fun id => rfl, ?_, ?_, ?_⟩
    · show ∀ id ∈ s.vendeurs.drop s.vendeurs.length, _
      rw [List.drop_length]
      exact fun _ h => by cases h
    · exact fun _ h => by cases h
    · show ∀ u ∈ s.groups.app.users.drop s.groups.app.users.length, _
      rw [List.drop_length]
      exact fun _ h => by cases h
  have hr' : Pool.Reach historique (Rely.cond fun _ _ _ => True) (poolOf toLowerCase requests s) c :=
    hr.mono fun _ _ _ _ _ _ _ => trivial
  obtain ⟨hsuit, hapres⟩ := Rely.reach h₀ (fun t => handler_keeps t (s, [])) hr'
  exact ⟨hsuit, hapres, findByStatus_ids hsuit⟩

/-- An agency that waits for its approval, and the administrator. -/
private def enAttente : Store where
  groups := { app := { users :=
    [{ fullName := "Pèlerin" }, { fullName := "Gérante", role := .agency }, { fullName := "Admin", role := .admin }]
                       agencies := Db.exemple.agencies } }

private def forfait : Catalogue.CreatePackageDto where
  type := .oumra
  title := "Oumra"
  startDate := 0
  endDate := 0
  price := 100
  capacity := 1
  stages := []

/-- The agency publishes two packages while it is approved and rejected. -/
private def decisions : Fin 5 → Request
  | 0 => .groups (.catalogue (.createPackage 1 forfait))
  | 1 => .approve 0 2
  | 2 => .groups (.catalogue (.createPackage 1 forfait))
  | 3 => .reject 0 2 "Documents expirés"
  | 4 => .addGuide 1 { fullName := "Guide", phone := some "+224600000001" }

/-- The first package is refused; the second one is published after the rejection, on the approval that was read. -/
private def instruction : Pool sig (Fin 5) (Store × Decisions) Erreur Unit :=
  Pool.run historique ([0, 0, 1, 1, 2, 2, 3, 3, 2, 4, 4, 4].map fun t => (t, { now := 7 }))
    (poolOf id decisions enAttente)

/-- The requests at once. -/
theorem agencies_approved_instruction :
    (instruction.st.1.vendeurs = [0] ∧
      instruction.st.1.etat 0 = (.rejected, ⟨some "Documents expirés", some 2, some 7⟩) ∧
        instruction.st.1.groups.app.users.map (·.role) = [.pilgrim, .agency, .admin, .guide]) ∧
      Suit decisions id enAttente instruction.st :=
  ⟨by decide +kernel, (agencies_approved id decisions enAttente (Pool.Reach.run .refl _)).1⟩

end OumraHajj.Agencies
