import OumraHajj.Refunds.Frozen
import OumraHajj.Services.Requests

/-!
# The status of a package and its seats

`Reflete p`: the seats of the package are within its capacity, an `OPEN` package has a free one and a
`FULL` package has none. `reserveSeat` and `releaseSeat` write the status with the counter; `update` writes
the capacity alone. `status_reflects_iff`: in a sequential run the status reflects the seats exactly as
long as the capacities that are written fit the seats and the status of their package.
-/

namespace OumraHajj.Catalogue

open Async

/-- The status of the package reflects its seats (module doc). -/
structure Reflete (p : Package) : Prop where
  nonneg : 0 ≤ p.seatsTaken
  le_capacity : p.seatsTaken ≤ p.capacity
  libre : p.status = .open → p.seatsTaken < p.capacity
  complet : p.status = .full → p.capacity ≤ p.seatsTaken

theorem reflete_iff {p : Package} : Reflete p ↔ (0 ≤ p.seatsTaken ∧ p.seatsTaken ≤ p.capacity) ∧
    (p.status = .open → p.seatsTaken < p.capacity) ∧ (p.status = .full → p.capacity ≤ p.seatsTaken) :=
  ⟨fun h => ⟨⟨h.nonneg, h.le_capacity⟩, h.libre, h.complet⟩, fun h => ⟨h.1.1, h.1.2, h.2.1, h.2.2⟩⟩

instance (p : Package) : Decidable (Reflete p) := decidable_of_iff _ reflete_iff.symm

/-- What the validation of the DTO admits. -/
structure CreatePackageDto.Valide (dto : CreatePackageDto) : Prop where
  title_length : 3 ≤ dto.title.length
  price_pos : 0 < dto.price
  capacity_pos : 0 < dto.capacity
  stages_length : 1 ≤ dto.stages.length

/-- `UpdatePackageDto` is partial: the same for the fields that it has. -/
structure PackageEdit.Valide (dto : PackageEdit) : Prop where
  title_length : ∀ title ∈ dto.title, 3 ≤ title.length
  price_pos : ∀ price ∈ dto.price, 0 < price
  capacity_pos : ∀ capacity ∈ dto.capacity, 0 < capacity
  stages_length : ∀ stages ∈ dto.stages, 1 ≤ stages.length

/-- The operations on packages. -/
inductive PackageRequest where
  | create (ownerId : UserId) (dto : CreatePackageDto) (valide : dto.Valide)
  | update (ownerId : UserId) (packageId : PackageId) (dto : PackageEdit) (valide : dto.Valide)
  | close (ownerId : UserId) (packageId : PackageId)
  | reserveSeat (packageId : PackageId)
  | releaseSeat (packageId : PackageId)

def PackageRequest.handler : PackageRequest → Req Unit
  | .create ownerId dto _ => (PackagesService.create ownerId dto).void
  | .update ownerId packageId dto _ => (PackagesService.update ownerId packageId dto).void
  | .close ownerId packageId =>
    Prog.left (OumraHajj.PackagesService.close ownerId packageId).void
  | .reserveSeat packageId => Prog.left (OumraHajj.PackagesService.reserveSeat packageId).void
  | .releaseSeat packageId => Prog.left (OumraHajj.PackagesService.releaseSeat packageId).void

/-- The capacity that the agency of a package writes: not below the seats that are taken, above them if
the package is `OPEN`, and no other one if it is `FULL`. -/
def Ajustee (s : Db) : PackageRequest → Prop
  | .update ownerId packageId dto _ => ownsPackage s ownerId packageId = true →
    ∀ p ∈ s.packages[packageId]?, ∀ capacity ∈ dto.capacity, p.seatsTaken ≤ capacity ∧
      (p.status = .open → p.seatsTaken < capacity) ∧ (p.status = .full → capacity ≤ p.seatsTaken)
  | _ => True

instance (s : Db) : (q : PackageRequest) → Decidable (Ajustee s q)
  | .update ownerId packageId dto _ =>
    inferInstanceAs (Decidable (ownsPackage s ownerId packageId = true →
      ∀ p ∈ s.packages[packageId]?, ∀ capacity ∈ dto.capacity, p.seatsTaken ≤ capacity ∧
        (p.status = .open → p.seatsTaken < capacity) ∧ (p.status = .full → capacity ≤ p.seatsTaken)))
  | .create _ _ _ | .close _ _ | .reserveSeat _ | .releaseSeat _ => isTrue trivial

/-- The status of every package reflects its seats. -/
def Refletent (s : Db) : Prop := ∀ p ∈ s.packages, Reflete p

instance (s : Db) : Decidable (Refletent s) := inferInstanceAs (Decidable (∀ p ∈ s.packages, Reflete p))

section Rows

variable {p : Package}

theorem Reflete.edit {d : PackageEdit} (h : Reflete p) :
    Reflete (d.apply p) ↔ ∀ capacity ∈ d.capacity, p.seatsTaken ≤ capacity ∧
      (p.status = .open → p.seatsTaken < capacity) ∧ (p.status = .full → capacity ≤ p.seatsTaken) := by
  rcases hd : d.capacity with _ | capacity
  · have hcapacity : (d.apply p).capacity = p.capacity := by rw [PackageEdit.apply, hd]; rfl
    refine iff_of_true ⟨h.nonneg, ?_, ?_, ?_⟩ (by rintro _ ⟨⟩)
    · rw [hcapacity]
      exact h.le_capacity
    · rw [hcapacity]
      exact h.libre
    · rw [hcapacity]
      exact h.complet
  · have hcapacity : (d.apply p).capacity = capacity := by rw [PackageEdit.apply, hd]; rfl
    rw [reflete_iff, hcapacity]
    constructor
    · rintro ⟨⟨-, hle⟩, hlibre, hcomplet⟩ _ ⟨⟩
      exact ⟨hle, hlibre, hcomplet⟩
    · intro hc
      obtain ⟨hle, hlibre, hcomplet⟩ := hc capacity rfl
      exact ⟨⟨h.nonneg, hle⟩, hlibre, hcomplet⟩

theorem Reflete.close (h : Reflete p) : Reflete { p with status := .closed } :=
  ⟨h.nonneg, h.le_capacity, by rintro ⟨⟩, by rintro ⟨⟩⟩

theorem Reflete.reserved (h : Reflete p) (hst : p.status = .open) : Reflete p.reserved := by
  have hfree := h.libre hst
  have hnonneg := h.nonneg
  refine ⟨by simp only [Package.reserved]; omega, by simp only [Package.reserved]; omega, ?_, ?_⟩
  · simp only [Package.reserved]
    split
    · rintro ⟨⟩
    · intro _
      omega
  · simp only [Package.reserved]
    split
    · intro _
      omega
    · intro hfull
      rw [hst] at hfull
      cases hfull

theorem Reflete.released (h : Reflete p) : Reflete p.released := by
  obtain ⟨hnonneg, hle, hlibre, hcomplet⟩ := h
  have hmax : max 0 (p.seatsTaken - 1) ≤ p.seatsTaken := by omega
  refine ⟨by simp only [Package.released]; omega, by simp only [Package.released]; omega, ?_, ?_⟩
  · simp only [Package.released]
    split
    · next hc => exact fun _ => hc.2
    · intro hopen
      have := hlibre hopen
      omega
  · simp only [Package.released]
    split
    · rintro ⟨⟩
    · next hc =>
      intro hfull
      exact not_lt.mp fun hlt => hc ⟨hfull, hlt⟩

end Rows

section Requests

variable {s s' : Db}

/-- One package is replaced. -/
theorem refletent_put (hs : Refletent s) {id : PackageId} {p : Package} (hp : s.packages[id]? = some p)
    (p' : Package) : Refletent (s.putPackage id p') ↔ Reflete p' := by
  constructor
  · intro h
    refine h p' (List.mem_iff_getElem?.mpr ⟨id, ?_⟩)
    rw [Db.putPackage, Table.get_set hp, if_pos rfl]
  · intro hp' x hx
    obtain ⟨i, hi⟩ := List.mem_iff_getElem?.mp hx
    rw [Db.putPackage, Table.get_set hp] at hi
    split at hi
    · obtain rfl := Option.some.inj hi
      exact hp'
    · exact hs x (List.mem_iff_getElem?.mpr ⟨i, hi⟩)

/-- A package is created for an approved agency, or nothing is done. -/
theorem create_runs {ownerId : UserId} {dto : CreatePackageDto} {r : Except Erreur PackageShape}
    (h : backend.Runs (PackagesService.create ownerId dto) s r s') :
    s' = s ∨ ∃ agencyId, s' = { s with packages := s.packages ++ [dto.row agencyId] } := by
  have hread : ∀ {id s₁ s₂} {r : Except Erreur Unit},
      backend.Runs (AgenciesService.assertApproved id) s₁ r s₂ → s₂ = s₁ := by
    intro id s₁ s₂ r h
    obtain ⟨e, h⟩ := h
    rcases ha : s₁.agencies[id]? with _ | a
    · simp only [backend, exec, ha] at h
      exact h.2
    · simp only [backend, exec, ha] at h
      revert h
      show backend.Runs (ite _ _ _) s₁ r s₂ → _
      split <;> exact fun h => h.2
  rcases Backend.runs_bind.mp h with ⟨agency, s₁, hown, h₁⟩ | ⟨x, hown, -⟩
  swap
  · exact .inl (owner_runs (runs_left hown)).1
  obtain rfl := (owner_runs (runs_left hown)).1
  rcases Backend.runs_bind.mp h₁ with ⟨_, s₂, happ, h₂⟩ | ⟨x, happ, -⟩
  swap
  · exact .inl (hread happ)
  obtain rfl := hread happ
  obtain ⟨e, h₂⟩ := h₂
  rcases ha : s₂.agencies[(dto.row agency.id).agencyId]? with _ | a
  · simp only [backend, exec, ha] at h₂
    exact .inl h₂.2
  · simp only [backend, exec, ha] at h₂
    exact .inr ⟨agency.id, h₂.2⟩

theorem Reflete.created {dto : CreatePackageDto} (h : dto.Valide) (agencyId : AgencyId) :
    Reflete (dto.row agencyId) :=
  ⟨le_refl _, h.capacity_pos.le, fun _ => h.capacity_pos, by rintro ⟨⟩⟩

/-- One request of a run. -/
theorem refletent_request {q : PackageRequest} {r : Except Erreur Unit} (hs : Refletent s)
    (h : backend.Runs q.handler s r s') : Refletent s' ↔ Ajustee s q := by
  cases q with
  | create ownerId dto valide =>
    obtain ⟨r', h⟩ := Backend.runs_void h
    refine iff_of_true ?_ trivial
    rcases create_runs h with rfl | ⟨agencyId, rfl⟩
    · exact hs
    · intro p hp
      rcases List.mem_append.mp hp with hp | hp
      · exact hs p hp
      · obtain rfl := List.mem_singleton.mp hp
        exact .created valide agencyId
  | update ownerId packageId dto valide =>
    obtain ⟨r', h⟩ := Backend.runs_void h
    rcases update_runs h with ⟨howns, p, hp, rfl⟩ | ⟨howns, rfl⟩
    · rw [refletent_put hs hp, (hs p (List.mem_iff_getElem?.mpr ⟨_, hp⟩)).edit]
      constructor
      · rintro hedit - p' hp'
        obtain rfl := Option.some.inj (hp.symm.trans hp')
        exact hedit
      · exact fun hadjust => hadjust howns p hp
    · refine iff_of_true hs fun howns' => ?_
      rw [howns] at howns'
      cases howns'
  | close ownerId packageId =>
    obtain ⟨r', h⟩ := Backend.runs_void (runs_left h)
    refine iff_of_true ?_ trivial
    rcases close_runs h with rfl | ⟨p, hp, rfl⟩
    · exact hs
    · exact (refletent_put hs hp _).mpr (hs p (List.mem_iff_getElem?.mpr ⟨_, hp⟩)).close
  | reserveSeat packageId =>
    obtain ⟨r', h⟩ := Backend.runs_void (runs_left h)
    refine iff_of_true ?_ trivial
    rcases reserveSeat_runs h with ⟨x, -, rfl | ⟨p, hp, hfull, rfl⟩⟩ | ⟨p, shape, hp, hst, hlt, -, rfl⟩
    · exact hs
    · have hp' := hs p (List.mem_iff_getElem?.mpr ⟨_, hp⟩)
      exact (refletent_put hs hp _).mpr ⟨hp'.nonneg, hp'.le_capacity, by rintro ⟨⟩, fun _ => hfull⟩
    · exact (refletent_put hs hp _).mpr ((hs p (List.mem_iff_getElem?.mpr ⟨_, hp⟩)).reserved hst)
  | releaseSeat packageId =>
    obtain ⟨r', h⟩ := Backend.runs_void (runs_left h)
    refine iff_of_true ?_ trivial
    rcases releaseSeat_runs h with ⟨x, -, -, rfl⟩ | ⟨p, shape, hp, -, rfl⟩
    · exact hs
    · exact (refletent_put hs hp _).mpr (hs p (List.mem_iff_getElem?.mpr ⟨_, hp⟩)).released

end Requests

/-- **Status and seats.** From packages whose status reflects their seats, this holds after every request
of a sequential run if and only if the capacities that the run writes fit the seats and the status. -/
theorem status_reflects_iff {s : Db} (hs : Refletent s) {tr : Trace PackageRequest Db}
    (hr : backend.Run PackageRequest.handler s tr) :
    (∀ x ∈ tr, Refletent x.2) ↔ Trace.Steps (fun s q _ => Ajustee s q) s tr := by
  rw [← Trace.steps_after (P := Refletent) (s := s)]
  refine hr.steps_iff (I := Refletent) (A := fun _ => True) ?_ ?_ (fun _ _ => trivial) hs
  · intro s q r s' hs _ h hq
    have hs' := (refletent_request hs h).mpr hq
    exact ⟨hs', hs'⟩
  · exact fun s q r s' hs _ h hq hs' => hq ((refletent_request hs h).mp hs')

/-! ## Runs on fixed inputs -/

private theorem capacite_valide (n : Int) (hn : 0 < n) : PackageEdit.Valide { capacity := some n } :=
  ⟨by rintro _ ⟨⟩, by rintro _ ⟨⟩, by rintro _ ⟨⟩; exact hn, by rintro _ ⟨⟩⟩

/-- The agency of the package writes the capacity 2. -/
private def agrandir : PackageRequest :=
  .update 1 0 { capacity := some 2 } (capacite_valide 2 two_pos)

private def suivre (qs : List PackageRequest) : Trace PackageRequest Db :=
  backend.evalAll PackageRequest.handler {} .exemple qs

/-- The capacity is written while the package is open. -/
private def enOuvert : List PackageRequest := [.reserveSeat 0, .releaseSeat 0, agrandir, .reserveSeat 0]

theorem status_reflects_ouvert : Refletent .exemple ∧ ∀ x ∈ suivre enOuvert, Refletent x.2 := by
  have hs : Refletent .exemple := by decide +kernel
  refine ⟨hs, (status_reflects_iff hs (Backend.evalAll_run _ _ _)).mpr ?_⟩
  decide +kernel

/-- The capacity is written while the package is full: it stays `FULL`, with a free seat. -/
theorem full_with_seat : ¬ ∀ (s : Db) (tr : Trace PackageRequest Db), Refletent s →
    backend.Run PackageRequest.handler s tr → ∀ x ∈ tr, Refletent x.2 := by
  intro h
  have hrun : backend.Run PackageRequest.handler .exemple (suivre [.reserveSeat 0, agrandir]) :=
    Backend.evalAll_run _ _ _
  exact absurd (h _ _ (by decide +kernel) hrun) (by decide +kernel)

end OumraHajj.Catalogue
