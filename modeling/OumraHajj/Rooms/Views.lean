import OumraHajj.Rooms.Sequential
import OumraHajj.Spec.Creation

/-!
# What the agency sees of a block

The reads of `RoomsService` answer from the store alone: `findOwnedOrFail` finds a block for the owner
of its agency (`findOwnedOrFail_iff`), `getBlock` shows it with the active bookings (`getBlock_iff`),
and the rooming list is made of what it shows (`getRoomingListCsv_iff`).
-/

namespace OumraHajj.Rooms

open Async

variable {s s' : Store} {ownerId : UserId} {id : RoomBlockId}

/-- The owner of an agency finds a block of it. -/
def Store.Possede (s : Store) (ownerId : UserId) (id : RoomBlockId) (complet : BlocComplet) : Prop :=
  (∃ agency, s.app.agencyOf ownerId = some (complet.bloc.agencyId, agency)) ∧
    (s.block id).bind (s.complet id) = some complet

theorem Store.Possede.unique {complet complet' : BlocComplet} (h : s.Possede ownerId id complet)
    (h' : s.Possede ownerId id complet') : complet = complet' :=
  Option.some.inj (h.2.symm.trans h'.2)

theorem agencyIdOf_iff {r : Except Erreur AgencyId}
    (h : backend.Runs (RoomsService.agencyIdOf ownerId) s r s') (agencyId : AgencyId) :
    r = .ok agencyId ↔ ∃ agency, s.app.agencyOf ownerId = some (agencyId, agency) := by
  rcases Backend.runs_bind.mp h with ⟨shape, s₁, hown, hrest⟩ | ⟨x, hown, rfl⟩
  · obtain ⟨app, hown, -⟩ := runs_left hown
    rcases (owner_runs hown).2 with ⟨id, agency, hagency, hshape⟩ | ⟨-, x, hx⟩
    · obtain rfl := Except.ok.inj hshape
      obtain ⟨rfl, -⟩ := hrest
      rw [hagency]
      constructor
      · rintro ⟨⟩
        exact ⟨agency, rfl⟩
      · rintro ⟨agency', hagency'⟩
        exact congrArg Except.ok (congrArg Prod.fst (Option.some.inj hagency'))
    · cases hx
  · obtain ⟨app, hown, -⟩ := runs_left hown
    rcases (owner_runs hown).2 with ⟨id, agency, -, hshape⟩ | ⟨hnone, -⟩
    · cases hshape
    · rw [hnone]
      exact iff_of_false (by rintro ⟨⟩) (by rintro ⟨agency, ⟨⟩⟩)

/-- **A block is found** exactly by the owner of its agency. -/
theorem findOwnedOrFail_iff {r : Except Erreur BlocComplet}
    (h : backend.Runs (RoomsService.findOwnedOrFail ownerId id) s r s') :
    s' = s ∧ ∀ complet, r = .ok complet ↔ s.Possede ownerId id complet := by
  refine ⟨reads_runs (findOwnedOrFail_reads ownerId id) h, fun complet => ?_⟩
  rcases Backend.runs_bind.mp h with ⟨agencyId, s₁, ha, hrest⟩ | ⟨x, ha, rfl⟩
  swap
  · refine iff_of_false (by rintro ⟨⟩) fun hp => ?_
    cases (agencyIdOf_iff ha _).mpr hp.1
  have hagency := agencyIdOf_iff ha
  obtain rfl := reads_runs (agencyIdOf_reads ownerId) ha
  obtain ⟨e, hrest⟩ := hrest
  rcases hr : (s₁.block id).bind (s₁.complet id) with - | found
  · have hans : (backend.exec (.inr (.roomBlockFindUnique id)) e s₁).1 = none := hr
    rw [hans] at hrest
    obtain ⟨rfl, -⟩ := hrest
    refine iff_of_false (by rintro ⟨⟩) fun hp => ?_
    rw [Store.Possede, hr] at hp
    cases hp.2
  have hans : (backend.exec (.inr (.roomBlockFindUnique id)) e s₁).1 = some found := hr
  rw [hans] at hrest
  change backend.Runs (ite _ _ _) _ _ _ at hrest
  split at hrest
  · next hne =>
    obtain ⟨rfl, -⟩ := hrest
    refine iff_of_false (by rintro ⟨⟩) fun hp => hne ?_
    obtain rfl := Option.some.inj (hr.symm.trans hp.2)
    exact (Except.ok.inj ((hagency _).mpr hp.1)).symm
  · next heq =>
    obtain ⟨rfl, -⟩ := hrest
    constructor
    · rintro ⟨⟩
      exact ⟨(hagency _).mp (congrArg Except.ok (not_not.mp heq).symm), hr⟩
    · intro hp
      exact congrArg Except.ok (Option.some.inj (hr.symm.trans hp.2))

/-- The answer of `bookingFindManyActive`. -/
def Store.actives (s : Store) (agencyId : AgencyId) (packageId : PackageId) : List RoomOccupantShape :=
  ((s.app.bookings.findMany fun b =>
    b.agencyId = agencyId ∧ b.packageId = packageId ∧ b.status ≠ .cancelled).insertionSort
      fun x y => x.2.createdAt ≤ y.2.createdAt).filterMap fun (id, b) =>
        (s.app.users[b.pilgrimId]?).map fun u => ⟨id, u.fullName⟩

/-- What is shown of a block. -/
def Store.vue (s : Store) (complet : BlocComplet) : RoomBlockShape :=
  toRoomBlockShape complet (s.actives complet.bloc.agencyId complet.bloc.packageId)

theorem getBlock_iff {r : Except Erreur RoomBlockShape}
    (h : backend.Runs (RoomsService.getBlock ownerId id) s r s') :
    s' = s ∧ ∀ shape, r = .ok shape ↔ ∃ complet, s.Possede ownerId id complet ∧
      shape = s.vue complet := by
  refine ⟨reads_runs (getBlock_reads ownerId id) h, fun shape => ?_⟩
  rcases Backend.runs_bind.mp h with ⟨complet, s₁, hf, hrest⟩ | ⟨x, hf, rfl⟩
  · obtain ⟨rfl, hfound⟩ := findOwnedOrFail_iff hf
    have hp := (hfound complet).mp rfl
    obtain ⟨e, rfl, -⟩ := hrest
    constructor
    · rintro ⟨⟩
      exact ⟨complet, hp, rfl⟩
    · rintro ⟨complet', hp', rfl⟩
      rw [hp'.unique hp]
      rfl
  · refine iff_of_false (by rintro ⟨⟩) ?_
    rintro ⟨complet, hp, -⟩
    cases ((findOwnedOrFail_iff hf).2 complet).mpr hp

/-- The titles of the rooming list. -/
def enTete : String := Csv.ligne ";" ["Hôtel", "Ville", "Type", "Chambre", "Pèlerin"]

theorem getRoomingListCsv_iff {r : Except Erreur String}
    (h : backend.Runs (RoomsService.getRoomingListCsv ownerId id) s r s') :
    s' = s ∧ ∀ texte, r = .ok texte ↔ ∃ complet, s.Possede ownerId id complet ∧
      texte = Csv.fichier "\r\n" enTete (lignesOccupants (s.vue complet)) := by
  rcases Backend.runs_bind.mp h with ⟨shape, s₁, hg, hrest⟩ | ⟨x, hg, rfl⟩
  · obtain ⟨rfl, hshape⟩ := getBlock_iff hg
    obtain ⟨complet, hp, rfl⟩ := (hshape shape).mp rfl
    obtain ⟨rfl, rfl⟩ := hrest
    refine ⟨rfl, fun texte => ⟨?_, ?_⟩⟩
    · rintro ⟨⟩
      exact ⟨complet, hp, rfl⟩
    · rintro ⟨complet', hp', rfl⟩
      rw [hp'.unique hp]
      rfl
  · obtain ⟨hs, hshape⟩ := getBlock_iff hg
    refine ⟨hs, fun texte => iff_of_false (by rintro ⟨⟩) ?_⟩
    rintro ⟨complet, hp, -⟩
    cases (hshape _).mpr ⟨complet, hp, rfl⟩

end OumraHajj.Rooms
