import Mathlib.Algebra.Order.BigOperators.Group.List
import OumraHajj.Capacity.Service
import OumraHajj.Common.Cells

/-!
# The load of the trips

The periods of `periodesDeCharge` are cells of the bounds of the trips, those in which a trip is under way.
So they are in order, they hold the instants at which a trip is under way, and each has the load of any
instant in it (`periodesDeCharge_exact`); the peak has the greatest load (`simulate_profile`).
-/

namespace OumraHajj.Capacity

open Async

variable {voyages : List CapacityTripShape} {pilgrimsPerGuide : ℚ} {p : CapacityPeriodShape} {t : Time}

/-- The trip is under way. -/
def EnCours (v : CapacityTripShape) (t : Time) : Prop := v.startDate ≤ t ∧ t < v.endDate + jourMs

instance (v : CapacityTripShape) (t : Time) : Decidable (EnCours v t) := inferInstanceAs (Decidable (_ ∧ _))

/-- The trips under way, in the order of the list. -/
def enCours (voyages : List CapacityTripShape) (t : Time) : List CapacityTripShape :=
  voyages.filter fun v => EnCours v t

/-- The period holds the instant. -/
def CapacityPeriodShape.Contient (p : CapacityPeriodShape) (t : Time) : Prop := p.from ≤ t ∧ t < p.to

/-- The period has the trips that are under way at the instant, and their loads. -/
structure Charge (voyages : List CapacityTripShape) (pilgrimsPerGuide : ℚ) (t : Time)
    (p : CapacityPeriodShape) : Prop where
  packageIds : p.packageIds = (enCours voyages t).map (·.packageId)
  plannedPilgrims : p.plannedPilgrims = ((enCours voyages t).map (·.capacity)).sum
  soldPilgrims : p.soldPilgrims = ((enCours voyages t).map (·.seatsTaken)).sum
  guidesNeeded : p.guidesNeeded = ((enCours voyages t).map (·.guidesNeeded)).sum
  guidesNeededForSold : p.guidesNeededForSold =
    ((enCours voyages t).map fun v => ⌈(v.seatsTaken : ℚ) / pilgrimsPerGuide⌉).sum

/-- The periods are the load profile of the trips. -/
structure Profil (voyages : List CapacityTripShape) (pilgrimsPerGuide : ℚ)
    (periodes : List CapacityPeriodShape) : Prop where
  ordre : periodes.Pairwise fun p q => p.to ≤ q.from
  nonempty : ∀ p ∈ periodes, p.from < p.to
  couverture : ∀ t, (∃ p ∈ periodes, p.Contient t) ↔ ∃ v ∈ voyages, EnCours v t
  charge : ∀ p ∈ periodes, ∀ t, p.Contient t → Charge voyages pilgrimsPerGuide t p

/-! ## The instants -/

theorem mem_instants : t ∈ instants voyages ↔ ∃ v ∈ voyages, t = v.startDate ∨ t = v.endDate + jourMs := by
  simp only [instants, bornes, List.mem_insertionSort, List.mem_dedup, List.mem_flatMap, List.mem_cons,
    List.not_mem_nil, or_false]

/-- The instants ascend. -/
theorem pairwise_instants (voyages : List CapacityTripShape) : (instants voyages).Pairwise (· < ·) := by
  have hsorted := List.pairwise_insertionSort (fun a b : Time => a ≤ b)
    (voyages.flatMap fun v => [(bornes v).lo, (bornes v).hi]).dedup
  have hnodup : (instants voyages).Nodup :=
    (List.perm_insertionSort _ _).nodup_iff.mpr (List.nodup_dedup _)
  exact (hsorted.and hnodup).imp fun h => lt_of_le_of_ne h.1 h.2

/-! ## The periods -/

/-- The trips that the loop keeps for a cell. -/
def dansCellule (voyages : List CapacityTripShape) (c : Span Time) : List CapacityTripShape :=
  voyages.filter fun v => (bornes v).lo ≤ c.lo ∧ (bornes v).hi ≥ c.hi

/-- The period of a cell, if a trip is under way in it. -/
def periodeDe (voyages : List CapacityTripShape) (pilgrimsPerGuide : ℚ) (c : Span Time) :
    Option CapacityPeriodShape :=
  if (dansCellule voyages c).length = 0 then none
  else some (periode pilgrimsPerGuide c.lo c.hi (dansCellule voyages c))

/-- The loop goes over the cells of the instants. -/
theorem decouper_cells (voyages : List CapacityTripShape) (pilgrimsPerGuide : ℚ) (instants : List Time) :
    decouper voyages pilgrimsPerGuide instants =
      (Span.cells instants).filterMap (periodeDe voyages pilgrimsPerGuide) := by
  induction instants with
  | nil => rfl
  | cons debut instants ih =>
    rcases instants with - | ⟨fin, instants⟩
    · rfl
    rw [decouper, Span.cells, List.filterMap_cons, ih]
    unfold periodeDe dansCellule
    split
    · rfl
    · rfl

theorem periodeDe_eq {c : Span Time} (h : periodeDe voyages pilgrimsPerGuide c = some p) :
    dansCellule voyages c ≠ [] ∧ p = periode pilgrimsPerGuide c.lo c.hi (dansCellule voyages c) := by
  unfold periodeDe at h
  split at h
  · cases h
  · next hlen => exact ⟨fun hnil => hlen (List.length_eq_zero_iff.mpr hnil), (Option.some.inj h).symm⟩

theorem mem_periodes : p ∈ periodesDeCharge voyages pilgrimsPerGuide ↔
    ∃ c ∈ Span.cells (instants voyages), periodeDe voyages pilgrimsPerGuide c = some p := by
  rw [periodesDeCharge, decouper_cells, List.mem_filterMap]

/-- **The trips of a cell are those under way at each of its instants.** -/
theorem dansCellule_eq {c : Span Time} (hc : c ∈ Span.cells (instants voyages)) (ht : c.Contains t) :
    dansCellule voyages c = enCours voyages t := by
  refine List.filter_congr fun v hv => decide_eq_decide.mpr ?_
  have hlo : (bornes v).lo ∈ instants voyages := mem_instants.mpr ⟨v, hv, .inl rfl⟩
  have hhi : (bornes v).hi ∈ instants voyages := mem_instants.mpr ⟨v, hv, .inr rfl⟩
  exact Span.within_iff (pairwise_instants voyages) hc hlo hhi ht

/-- **The periods are the exact load profile.** -/
theorem periodesDeCharge_profil (voyages : List CapacityTripShape) (pilgrimsPerGuide : ℚ) :
    Profil voyages pilgrimsPerGuide (periodesDeCharge voyages pilgrimsPerGuide) where
  ordre := by
    rw [periodesDeCharge, decouper_cells]
    refine (Span.pairwise_cells (pairwise_instants voyages)).filterMap _ fun c c' hcc' p hp p' hp' => ?_
    obtain ⟨-, rfl⟩ := periodeDe_eq hp
    obtain ⟨-, rfl⟩ := periodeDe_eq hp'
    exact hcc'
  nonempty p hp := by
    obtain ⟨c, hc, hp⟩ := mem_periodes.mp hp
    obtain ⟨-, rfl⟩ := periodeDe_eq hp
    exact Span.lt_of_mem_cells (pairwise_instants voyages) hc
  couverture t := by
    constructor
    · rintro ⟨p, hp, ht⟩
      obtain ⟨c, hc, hp⟩ := mem_periodes.mp hp
      obtain ⟨hne, rfl⟩ := periodeDe_eq hp
      obtain ⟨v, hv⟩ := List.exists_mem_of_ne_nil _ hne
      rw [dansCellule_eq hc ht] at hv
      exact ⟨v, (List.mem_filter.mp hv).1, of_decide_eq_true (List.mem_filter.mp hv).2⟩
    · rintro ⟨v, hv, ht⟩
      obtain ⟨c, hc, hct⟩ := Span.exists_cell (mem_instants.mpr ⟨v, hv, .inl rfl⟩)
        (mem_instants.mpr ⟨v, hv, .inr rfl⟩) ht.1 ht.2 (pairwise_instants voyages)
      have hmem : v ∈ dansCellule voyages c := by
        rw [dansCellule_eq hc hct]
        exact List.mem_filter.mpr ⟨hv, decide_eq_true ht⟩
      have hp : periodeDe voyages pilgrimsPerGuide c =
          some (periode pilgrimsPerGuide c.lo c.hi (dansCellule voyages c)) :=
        if_neg fun hlen => List.ne_nil_of_mem hmem (List.length_eq_zero_iff.mp hlen)
      exact ⟨_, mem_periodes.mpr ⟨c, hc, hp⟩, hct⟩
  charge p hp t ht := by
    obtain ⟨c, hc, hp⟩ := mem_periodes.mp hp
    obtain ⟨-, rfl⟩ := periodeDe_eq hp
    rw [dansCellule_eq hc ht]
    exact ⟨rfl, rfl, rfl, rfl, rfl⟩

/-! ## The peak -/

/-- The guides that the trips under way need. -/
def guidesA (voyages : List CapacityTripShape) (t : Time) : Int :=
  ((enCours voyages t).map (·.guidesNeeded)).sum

/-- There is a peak if a trip is ever under way, and no instant needs more guides: none while no trip is
under way. -/
structure Pic (voyages : List CapacityTripShape) (periodes : List CapacityPeriodShape)
    (peak : Option CapacityPeriodShape) : Prop where
  absent : peak = none ↔ ∀ t, ∀ v ∈ voyages, ¬ EnCours v t
  mem : ∀ p ∈ peak, p ∈ periodes
  greatest : ∀ p ∈ peak, ∀ t, (∃ v ∈ voyages, EnCours v t) → guidesA voyages t ≤ p.guidesNeeded
  nonneg : ∀ p ∈ peak, (∀ v ∈ voyages, 0 ≤ v.capacity) → 0 ≤ p.guidesNeeded

/-- After any of the periods, the peak is one that needs as many guides as each. -/
theorem foldl_plusExigeante (periodes : List CapacityPeriodShape) (max : CapacityPeriodShape) :
    ∃ m, periodes.foldl plusExigeante (some max) = some m ∧ m ∈ max :: periodes ∧
      ∀ q ∈ max :: periodes, q.guidesNeeded ≤ m.guidesNeeded := by
  induction periodes generalizing max with
  | nil => exact ⟨max, rfl, List.mem_singleton_self _, fun q hq => by rw [List.mem_singleton.mp hq]⟩
  | cons p periodes ih =>
    rw [List.foldl_cons, plusExigeante]
    split
    · next hgt =>
      obtain ⟨m, hm, hmem, hle⟩ := ih p
      refine ⟨m, hm, List.mem_cons_of_mem _ hmem, List.forall_mem_cons.mpr ⟨?_, hle⟩⟩
      exact hgt.le.trans (hle p List.mem_cons_self)
    · next hgt =>
      obtain ⟨m, hm, hmem, hle⟩ := ih max
      obtain ⟨hmax, hrest⟩ := List.forall_mem_cons.mp hle
      refine ⟨m, hm, ?_, List.forall_mem_cons.mpr ⟨hmax, List.forall_mem_cons.mpr ⟨?_, hrest⟩⟩⟩
      · rcases List.mem_cons.mp hmem with rfl | hmem
        · exact List.mem_cons_self
        · exact List.mem_cons_of_mem _ (List.mem_cons_of_mem _ hmem)
      · exact (not_lt.mp hgt).trans hmax

theorem pic_eq (periodes : List CapacityPeriodShape) :
    (pic periodes = none ↔ periodes = []) ∧
      ∀ p ∈ pic periodes, p ∈ periodes ∧ ∀ q ∈ periodes, q.guidesNeeded ≤ p.guidesNeeded := by
  rcases periodes with - | ⟨p, periodes⟩
  · exact ⟨iff_of_true rfl rfl, fun p hp => nomatch hp⟩
  · obtain ⟨m, hm, hmem, hle⟩ := foldl_plusExigeante periodes p
    have hpic : pic (p :: periodes) = some m := hm
    rw [hpic]
    refine ⟨iff_of_false (by simp) (by simp), fun q hq => ?_⟩
    obtain rfl := Option.some.inj hq
    exact ⟨hmem, hle⟩

/-- **The peak of a load profile.** -/
theorem Profil.pic {periodes : List CapacityPeriodShape} (h : Profil voyages pilgrimsPerGuide periodes)
    (hguides : ∀ v ∈ voyages, 0 ≤ v.capacity → 0 ≤ v.guidesNeeded) : Pic voyages periodes (pic periodes) := by
  obtain ⟨hnone, hsome⟩ := pic_eq periodes
  refine ⟨hnone.trans ?_, fun p hp => (hsome p hp).1, fun p hp t ht => ?_, fun p hp hcapacity => ?_⟩
  · constructor
    · rintro rfl t v hv ht
      obtain ⟨p, hp, -⟩ := (h.couverture t).mpr ⟨v, hv, ht⟩
      cases hp
    · intro hall
      refine List.eq_nil_iff_forall_not_mem.mpr fun p hp => ?_
      obtain ⟨v, hv, ht⟩ := (h.couverture p.from).mp ⟨p, hp, le_refl _, h.nonempty p hp⟩
      exact hall _ v hv ht
  · obtain ⟨q, hq, hqt⟩ := (h.couverture t).mpr ht
    rw [guidesA, ← (h.charge q hq t hqt).guidesNeeded]
    exact (hsome p hp).2 q hq
  · have hmem := (hsome p hp).1
    rw [(h.charge p hmem p.from ⟨le_refl _, h.nonempty p hmem⟩).guidesNeeded]
    refine List.sum_nonneg fun n hn => ?_
    obtain ⟨v, hv, rfl⟩ := List.mem_map.mp hn
    have hv := (List.mem_filter.mp hv).1
    exact hguides v hv (hcapacity v hv)

/-! ## The simulator -/

/-- What the simulator returns. -/
theorem simulate_runs {s s' : Groups.Store} {ownerId : UserId} {query : CapacitySimulationQueryDto}
    {r : CapacitySimulationShape} (h : backend.Runs (CapacityService.simulate ownerId query) s (.ok r) s') :
    ∃ guides forfaits, r = simulation (query.pilgrimsPerGuide.getD defaultPilgrimsPerGuide)
      (query.extraGuides.getD 0) guides forfaits := by
  rcases Backend.runs_bind.mp h with ⟨agency, s₁, -, h⟩ | ⟨x, -, h⟩
  swap
  · cases h
  obtain ⟨e₁, e₂, e₃, h⟩ := h
  exact ⟨_, _, Except.ok.inj h.1⟩

theorem voyage_nonneg {pilgrimsPerGuide : Nat} {f : Forfait}
    (h : 0 ≤ (voyage pilgrimsPerGuide f).capacity) : 0 ≤ (voyage pilgrimsPerGuide f).guidesNeeded :=
  Int.ceil_nonneg (div_nonneg (Int.cast_nonneg h) (Nat.cast_nonneg _))

/-- **The periods of capacity are the load profile of the trips**, for any trips and any ratio, and the
peak that the simulator reports is one of the greatest load. -/
theorem capacity_profile (voyages : List CapacityTripShape) (pilgrimsPerGuide : ℚ) :
    Profil voyages pilgrimsPerGuide (periodesDeCharge voyages pilgrimsPerGuide) ∧
      ∀ s s' ownerId query r, backend.Runs (CapacityService.simulate ownerId query) s (.ok r) s' →
        r.periods = periodesDeCharge r.trips r.pilgrimsPerGuide ∧ Pic r.trips r.periods r.peak := by
  refine ⟨periodesDeCharge_profil voyages pilgrimsPerGuide, fun s s' ownerId query r h => ?_⟩
  obtain ⟨guides, forfaits, rfl⟩ := simulate_runs h
  refine ⟨rfl, (periodesDeCharge_profil _ _).pic fun v hv hcapacity => ?_⟩
  obtain ⟨f, -, rfl⟩ := List.mem_map.mp hv
  exact voyage_nonneg hcapacity

end OumraHajj.Capacity
