import Mathlib.Algebra.Order.BigOperators.Group.List
import OumraHajj.Async.Sequential
import OumraHajj.Profitability.Service

/-!
# Thresholds of profitability

The margin grows with the headcount by the contribution of a pilgrim, so `breakEvenPilgrims` is the least
headcount without a loss (`breakEven_least`). `minimumPrice` is rounded to cents, to the nearest: it is a
price without a loss exactly when the rounding does not go down (`minimumPrice_iff`).
-/

namespace OumraHajj.Profitability

open Async

variable {h : Hypotheses} {dto : ProfitabilitySimulationDto} {s s' : Store} {ownerId : UserId}
  {r : ProfitabilitySimulationShape}

/-- The margin is that of each pilgrim less the fixed costs. -/
theorem marge_eq (pilgrims : Int) (h : Hypotheses) :
    marge pilgrims h = h.unitContribution * pilgrims - h.fixedCosts := by
  unfold marge Hypotheses.unitContribution
  ring

/-- **A headcount has no loss from the break-even point on.** -/
theorem marge_nonneg_iff (hu : 0 < h.unitContribution) {pilgrims : Int} :
    0 ≤ marge pilgrims h ↔ ⌈h.fixedCosts / h.unitContribution⌉ ≤ pilgrims := by
  rw [marge_eq, Int.ceil_le, div_le_iff₀ hu, sub_nonneg, mul_comm]

/-- Without a contribution the fixed costs are never covered. -/
theorem marge_neg (hu : h.unitContribution ≤ 0) (hf : 0 < h.fixedCosts) (pilgrims : Nat) :
    marge pilgrims h < 0 := by
  rw [marge_eq]
  have hle : h.unitContribution * pilgrims ≤ 0 := mul_nonpos_of_nonpos_of_nonneg hu (Nat.cast_nonneg _)
  push_cast
  linarith

theorem somme_nonneg (lignes : List CostLineDto) : 0 ≤ somme lignes := by
  refine List.sum_nonneg fun x hx => ?_
  obtain ⟨ligne, -, rfl⟩ := List.mem_map.mp hx
  exact ligne.amount_mem.1

/-! ## The simulator -/

/-- What the request and the database say of the offer. -/
structure Offre (dto : ProfitabilitySimulationDto) where
  forfait : Option Package
  capacity : Int
  expected : Int
  hypotheses : Hypotheses
  price_eq : dto.price.or (forfait.map (·.price)) = some hypotheses.price
  capacity_eq : (dto.capacity.map Int.ofNat).or (forfait.map (·.capacity)) = some capacity
  expected_eq : (dto.expectedPilgrims.map Int.ofNat).getD capacity = expected
  costPerPilgrim_eq : hypotheses.costPerPilgrim = somme dto.costsPerPilgrim
  fixedCosts_eq : hypotheses.fixedCosts = somme dto.fixedCosts

/-- What the simulator returns for an offer. -/
def Offre.simulation (o : Offre dto) : ProfitabilitySimulationShape :=
  Profitability.simulation dto o.forfait o.capacity o.expected o.hypotheses

theorem simulate_runs (hrun : backend.Runs (ProfitabilityService.simulate ownerId dto) s (.ok r) s') :
    ∃ o : Offre dto, r = o.simulation := by
  rcases Backend.runs_bind.mp hrun with ⟨agence, s₁, -, hrun⟩ | ⟨x, -, hx⟩
  swap
  · cases hx
  rcases Backend.runs_bind.mp hrun with ⟨forfait, s₂, -, hrun⟩ | ⟨x, -, hx⟩
  swap
  · cases hx
  split at hrun
  · next price capacity hprice hcapacity =>
    dsimp only at hrun
    split at hrun
    · cases hrun.1
    · exact ⟨⟨forfait, capacity, _, _, hprice, hcapacity, rfl, rfl, rfl⟩, Except.ok.inj hrun.1⟩
  · cases hrun.1

theorem Offre.fixedCosts_nonneg (o : Offre dto) : 0 ≤ o.hypotheses.fixedCosts := by
  rw [o.fixedCosts_eq]
  exact somme_nonneg _

/-! ## The break-even point -/

/-- The break-even point is exact: the least headcount without a loss, which no greater one has, and absent
when the fixed costs are never covered. -/
structure Seuil (h : Hypotheses) (capacity : Int) (r : ProfitabilitySimulationShape) : Prop where
  least : 0 < h.unitContribution → ∃ n : Nat, r.breakEvenPilgrims = some (n : Int) ∧ 0 ≤ marge n h ∧
    (∀ m : Nat, m < n → marge m h < 0) ∧ ∀ m : Nat, n ≤ m → 0 ≤ marge m h
  reachable : 0 < h.unitContribution →
    (r.breakEvenReachable = true ↔ ∃ m : Nat, (m : Int) ≤ capacity ∧ 0 ≤ marge m h)
  never : h.unitContribution ≤ 0 → 0 < h.fixedCosts →
    r.breakEvenPilgrims = none ∧ ∀ m : Nat, marge m h < 0

/-- The break-even point is a natural number. -/
theorem Offre.exists_seuil (o : Offre dto) (hu : 0 < o.hypotheses.unitContribution) :
    ∃ n : Nat, ⌈o.hypotheses.fixedCosts / o.hypotheses.unitContribution⌉ = (n : Int) ∧
      o.simulation.breakEvenPilgrims = some (n : Int) := by
  have hnonneg := Int.ceil_nonneg (div_nonneg o.fixedCosts_nonneg hu.le)
  obtain ⟨n, hn⟩ := Int.eq_ofNat_of_zero_le hnonneg
  refine ⟨n, hn, ?_⟩
  show breakEvenPilgrims o.hypotheses = _
  rw [breakEvenPilgrims, if_pos hu, hn]

theorem Offre.seuil (o : Offre dto) : Seuil o.hypotheses o.capacity o.simulation where
  least hu := by
    obtain ⟨n, hceil, hn⟩ := o.exists_seuil hu
    have hiff : ∀ m : Nat, 0 ≤ marge m o.hypotheses ↔ n ≤ m := fun m => by
      rw [marge_nonneg_iff hu, hceil, Int.ofNat_le]
    refine ⟨n, hn, (hiff n).mpr (le_refl n), fun m hm => ?_, fun m hm => (hiff m).mpr hm⟩
    exact not_le.mp fun hnonneg => absurd ((hiff m).mp hnonneg) hm.not_ge
  reachable hu := by
    obtain ⟨n, hceil, hn⟩ := o.exists_seuil hu
    have hreach : o.simulation.breakEvenReachable = decide ((n : Int) ≤ o.capacity) := by
      show (o.simulation.breakEvenPilgrims).any (fun x => x ≤ o.capacity) = _
      rw [hn]
      rfl
    rw [hreach, decide_eq_true_iff]
    constructor
    · intro hle
      exact ⟨n, hle, (marge_nonneg_iff hu).mpr hceil.le⟩
    · rintro ⟨m, hm, hnonneg⟩
      exact (hceil ▸ (marge_nonneg_iff hu).mp hnonneg).trans hm
  never hu hf := by
    refine ⟨?_, marge_neg hu hf⟩
    show breakEvenPilgrims o.hypotheses = none
    rw [breakEvenPilgrims, if_neg (not_lt.mpr hu)]

/-- The price at which the expected scenario has no margin. -/
def prixExact (expected : Int) (h : Hypotheses) : ℚ :=
  (h.costPerPilgrim * expected + h.fixedCosts) / (expected * (1 - h.commissionRate))

/-- The offer at another price. -/
def Hypotheses.auPrix (h : Hypotheses) (price : ℚ) : Hypotheses := { h with price }

/-- A price has no loss from the exact one on. -/
theorem marge_auPrix_nonneg_iff {expected : Int} (hnet : 0 < netParPrix expected h.commissionRate)
    {price : ℚ} : 0 ≤ marge expected (h.auPrix price) ↔ prixExact expected h ≤ price := by
  have hmarge : marge expected (h.auPrix price) =
      price * netParPrix expected h.commissionRate - (h.costPerPilgrim * expected + h.fixedCosts) := by
    unfold marge Hypotheses.auPrix netParPrix
    ring
  rw [hmarge, sub_nonneg]
  exact (div_le_iff₀ hnet).symm

/-- The offer announces the price. -/
theorem Offre.minimumPrice_iff (o : Offre dto) {price : ℚ} (hprice : o.simulation.minimumPrice = some price) :
    0 ≤ marge o.expected (o.hypotheses.auPrix price) ↔
      Int.fract (prixExact o.expected o.hypotheses * 100) = 0 ∨
        1 / 2 ≤ Int.fract (prixExact o.expected o.hypotheses * 100) := by
  have hmin : minimumPrice o.expected o.hypotheses = some price := hprice
  unfold minimumPrice at hmin
  split at hmin
  · next hnet =>
    obtain rfl := Option.some.inj hmin
    rw [marge_auPrix_nonneg_iff hnet]
    exact le_arrondi_iff
  · cases hmin

/-- **When the minimum price is one without a loss**: the exact price is a whole number of cents, or half a
cent or more above one. -/
theorem minimumPrice_sans_perte (dto : ProfitabilitySimulationDto) :
    (∀ (o : Offre dto) (price : ℚ), o.simulation.minimumPrice = some price →
      (0 ≤ marge o.expected (o.hypotheses.auPrix price) ↔
        Int.fract (prixExact o.expected o.hypotheses * 100) = 0 ∨
          1 / 2 ≤ Int.fract (prixExact o.expected o.hypotheses * 100))) ∧
      ∀ s s' ownerId r, backend.Runs (ProfitabilityService.simulate ownerId dto) s (.ok r) s' →
        ∃ o : Offre dto, r = o.simulation :=
  ⟨fun o _ => o.minimumPrice_iff, fun _ _ _ _ => simulate_runs⟩

/-- A thousand for three pilgrims is announced as 333.33 each, which leaves a cent. -/
theorem minimumPrice_perte : ¬ ∀ (s s' : Store) (ownerId : UserId) (dto : ProfitabilitySimulationDto)
    (o : Offre dto) (price : ℚ),
    backend.Runs (ProfitabilityService.simulate ownerId dto) s (.ok o.simulation) s' →
    o.simulation.minimumPrice = some price → 0 ≤ marge o.expected (o.hypotheses.auPrix price) := by
  intro h
  let dto : ProfitabilitySimulationDto :=
    { price := some 500
      capacity := some 3
      costsPerPilgrim := []
      fixedCosts := [⟨"Guide", 1000, by decide, ⟨100000, by norm_num⟩, by norm_num⟩]
      price_mem := by rintro x ⟨⟩; exact ⟨by norm_num, by norm_num, 50000, by norm_num⟩
      currency_mem := by rintro x ⟨⟩
      capacity_mem := by rintro n ⟨⟩; decide
      expectedPilgrims_le := by rintro n ⟨⟩
      lignes_length := by decide }
  let o : Offre dto :=
    { forfait := none
      capacity := 3
      expected := 3
      hypotheses := ⟨500, 0, somme dto.costsPerPilgrim, somme dto.fixedCosts⟩
      price_eq := rfl
      capacity_eq := rfl
      expected_eq := rfl
      costPerPilgrim_eq := rfl
      fixedCosts_eq := rfl }
  let s : Store :=
    { app := { agencies := [{ ownerId := 0, legalName := "Agence", contactEmail := "", contactPhone := "" }] } }
  have hrun : backend.Runs (ProfitabilityService.simulate 0 dto) s (.ok o.simulation) _ :=
    Backend.runs_of_eval (e := {}) rfl
  have hprice : o.simulation.minimumPrice = some (33333 / 100) := by decide +kernel
  have hloss : marge o.expected (o.hypotheses.auPrix (33333 / 100)) < 0 := by decide +kernel
  exact absurd (h _ _ _ dto o _ hrun hprice) hloss.not_ge

end OumraHajj.Profitability
