import Mathlib.Data.Int.ConditionallyCompleteOrder
import Mathlib.Data.Int.SuccPred
import Mathlib.Order.SuccPred.Archimedean

/-!
# Tiers

A schedule of tiers, each a threshold with a value, gives an integer the value of the first tier whose
threshold it reaches, and `base` if it reaches none. It is `Coherent` if the highest threshold comes
first and the values never go up from one tier to the next, nor under `base`. Then the value is the one
of the greatest threshold that is reached (`value_cases`), it is monotone (`value_mono`), and it jumps
somewhere unless every tier has the value `base` (`exists_jump`).
-/

namespace Tiers

variable {R : Type} {base : R} {l : List (Int × R)} {j : Int}

/-- The value at `j` (module doc). -/
def value (base : R) (l : List (Int × R)) (j : Int) : R :=
  ((l.find? fun p => p.1 ≤ j).map Prod.snd).getD base

@[simp] theorem value_nil (base : R) (j : Int) : value base [] j = base := rfl

theorem value_cons_of_le {p : Int × R} (h : p.1 ≤ j) : value base (p :: l) j = p.2 := by
  rw [value, List.find?_cons_of_pos (by simpa using h), Option.map_some, Option.getD_some]

theorem value_cons_of_lt {p : Int × R} (h : j < p.1) :
    value base (p :: l) j = value base l j := by
  rw [value, List.find?_cons_of_neg (by simpa using h), value]

theorem value_const (h : ∀ p ∈ l, p.2 = base) (j : Int) : value base l j = base := by
  induction l with
  | nil => rfl
  | cons p l ih =>
    rcases le_or_gt p.1 j with hj | hj
    · rw [value_cons_of_le hj, h p List.mem_cons_self]
    · rw [value_cons_of_lt hj]
      exact ih fun q hq => h q (List.mem_cons_of_mem _ hq)

/-- Under every threshold the value is `base`. -/
theorem exists_value_base (base : R) (l : List (Int × R)) : ∃ j, ∀ i ≤ j, value base l i = base := by
  induction l with
  | nil => exact ⟨0, fun _ _ => rfl⟩
  | cons p l ih =>
    obtain ⟨j, hj⟩ := ih
    refine ⟨min j (p.1 - 1), fun i hi => ?_⟩
    rw [value_cons_of_lt (by omega)]
    exact hj i (by omega)

/-- The highest threshold comes first: the value is the one of the greatest threshold that is
reached. -/
theorem value_cases (base : R) (h : l.Pairwise fun a b => b.1 < a.1) (j : Int) :
    (∀ p ∈ l, j < p.1) ∧ value base l j = base ∨
      ∃ p ∈ l, p.1 ≤ j ∧ (∀ q ∈ l, q.1 ≤ j → q.1 ≤ p.1) ∧ value base l j = p.2 := by
  induction l with
  | nil => exact .inl ⟨fun p hp => absurd hp List.not_mem_nil, rfl⟩
  | cons p l ih =>
    obtain ⟨hp, hl⟩ := List.pairwise_cons.mp h
    rcases le_or_gt p.1 j with hj | hj
    · refine .inr ⟨p, List.mem_cons_self, hj, fun q hq _ => ?_, value_cons_of_le hj⟩
      rcases List.mem_cons.mp hq with rfl | hq
      · exact le_refl _
      · exact (hp q hq).le
    · rw [value_cons_of_lt hj]
      rcases ih hl with ⟨hnone, hv⟩ | ⟨q, hq, hqj, hmax, hv⟩
      · exact .inl ⟨List.forall_mem_cons.mpr ⟨hj, hnone⟩, hv⟩
      · refine .inr ⟨q, List.mem_cons_of_mem _ hq, hqj, fun x hx hxj => ?_, hv⟩
        rcases List.mem_cons.mp hx with rfl | hx
        · exact absurd hxj (not_le.mpr hj)
        · exact hmax x hx hxj

variable [LinearOrder R]

/-- The tiers are in order (module doc). -/
structure Coherent (base : R) (l : List (Int × R)) : Prop where
  ordered : l.Pairwise fun a b => b.1 < a.1 ∧ b.2 ≤ a.2
  base_le : ∀ p ∈ l, base ≤ p.2

theorem Coherent.tail {p : Int × R} (h : Coherent base (p :: l)) : Coherent base l :=
  ⟨(List.pairwise_cons.mp h.ordered).2, fun q hq => h.base_le q (List.mem_cons_of_mem _ hq)⟩

theorem Coherent.head {p : Int × R} (h : Coherent base (p :: l)) :
    base ≤ p.2 ∧ ∀ q ∈ l, q.1 < p.1 ∧ q.2 ≤ p.2 :=
  ⟨h.base_le p List.mem_cons_self, (List.pairwise_cons.mp h.ordered).1⟩

/-- No value is over the one of the first tier. -/
theorem value_le {r : R} (hb : base ≤ r) (h : ∀ q ∈ l, q.2 ≤ r) (j : Int) : value base l j ≤ r := by
  induction l with
  | nil => exact hb
  | cons p l ih =>
    rcases le_or_gt p.1 j with hj | hj
    · rw [value_cons_of_le hj]
      exact h p List.mem_cons_self
    · rw [value_cons_of_lt hj]
      exact ih fun q hq => h q (List.mem_cons_of_mem _ hq)

theorem value_mono (h : Coherent base l) : Monotone (value base l) := by
  intro j j' hjj'
  induction l with
  | nil => exact le_refl base
  | cons p l ih =>
    rcases le_or_gt p.1 j with hj | hj
    · rw [value_cons_of_le hj, value_cons_of_le (le_trans hj hjj')]
    · rw [value_cons_of_lt hj]
      rcases le_or_gt p.1 j' with hj' | hj'
      · rw [value_cons_of_le hj']
        exact value_le h.head.1 (fun q hq => (h.head.2 q hq).2) j
      · rw [value_cons_of_lt hj']
        exact ih h.tail

/-- The value at the threshold of a tier is at least the one of the tier. -/
theorem le_value (h : Coherent base l) {p : Int × R} (hp : p ∈ l) : p.2 ≤ value base l p.1 := by
  induction l with
  | nil => cases hp
  | cons q l ih =>
    rcases List.mem_cons.mp hp with rfl | hp
    · rw [value_cons_of_le (le_refl _)]
    · rcases le_or_gt q.1 p.1 with hq | hq
      · rw [value_cons_of_le hq]
        exact (h.head.2 p hp).2
      · rw [value_cons_of_lt hq]
        exact ih h.tail hp

/-- A tier with another value than `base` makes the value jump. -/
theorem exists_jump (h : Coherent base l) {p : Int × R} (hp : p ∈ l) (hne : p.2 ≠ base) :
    ∃ j, value base l (j - 1) < value base l j := by
  by_contra hnone
  have hanti : Antitone (value base l) := by
    refine antitone_int_of_succ_le fun j => not_lt.mp fun hlt => hnone ⟨j + 1, ?_⟩
    rwa [add_sub_cancel_right]
  obtain ⟨j, hj⟩ := exists_value_base base l
  have hlow : value base l p.1 ≤ base :=
    (hanti (min_le_right j p.1)).trans (le_of_eq (hj _ (min_le_left j p.1)))
  exact hne (le_antisymm ((le_value h hp).trans hlow) (h.base_le p hp))

end Tiers
