import Mathlib.Data.Rat.Floor
import Mathlib.Tactic.FieldSimp
import Mathlib.Tactic.Ring
import Mathlib.Algebra.BigOperators.Group.List.Basic

/-!
# Amounts

Amounts and rates are `Float` columns; here they are exact rationals. `arrondi` is the rounding to
two decimals that the services share, `Math.round(montant * 100) / 100`: to the nearest, halves up.
`TwoDecimals x`: `x` is a whole number of hundredths, so that `arrondi` leaves it as it is
(`arrondi_eq`). Sums and differences of such amounts are such amounts.
-/

namespace OumraHajj

/-- `Math.round`: to the nearest integer, halves up. -/
def mathRound (x : ℚ) : Int := ⌊x + 1 / 2⌋

/-- `Math.round(montant * 100) / 100`. -/
def arrondi (montant : ℚ) : ℚ := mathRound (montant * 100) / 100

/-- A whole number of hundredths. -/
def TwoDecimals (x : ℚ) : Prop := ∃ n : Int, x = n / 100

theorem mathRound_intCast (n : Int) : mathRound n = n := by
  rw [mathRound, Int.floor_eq_iff]
  constructor <;> linarith

theorem twoDecimals_arrondi (x : ℚ) : TwoDecimals (arrondi x) := ⟨_, rfl⟩

theorem arrondi_eq {x : ℚ} (h : TwoDecimals x) : arrondi x = x := by
  obtain ⟨n, rfl⟩ := h
  rw [arrondi, show (n : ℚ) / 100 * 100 = n by field_simp, mathRound_intCast]

theorem mathRound_le_iff {x : ℚ} {n : Int} : mathRound x ≤ n ↔ x < n + 1 / 2 := by
  rw [mathRound, Int.floor_le_iff]
  constructor <;> intro h <;> linarith

theorem mathRound_mono {x y : ℚ} (h : x ≤ y) : mathRound x ≤ mathRound y :=
  Int.floor_le_floor (by linarith)

/-- When rounding does not go down: from a whole number, or from half a unit above one. -/
theorem le_mathRound_iff {x : ℚ} : x ≤ mathRound x ↔ Int.fract x = 0 ∨ 1 / 2 ≤ Int.fract x := by
  have hfloor := Int.floor_add_fract x
  have hlt := Int.fract_lt_one x
  rcases lt_or_ge (Int.fract x) (1 / 2) with hhalf | hhalf
  · have hround : mathRound x = ⌊x⌋ := by
      rw [mathRound, Int.floor_eq_iff]
      constructor <;> linarith [Int.fract_nonneg x]
    rw [hround, or_iff_left hhalf.not_ge]
    constructor
    · intro hle
      linarith [Int.fract_nonneg x]
    · intro hzero
      linarith
  · have hround : mathRound x = ⌊x⌋ + 1 := by
      rw [mathRound, Int.floor_eq_iff]
      push_cast
      constructor <;> linarith
    rw [hround, or_iff_right_of_imp fun _ => hhalf]
    refine iff_of_true ?_ hhalf
    push_cast
    linarith

/-- When rounding to hundredths does not go down. -/
theorem le_arrondi_iff {x : ℚ} :
    x ≤ arrondi x ↔ Int.fract (x * 100) = 0 ∨ 1 / 2 ≤ Int.fract (x * 100) := by
  rw [← le_mathRound_iff, arrondi, le_div_iff₀ (by norm_num)]

/-- When rounding stays within a bound: less than half a hundredth above the whole hundredths of it. -/
theorem arrondi_le_iff {x y : ℚ} : arrondi x ≤ y ↔ x * 100 < ⌊y * 100⌋ + 1 / 2 := by
  rw [arrondi, div_le_iff₀ (by norm_num), ← Int.le_floor, mathRound_le_iff]

theorem arrondi_nonneg {x : ℚ} (h : 0 ≤ x) : 0 ≤ arrondi x := by
  have hround : 0 ≤ mathRound (x * 100) := Int.floor_nonneg.mpr (by linarith)
  exact div_nonneg (Int.cast_nonneg hround) (by norm_num)

theorem twoDecimals_zero : TwoDecimals 0 := ⟨0, by simp⟩

theorem TwoDecimals.add {x y : ℚ} (hx : TwoDecimals x) (hy : TwoDecimals y) :
    TwoDecimals (x + y) := by
  obtain ⟨n, rfl⟩ := hx
  obtain ⟨m, rfl⟩ := hy
  exact ⟨n + m, by push_cast; ring⟩

theorem TwoDecimals.sub {x y : ℚ} (hx : TwoDecimals x) (hy : TwoDecimals y) :
    TwoDecimals (x - y) := by
  obtain ⟨n, rfl⟩ := hx
  obtain ⟨m, rfl⟩ := hy
  exact ⟨n - m, by push_cast; ring⟩

theorem TwoDecimals.max_zero {x : ℚ} (hx : TwoDecimals x) : TwoDecimals (max 0 x) := by
  rcases max_choice 0 x with h | h <;> rw [h]
  · exact twoDecimals_zero
  · exact hx

theorem TwoDecimals.sum {α : Type} {l : List α} {f : α → ℚ} (h : ∀ x ∈ l, TwoDecimals (f x)) :
    TwoDecimals (l.map f).sum := by
  induction l with
  | nil => exact twoDecimals_zero
  | cons x l ih =>
    rw [List.map_cons, List.sum_cons]
    exact (h x List.mem_cons_self).add (ih fun y hy => h y (List.mem_cons_of_mem _ hy))

end OumraHajj
