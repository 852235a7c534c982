import Mathlib.Logic.Function.Iterate
import Mathlib.Order.Basic
import OumraHajj.Common.Calendar

/-!
# The same day of the next month

`setMonth` keeps the day of the month, and goes over the end of a month that lacks it: a month after the
31st of January is the 3rd of March, or the 2nd. `Deborde t`: this happens from the instant `t`, and a
month is skipped exactly then (`moisSuivant_addMonths`). From one month to the next for ever, it happens
unless the day is 28 or less (`jamais_deborde_iff`): a February is met, in a year that is not a leap year.
-/

namespace OumraHajj

/-- `getDate`. -/
def jourDuMois (t : Time) : Int := (civilFromDays (jourDe t)).2.2

/-- The number of days of a month. -/
def longueur (k : Int) : Int := debutMois (k + 1) - debutMois k

/-- The next month lacks the day of the month. -/
def Deborde (t : Time) : Prop := longueur (moisDe (jourDe t) + 1) < jourDuMois t

instance : DecidablePred Deborde := fun _ => inferInstanceAs (Decidable (_ < _))

/-- The second instant is in the calendar month after that of the first. -/
def MoisSuivant (t t' : Time) : Prop := moisDe (jourDe t') = moisDe (jourDe t) + 1

instance (t t' : Time) : Decidable (MoisSuivant t t') := inferInstanceAs (Decidable (_ = _))

theorem daysFromCivil_debutMois (annee mois jour : Int) :
    daysFromCivil annee mois jour = debutMois (12 * annee + mois - 3) + jour - 1 := by
  obtain ⟨y, hy⟩ : ∃ y, y = annee + (mois - 3) / 12 := ⟨_, rfl⟩
  have hm : 0 ≤ (mois - 3) % 12 ∧ (mois - 3) % 12 ≤ 11 := by omega
  have hyoe : 0 ≤ y % 400 ∧ y % 400 ≤ 399 := by omega
  have hcycle := cycle_add (y % 400) (y / 400)
  rw [@daysFromCivil_eq (y / 400) (y % 400) ((mois - 3) % 12) _ _ _ hyoe.1 hyoe.2 rfl (by omega),
    debutMois_eq (y := y % 400 + y / 400 * 400) (m := (mois - 3) % 12) (by omega) hm.1 hm.2, hcycle.1,
    hcycle.2.1, hcycle.2.2, dayNumber]
  omega

/-- The month of a day is the one that it is in. -/
theorem moisDe_eq {n k : Int} (h₁ : debutMois k ≤ n) (h₂ : n < debutMois (k + 1)) : moisDe n = k := by
  obtain ⟨h₃, h₄⟩ := debutMois_le n
  rcases Int.lt_trichotomy (moisDe n) k with hlt | heq | hgt
  · have := debutMois_mono (show moisDe n + 1 ≤ k from hlt)
    omega
  · exact heq
  · have := debutMois_mono (show k + 1 ≤ moisDe n from hgt)
    omega

/-- The day of a month, from its first day. -/
theorem jourDe_eq (t : Time) : jourDe t = debutMois (moisDe (jourDe t)) + jourDuMois t - 1 := by
  have h := daysFromCivil_debutMois (civilFromDays (jourDe t)).1 (civilFromDays (jourDe t)).2.1
    (civilFromDays (jourDe t)).2.2
  rwa [daysFromCivil_civilFromDays] at h

theorem jourDe_minuit_add (jour : Int) (t : Time) : jourDe (minuit jour + t.fmod jourMs) = jour := by
  have hpos : (0 : Int) < jourMs := by decide
  have hne : (jourMs : Int) ≠ 0 := by decide
  have hrest : (t.fmod jourMs).fdiv jourMs = 0 := by
    rw [Int.fmod_eq_emod_of_nonneg t (Int.le_of_lt hpos),
      Int.fdiv_eq_ediv_of_nonneg _ (Int.le_of_lt hpos)]
    exact Int.ediv_eq_zero_of_lt (Int.emod_nonneg t hne) (Int.emod_lt_of_pos t hpos)
  rw [jourDe, minuit, Int.add_comm, Int.add_mul_fdiv_right _ _ hne, hrest, Int.zero_add]

/-- The day that `setMonth` takes, counted from the first day of the next month. -/
theorem jourDe_addMonths (t : Time) :
    jourDe (addMonths t 1) = debutMois (moisDe (jourDe t) + 1) + jourDuMois t - 1 := by
  have hday : jourDe (addMonths t 1) = daysFromCivil (civilFromDays (jourDe t)).1
      ((civilFromDays (jourDe t)).2.1 + 1) (civilFromDays (jourDe t)).2.2 := jourDe_minuit_add _ t
  have hmois : 12 * (civilFromDays (jourDe t)).1 + ((civilFromDays (jourDe t)).2.1 + 1) - 3 =
      moisDe (jourDe t) + 1 := by
    unfold moisDe
    omega
  rw [hday, daysFromCivil_debutMois, hmois]
  rfl

/-! ## The lengths of the months -/

/-- The leap day that the year `y`, counted from March, ends with. -/
def bissextile (y : Int) : Int :=
  (y + 1) / 4 - y / 4 - ((y + 1) / 100 - y / 100) + ((y + 1) / 400 - y / 400)

theorem bissextile_bounds (y : Int) : 0 ≤ bissextile y ∧ bissextile y ≤ 1 := by
  unfold bissextile
  omega

theorem longueur_eq {k y m : Int} (hk : k = 12 * y + m) (h₀ : 0 ≤ m) (h₁ : m ≤ 11) :
    longueur k = if m = 11 then 28 + bissextile y else (153 * (m + 1) + 2) / 5 - (153 * m + 2) / 5 := by
  rw [longueur, debutMois_eq hk h₀ h₁]
  split
  · next hm =>
    rw [debutMois_eq (y := y + 1) (m := 0) (by omega) (by omega) (by omega), bissextile, hm]
    omega
  · next hm =>
    rw [debutMois_eq (y := y) (m := m + 1) (by omega) (by omega) (by omega)]
    omega

/-- A month has 28 days or more, and 31 or less. -/
theorem longueur_bounds (k : Int) : 28 ≤ longueur k ∧ longueur k ≤ 31 := by
  obtain ⟨y, m, hk, h₀, h₁⟩ : ∃ y m, k = 12 * y + m ∧ 0 ≤ m ∧ m ≤ 11 :=
    ⟨k / 12, k % 12, by omega, by omega, by omega⟩
  have hleap := bissextile_bounds y
  rw [longueur_eq hk h₀ h₁]
  split <;> omega

/-- The February of an odd year. -/
theorem longueur_fevrier (q : Int) : longueur (24 * q + 11) = 28 := by
  have hleap : bissextile (2 * q) = 0 := by
    unfold bissextile
    omega
  rw [longueur_eq (y := 2 * q) (m := 11) (by omega) (by decide) (by decide), if_pos rfl, hleap]
  rfl

theorem jourDuMois_bounds (t : Time) :
    1 ≤ jourDuMois t ∧ jourDuMois t ≤ longueur (moisDe (jourDe t)) := by
  obtain ⟨h₁, h₂⟩ := debutMois_le (jourDe t)
  have heq := jourDe_eq t
  unfold longueur
  omega

/-! ## A month later -/

/-- The day exists in the next month. -/
theorem addMonths_of_not_deborde {t : Time} (h : ¬ Deborde t) :
    MoisSuivant t (addMonths t 1) ∧ jourDuMois (addMonths t 1) = jourDuMois t := by
  have hle : jourDuMois t ≤ longueur (moisDe (jourDe t) + 1) := Int.not_lt.mp h
  have hday := jourDe_addMonths t
  have hpos := (jourDuMois_bounds t).1
  unfold longueur at hle
  have hmois : MoisSuivant t (addMonths t 1) := moisDe_eq (by omega) (by omega)
  have heq := jourDe_eq (addMonths t 1)
  rw [show moisDe (jourDe (addMonths t 1)) = moisDe (jourDe t) + 1 from hmois] at heq
  exact ⟨hmois, by omega⟩

/-- The next month is skipped, for the first days of the one after it. -/
theorem addMonths_of_deborde {t : Time} (h : Deborde t) :
    moisDe (jourDe (addMonths t 1)) = moisDe (jourDe t) + 2 ∧ jourDuMois (addMonths t 1) ≤ 3 := by
  have hlt : longueur (moisDe (jourDe t) + 1) < jourDuMois t := h
  have hday := jourDe_addMonths t
  have hjour := jourDuMois_bounds t
  have hlen := longueur_bounds (moisDe (jourDe t))
  have hlen₁ := longueur_bounds (moisDe (jourDe t) + 1)
  have hlen₂ := longueur_bounds (moisDe (jourDe t) + 1 + 1)
  unfold longueur at hlt hjour hlen hlen₁ hlen₂
  have hmois : moisDe (jourDe (addMonths t 1)) = moisDe (jourDe t) + 1 + 1 :=
    moisDe_eq (by omega) (by omega)
  have heq := jourDe_eq (addMonths t 1)
  rw [hmois] at heq
  exact ⟨by omega, by omega⟩

/-- **When no month is skipped.** -/
theorem moisSuivant_addMonths {t : Time} : MoisSuivant t (addMonths t 1) ↔ ¬ Deborde t := by
  refine ⟨fun hmois h => ?_, fun h => (addMonths_of_not_deborde h).1⟩
  have hskip := (addMonths_of_deborde h).1
  unfold MoisSuivant at hmois
  omega

/-- The next date is on day 28 or before, if the day is or does not exist in the next month. -/
theorem jourDuMois_addMonths {t : Time} :
    jourDuMois (addMonths t 1) ≤ 28 ↔ jourDuMois t ≤ 28 ∨ Deborde t := by
  by_cases h : Deborde t
  · have := (addMonths_of_deborde h).2
    exact iff_of_true (by omega) (.inr h)
  · rw [(addMonths_of_not_deborde h).2]
    simp [h]

/-! ## From month to month -/

/-- The date so many months later, a month at a time. -/
def parMois (d : Time) (n : Nat) : Time := (fun t => addMonths t 1)^[n] d

theorem parMois_zero (d : Time) : parMois d 0 = d := rfl

theorem parMois_succ (d : Time) (n : Nat) : parMois d (n + 1) = addMonths (parMois d n) 1 :=
  Function.iterate_succ_apply' _ n d

theorem parMois_next (d : Time) (n : Nat) : parMois d (n + 1) = parMois (addMonths d 1) n := rfl

/-- As long as no month is skipped, the day stays. -/
theorem parMois_of_not_deborde {d : Time} {n : Nat} (h : ∀ i < n, ¬ Deborde (parMois d i)) :
    moisDe (jourDe (parMois d n)) = moisDe (jourDe d) + n ∧ jourDuMois (parMois d n) = jourDuMois d := by
  induction n with
  | zero => exact ⟨by simp [parMois_zero], rfl⟩
  | succ n ih =>
    obtain ⟨hmois, hjour⟩ := ih fun i hi => h i (Nat.lt_succ_of_lt hi)
    obtain ⟨hmois', hjour'⟩ := addMonths_of_not_deborde (h n (Nat.lt_succ_self n))
    unfold MoisSuivant at hmois'
    rw [parMois_succ]
    refine ⟨?_, hjour'.trans hjour⟩
    rw [hmois', hmois]
    push_cast
    omega

/-- **When no month is ever skipped.** -/
theorem jamais_deborde_iff {d : Time} : (∀ n, ¬ Deborde (parMois d n)) ↔ jourDuMois d ≤ 28 := by
  constructor
  · intro h
    -- the month before a February of 28 days
    obtain ⟨q, n, hq⟩ : ∃ (q : Int) (n : Nat), moisDe (jourDe d) + n + 1 = 24 * q + 11 :=
      ⟨moisDe (jourDe d) / 24 + 1, (24 * (moisDe (jourDe d) / 24 + 1) + 10 - moisDe (jourDe d)).toNat,
        by omega⟩
    obtain ⟨hmois, hjour⟩ := parMois_of_not_deborde fun i (_ : i < n) => h i
    have hle : jourDuMois (parMois d n) ≤ longueur (moisDe (jourDe (parMois d n)) + 1) :=
      Int.not_lt.mp (h n)
    rwa [hmois, hq, longueur_fevrier, hjour] at hle
  · intro hle n
    induction n using Nat.strongRecOn with
    | ind n ih =>
      have hlen := longueur_bounds (moisDe (jourDe (parMois d n)) + 1)
      have hjour := (parMois_of_not_deborde ih).2
      unfold Deborde
      omega

end OumraHajj
