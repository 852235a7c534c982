import OumraHajj.Common.Dates

/-!
# A week and a month later

`civilFromDays` and `daysFromCivil` are inverse to each other on every day (`daysFromCivil_civilFromDays`),
so the setters of `Date` move an instant ahead (`lt_addDays`, `lt_addMonths`). Each day is in its month
(`debutMois_le`), so the months are in the order of the days (`moisDe_mono`).
-/

namespace OumraHajj

/-- The century of a 400-year cycle. -/
theorem century_of_cycle {doe yoe : Int} (h₀ : 0 ≤ doe) (h₁ : doe < 146097)
    (hyoe : yoe = (doe - doe / 1460 + doe / 36524 - doe / 146096) / 365) :
    yoe / 100 = doe / 36524 - doe / 146096 := by
  have hq : doe / 36524 = 0 ∨ doe / 36524 = 1 ∨ doe / 36524 = 2 ∨ doe / 36524 = 3 ∨
    doe / 36524 = 4 := by omega
  rcases hq with hq | hq | hq | hq | hq <;> rw [hq] at hyoe ⊢ <;> omega

/-- The year of a 400-year cycle, and the day of that year, of a day of the cycle. -/
theorem year_of_cycle {doe yoe : Int} (h₀ : 0 ≤ doe) (h₁ : doe < 146097)
    (hyoe : yoe = (doe - doe / 1460 + doe / 36524 - doe / 146096) / 365) :
    0 ≤ yoe ∧ yoe ≤ 399 ∧ 0 ≤ doe - (365 * yoe + yoe / 4 - yoe / 100) ∧
      doe - (365 * yoe + yoe / 4 - yoe / 100) ≤ 365 := by
  -- The leap days before the day of the cycle are those of the years before it.
  have hcent := century_of_cycle h₀ h₁ hyoe
  have hdiv : 365 * yoe ≤ doe - doe / 1460 + yoe / 100 ∧
      doe - doe / 1460 + yoe / 100 < 365 * yoe + 365 := by omega
  have hrange : 0 ≤ yoe ∧ yoe ≤ 399 := by omega
  clear hyoe hcent
  have hlow : yoe / 4 ≤ doe / 1460 := by omega
  have hhigh : doe / 1460 ≤ yoe / 4 + 1 := by omega
  omega

/-- A day of a cycle is before the year after its own. -/
theorem lt_next_year {doe yoe : Int} (h₀ : 0 ≤ doe) (h₁ : doe < 146097)
    (hyoe : yoe = (doe - doe / 1460 + doe / 36524 - doe / 146096) / 365) :
    doe < 365 * (yoe + 1) + (yoe + 1) / 4 - (yoe + 1) / 100 + (yoe + 1) / 400 := by
  have hcent := century_of_cycle h₀ h₁ hyoe
  have hdiv : 365 * yoe ≤ doe - doe / 1460 + yoe / 100 ∧
      doe - doe / 1460 + yoe / 100 < 365 * yoe + 365 := by omega
  have hrange : 0 ≤ yoe ∧ yoe ≤ 399 := by omega
  have hend : doe < 36524 * (yoe / 100 + 1) ∨ 399 = yoe := by omega
  clear hyoe hcent
  -- The last year of a century ends with it; any other year has its leap day if 4 divides it.
  by_cases hlast : (yoe + 1) % 100 = 0
  · have h4 : (yoe + 1) / 4 = 25 * (yoe / 100 + 1) := by omega
    omega
  · have hne : yoe ≠ 399 := by
      rintro rfl
      exact hlast (by decide)
    have hsame : (yoe + 1) / 100 = yoe / 100 ∧ (yoe + 1) / 400 = 0 := by omega
    have hleap : doe / 1460 ≤ (yoe + 1) / 4 := by omega
    omega

theorem fdiv_fmod (a : Int) : Int.fdiv a 12 = a / 12 ∧ Int.fmod a 12 = a % 12 ∧
    Int.fdiv a 400 = a / 400 ∧ Int.fdiv a 4 = a / 4 ∧ Int.fdiv a 100 = a / 100 ∧ Int.fdiv a 5 = a / 5 :=
  ⟨Int.fdiv_eq_ediv_of_nonneg a (by decide), Int.fmod_eq_emod_of_nonneg a (by decide),
    Int.fdiv_eq_ediv_of_nonneg a (by decide), Int.fdiv_eq_ediv_of_nonneg a (by decide),
    Int.fdiv_eq_ediv_of_nonneg a (by decide), Int.fdiv_eq_ediv_of_nonneg a (by decide)⟩

/-- The day number of a date in the year `yoe` of a cycle, by its month `mp` from March. -/
def dayNumber (era yoe mp jour : Int) : Int :=
  era * 146097 + (yoe * 365 + yoe / 4 - yoe / 100 + ((153 * mp + 2) / 5 + jour - 1)) - 719468

theorem daysFromCivil_eq {era yoe mp annee mois jour : Int} (hy : 0 ≤ yoe) (hy' : yoe ≤ 399)
    (hm : (mois - 3) % 12 = mp) (ha : annee + (mois - 3) / 12 = yoe + era * 400) :
    daysFromCivil annee mois jour = dayNumber era yoe mp jour := by
  have hera : (yoe + era * 400) / 400 = era := by omega
  simp only [daysFromCivil, fdiv_fmod, hm, ha, hera]
  rw [Int.add_sub_cancel]
  rfl

/-- The first day of a month, counted from March of the year 0. -/
def debutMois (k : Int) : Int :=
  365 * (k / 12) + k / 12 / 4 - k / 12 / 100 + k / 12 / 400 + (153 * (k % 12) + 2) / 5 - 719468

theorem cycle_add (yoe era : Int) : (yoe + era * 400) / 4 = yoe / 4 + era * 100 ∧
    (yoe + era * 400) / 100 = yoe / 100 + era * 4 ∧ (yoe + era * 400) / 400 = yoe / 400 + era := by
  omega

theorem debutMois_eq {k y m : Int} (hk : k = 12 * y + m) (h₀ : 0 ≤ m) (h₁ : m ≤ 11) :
    debutMois k = 365 * y + y / 4 - y / 100 + y / 400 + (153 * m + 2) / 5 - 719468 := by
  have hy : k / 12 = y := by omega
  have hm : k % 12 = m := by omega
  rw [debutMois, hy, hm]

/-- The year of the cycle, the month from March and the day of a day number. -/
theorem civilFromDays_spec (n : Int) : ∃ era yoe mp, 0 ≤ yoe ∧ yoe ≤ 399 ∧ 0 ≤ mp ∧ mp ≤ 11 ∧
    ((civilFromDays n).2.1 - 3) % 12 = mp ∧
    (civilFromDays n).1 + ((civilFromDays n).2.1 - 3) / 12 = yoe + era * 400 ∧
    n = dayNumber era yoe mp (civilFromDays n).2.2 ∧
    n < debutMois (12 * (yoe + era * 400) + mp + 1) ∧
    1 ≤ (civilFromDays n).2.1 ∧ (civilFromDays n).2.1 ≤ 12 ∧ 1 ≤ (civilFromDays n).2.2 := by
  have hfloor : ∀ a : Int, Int.fdiv a 146097 = a / 146097 ∧ Int.fdiv a 1460 = a / 1460 ∧
      Int.fdiv a 36524 = a / 36524 ∧ Int.fdiv a 146096 = a / 146096 ∧ Int.fdiv a 365 = a / 365 ∧
      Int.fdiv a 153 = a / 153 := fun a =>
    ⟨Int.fdiv_eq_ediv_of_nonneg a (by decide), Int.fdiv_eq_ediv_of_nonneg a (by decide),
      Int.fdiv_eq_ediv_of_nonneg a (by decide), Int.fdiv_eq_ediv_of_nonneg a (by decide),
      Int.fdiv_eq_ediv_of_nonneg a (by decide), Int.fdiv_eq_ediv_of_nonneg a (by decide)⟩
  obtain ⟨doe, hdoe⟩ : ∃ doe, doe = n + 719468 - (n + 719468) / 146097 * 146097 := ⟨_, rfl⟩
  obtain ⟨yoe, hyoe⟩ : ∃ yoe, yoe = (doe - doe / 1460 + doe / 36524 - doe / 146096) / 365 := ⟨_, rfl⟩
  obtain ⟨doy, hdoy⟩ : ∃ doy, doy = doe - (365 * yoe + yoe / 4 - yoe / 100) := ⟨_, rfl⟩
  obtain ⟨h₀, h₁, h₂, h₃⟩ := @year_of_cycle doe _ (by omega) (by omega) hyoe
  have hnext := @lt_next_year doe _ (by omega) (by omega) hyoe
  rw [← hdoy] at h₂ h₃
  refine ⟨(n + 719468) / 146097, yoe, (5 * doy + 2) / 153, h₀, h₁, by omega, by omega, ?_, ?_, ?_, ?_, ?_⟩
  · simp only [civilFromDays, hfloor, fdiv_fmod, ← hdoe, ← hyoe, ← hdoy]
    split <;> omega
  · simp only [civilFromDays, hfloor, fdiv_fmod, ← hdoe, ← hyoe, ← hdoy]
    split <;> split <;> omega
  · simp only [civilFromDays, hfloor, fdiv_fmod, ← hdoe, ← hyoe, ← hdoy, dayNumber]
    omega
  · obtain ⟨era, hera⟩ : ∃ era, era = (n + 719468) / 146097 := ⟨_, rfl⟩
    obtain ⟨mp, hmp⟩ : ∃ mp, mp = (5 * doy + 2) / 153 := ⟨_, rfl⟩
    have hn : n = doe + era * 146097 - 719468 := by omega
    rw [← hera, ← hmp, hn]
    clear hera hdoe hyoe hn
    have hyear := cycle_add yoe era
    have hyear' := cycle_add (yoe + 1) era
    rcases Int.lt_or_le mp 11 with hlt | hge
    · rw [debutMois_eq (y := yoe + era * 400) (m := mp + 1) (by omega) (by omega) (by omega),
        hyear.1, hyear.2.1, hyear.2.2]
      omega
    · rw [debutMois_eq (y := yoe + 1 + era * 400) (m := 0) (by omega) (by omega) (by omega),
        hyear'.1, hyear'.2.1, hyear'.2.2]
      omega
  · simp only [civilFromDays, hfloor, fdiv_fmod, ← hdoe, ← hyoe, ← hdoy]
    split <;> omega

/-- **The date of a day is that of no other day.** -/
theorem daysFromCivil_civilFromDays (n : Int) :
    daysFromCivil (civilFromDays n).1 (civilFromDays n).2.1 (civilFromDays n).2.2 = n := by
  obtain ⟨era, yoe, mp, hy, hy', -, -, hm, ha, hn, -⟩ := civilFromDays_spec n
  exact (daysFromCivil_eq hy hy' hm ha).trans hn.symm

/-- The same day of the next month is later. -/
theorem lt_next_month (n : Int) :
    n < daysFromCivil (civilFromDays n).1 ((civilFromDays n).2.1 + 1) (civilFromDays n).2.2 := by
  obtain ⟨era, yoe, mp, hy, hy', h₀, h₁, hm, ha, hn, -⟩ := civilFromDays_spec n
  rcases Int.lt_or_le mp 11 with hlt | hge
  · rw [@daysFromCivil_eq era yoe (mp + 1) _ _ _ hy hy' (by omega) (by omega)]
    simp only [dayNumber] at hn ⊢
    omega
  · rcases Int.lt_or_le yoe 399 with hlast | hlast
    · rw [@daysFromCivil_eq era (yoe + 1) 0 _ _ _ (by omega) (by omega) (by omega) (by omega)]
      simp only [dayNumber] at hn ⊢
      omega
    · rw [@daysFromCivil_eq (era + 1) 0 0 _ _ _ (by omega) (by omega) (by omega) (by omega)]
      simp only [dayNumber] at hn ⊢
      omega

/-! ## The months -/

/-- The month of a day, counted from March of the year 0. -/
def moisDe (n : Int) : Int := 12 * (civilFromDays n).1 + (civilFromDays n).2.1 - 3

theorem civilFromDays_mois (n : Int) : 1 ≤ (civilFromDays n).2.1 ∧ (civilFromDays n).2.1 ≤ 12 := by
  obtain ⟨_, _, _, -, -, -, -, -, -, -, -, h₁, h₂, -⟩ := civilFromDays_spec n
  exact ⟨h₁, h₂⟩

/-- A day is in its month. -/
theorem debutMois_le (n : Int) : debutMois (moisDe n) ≤ n ∧ n < debutMois (moisDe n + 1) := by
  obtain ⟨era, yoe, mp, hy, hy', h₀, h₁, hm, ha, hn, hnext, -, -, hjour⟩ := civilFromDays_spec n
  have hk : moisDe n = 12 * (yoe + era * 400) + mp := by
    unfold moisDe
    omega
  rw [hk]
  refine ⟨?_, hnext⟩
  rw [debutMois_eq rfl h₀ h₁, hn, dayNumber]
  omega

theorem debutMois_lt_succ (k : Int) : debutMois k < debutMois (k + 1) := by
  obtain ⟨y, m, hk, h₀, h₁⟩ : ∃ y m, k = 12 * y + m ∧ 0 ≤ m ∧ m ≤ 11 :=
    ⟨k / 12, k % 12, by omega, by omega, by omega⟩
  rw [debutMois_eq hk h₀ h₁]
  rcases Int.lt_or_le m 11 with hlt | hge
  · rw [debutMois_eq (y := y) (m := m + 1) (by omega) (by omega) (by omega)]
    omega
  · rw [debutMois_eq (y := y + 1) (m := 0) (by omega) (by omega) (by omega)]
    omega

theorem debutMois_mono {k k' : Int} (h : k ≤ k') : debutMois k ≤ debutMois k' := by
  obtain ⟨n, rfl⟩ := Int.le.dest h
  clear h
  induction n with
  | zero => simp
  | succ n ih =>
    have := debutMois_lt_succ (k + n)
    rw [Int.natCast_succ, ← Int.add_assoc]
    omega

/-- **The months are in the order of the days.** -/
theorem moisDe_mono {n n' : Int} (h : n ≤ n') : moisDe n ≤ moisDe n' := by
  rcases Int.lt_or_le (moisDe n') (moisDe n) with hlt | hle
  · have hmono := debutMois_mono (show moisDe n' + 1 ≤ moisDe n from hlt)
    have h₁ := (debutMois_le n').2
    have h₂ := (debutMois_le n).1
    omega
  · exact hle

theorem jourDe_mono {t t' : Time} (h : t ≤ t') : jourDe t ≤ jourDe t' := by
  unfold jourDe
  rw [Int.fdiv_eq_ediv_of_nonneg t (by decide), Int.fdiv_eq_ediv_of_nonneg t' (by decide)]
  exact Int.ediv_le_ediv (by decide) h

theorem lt_of_jourDe_lt {t t' : Time} (h : jourDe t < jourDe t') : t < t' :=
  Int.lt_of_not_ge fun hle => Int.not_le.mpr h (jourDe_mono hle)

theorem jourDe_addDays (t : Time) (n : Int) : jourDe (addDays t n) = jourDe t + n :=
  Int.add_mul_fdiv_right t n (by decide)

theorem addDays_addDays (t : Time) (m n : Int) : addDays (addDays t m) n = addDays t (m + n) := by
  unfold addDays
  rw [Int.add_assoc, ← Int.add_mul]

theorem addDays_zero (t : Time) : addDays t 0 = t := by
  unfold addDays
  rw [Int.zero_mul, Int.add_zero]

theorem addDays_lt {t t' : Time} (h : t < t') (n : Int) : addDays t n < addDays t' n :=
  Int.add_lt_add_right h _

theorem lt_addDays (t : Time) {n : Int} (hn : 0 < n) : t < addDays t n :=
  Int.lt_add_of_pos_right t (Int.mul_pos hn (by decide))

/-- The same time of the next month is a day later or more. -/
theorem le_addMonths (t : Time) : t + jourMs ≤ addMonths t 1 := by
  have hday : jourDe t + 1 ≤ daysFromCivil (civilFromDays (jourDe t)).1
      ((civilFromDays (jourDe t)).2.1 + 1) (civilFromDays (jourDe t)).2.2 := lt_next_month (jourDe t)
  have ht : jourDe t * jourMs + t.fmod jourMs = t := Int.fdiv_mul_add_fmod t jourMs
  have hmul := Int.mul_le_mul_of_nonneg_right hday (show (0 : Int) ≤ jourMs by decide)
  calc t + jourMs = (jourDe t + 1) * jourMs + t.fmod jourMs := by
        rw [Int.add_mul, Int.one_mul, Int.add_right_comm, ht]
    _ ≤ addMonths t 1 := Int.add_le_add_right hmul _

theorem lt_addMonths (t : Time) : t < addMonths t 1 :=
  Int.lt_of_lt_of_le (Int.lt_add_of_pos_right t (by decide)) (le_addMonths t)

end OumraHajj
