import OumraHajj.Common.Calendar
import OumraHajj.Common.Iso
import OumraHajj.Common.While
import OumraHajj.Ledger.Balance

/-!
# The schedule of a booking

What the treasury adds to its months for one booking: the instalments of its balance, `Echeances`. The
dates of a savings plan are walked by a loop (`etaler`), which ends because each turn is a week or a month
later (`etaler_while`).
-/

namespace OumraHajj.Treasury

open Async

/-! ## The months -/

/-- The month is before the other. -/
def Avant (k k' : MonthKey) : Prop := k.1 < k'.1 ∨ k.1 = k'.1 ∧ k.2 < k'.2

instance (k k' : MonthKey) : Decidable (Avant k k') := inferInstanceAs (Decidable (_ ∨ _))

theorem avant_iff {t t' : Time} :
    Avant (monthKey t) (monthKey t') ↔ moisDe (jourDe t) < moisDe (jourDe t') := by
  have h := civilFromDays_mois (jourDe t)
  have h' := civilFromDays_mois (jourDe t')
  have hkey : ∀ t : Time,
    monthKey t = ((civilFromDays (jourDe t)).1, (civilFromDays (jourDe t)).2.1) := fun _ => rfl
  rw [hkey, hkey]
  unfold Avant moisDe
  omega

theorem not_avant_of_le {t t' : Time} (h : t ≤ t') : ¬ Avant (monthKey t') (monthKey t) := by
  rw [avant_iff]
  have := moisDe_mono (jourDe_mono h)
  omega

/-! ## The map of the months -/

section Map

variable {m : ProjectionsMap}

/-- What is expected in all the months. -/
def total (m : ProjectionsMap) : ℚ := (m.map Prod.snd).sum

theorem total_add (key : MonthKey) (montant : ℚ) (m : ProjectionsMap) :
    total (m.add key montant) = total m + montant := by
  induction m with
  | nil => simp [ProjectionsMap.add, total]
  | cons e m ih =>
    unfold ProjectionsMap.add
    split
    · simp only [total, List.map_cons, List.sum_cons]
      ring
    · simp only [total, List.map_cons, List.sum_cons] at ih ⊢
      rw [ih]
      ring

theorem mem_keys_add {key k : MonthKey} {montant : ℚ} :
    k ∈ (m.add key montant).map Prod.fst ↔ k = key ∨ k ∈ m.map Prod.fst := by
  induction m with
  | nil => simp [ProjectionsMap.add]
  | cons e m ih =>
    unfold ProjectionsMap.add
    split
    · next h => simp [h]
    · rw [List.map_cons, List.map_cons, List.mem_cons, List.mem_cons, ih]
      tauto

theorem nodup_add {key : MonthKey} {montant : ℚ} (h : (m.map Prod.fst).Nodup) :
    ((m.add key montant).map Prod.fst).Nodup := by
  induction m with
  | nil => simp [ProjectionsMap.add]
  | cons e m ih =>
    obtain ⟨hne, hm⟩ := List.nodup_cons.mp h
    unfold ProjectionsMap.add
    split
    · exact h
    · next hkey =>
      refine List.nodup_cons.mpr ⟨fun hmem => ?_, ih hm⟩
      rcases mem_keys_add.mp hmem with hk | hk
      · exact hkey hk
      · exact hne hk

/-- The instalments are added to the map. -/
def ajouter (m : ProjectionsMap) (l : List (MonthKey × ℚ)) : ProjectionsMap :=
  l.foldl (fun m e => m.add e.1 e.2) m

theorem ajouter_append (m : ProjectionsMap) (l l' : List (MonthKey × ℚ)) :
    ajouter m (l ++ l') = ajouter (ajouter m l) l' := List.foldl_append

theorem total_ajouter (m : ProjectionsMap) (l : List (MonthKey × ℚ)) :
    total (ajouter m l) = total m + (l.map Prod.snd).sum := by
  induction l generalizing m with
  | nil => simp [ajouter]
  | cons e l ih =>
    rw [List.map_cons, List.sum_cons, ← add_assoc, ← total_add]
    exact ih _

theorem mem_keys_ajouter {k : MonthKey} {l : List (MonthKey × ℚ)} :
    k ∈ (ajouter m l).map Prod.fst ↔ k ∈ m.map Prod.fst ∨ k ∈ l.map Prod.fst := by
  induction l generalizing m with
  | nil => simp [ajouter]
  | cons e l ih =>
    have hstep : ajouter m (e :: l) = ajouter (m.add e.1 e.2) l := rfl
    rw [hstep, ih, mem_keys_add, List.map_cons, List.mem_cons]
    tauto

theorem nodup_ajouter {l : List (MonthKey × ℚ)} (h : (m.map Prod.fst).Nodup) :
    ((ajouter m l).map Prod.fst).Nodup := by
  induction l generalizing m with
  | nil => exact h
  | cons e l ih => exact ih (nodup_add h)

end Map

/-! ## The dates of a savings plan -/

section Loop

/-- The state of the loop. -/
structure Etalement where
  currentBalance : ℚ
  currentDate : Time
  projectionsMap : ProjectionsMap

variable {deductAmount : ℚ} {frequency : String} {startDate : Time}

/-- The condition of the loop. -/
def EnCours (startDate : Time) (x : Etalement) : Prop :=
  0 < x.currentBalance ∧ x.currentDate < startDate

instance : DecidablePred (EnCours startDate) := fun _ => inferInstanceAs (Decidable (_ ∧ _))

/-- The body of the loop. -/
def tour (deductAmount : ℚ) (frequency : String) (x : Etalement) : Etalement where
  currentBalance := x.currentBalance - min x.currentBalance deductAmount
  currentDate := nextDeduction frequency x.currentDate
  projectionsMap := x.projectionsMap.add (monthKey x.currentDate) (min x.currentBalance deductAmount)

/-- A bound of the number of turns. -/
def turns (startDate currentDate : Time) : Nat := ((startDate - currentDate).fdiv jourMs + 1).toNat

theorem le_nextDeduction (frequency : String) (t : Time) : t + jourMs ≤ nextDeduction frequency t := by
  unfold nextDeduction
  split
  · exact Int.add_le_add_left (by decide) t
  · exact le_addMonths t

theorem turns_lt {x : Etalement} (h : EnCours startDate x) :
    turns startDate (tour deductAmount frequency x).currentDate < turns startDate x.currentDate := by
  obtain ⟨reste, hreste⟩ : ∃ reste : Int, reste = startDate - x.currentDate := ⟨_, rfl⟩
  obtain ⟨reste', hreste'⟩ : ∃ reste' : Int, reste' = startDate - nextDeduction frequency x.currentDate :=
    ⟨_, rfl⟩
  have hpos : 0 < reste := hreste ▸ Int.sub_pos_of_lt h.2
  have hlt : reste' ≤ reste - jourMs := by
    rw [hreste, hreste', Int.sub_sub]
    exact Int.sub_le_sub_left (le_nextDeduction frequency x.currentDate) startDate
  unfold turns tour
  rw [← hreste, ← hreste', Int.fdiv_eq_ediv_of_nonneg _ (by decide),
    Int.fdiv_eq_ediv_of_nonneg _ (by decide)]
  unfold jourMs at hlt ⊢
  omega

theorem etaler_eq (n : Nat) (x : Etalement) :
    etaler deductAmount frequency startDate n x.currentBalance x.currentDate x.projectionsMap =
      ((While.bound (EnCours startDate) (tour deductAmount frequency) n x).currentBalance,
        (While.bound (EnCours startDate) (tour deductAmount frequency) n x).projectionsMap) := by
  induction n generalizing x with
  | zero => rfl
  | succ n ih =>
    unfold etaler While.bound
    by_cases h : EnCours startDate x
    · rw [if_pos (And.intro h.1 h.2), if_pos h]
      exact ih (tour deductAmount frequency x)
    · have hstop : ¬ (0 < x.currentBalance ∧ x.currentDate < startDate) := h
      rw [if_neg hstop, if_neg h]

/-- **The loop ends**, with what the bounded one returns. -/
theorem etaler_while (x : Etalement) :
    ∃ y, While (EnCours startDate) (tour deductAmount frequency) x y ∧
      etaler deductAmount frequency startDate (turns startDate x.currentDate) x.currentBalance
        x.currentDate x.projectionsMap = (y.currentBalance, y.projectionsMap) :=
  ⟨_, While.bounded (fun x => turns startDate x.currentDate) (fun _ => turns_lt) le_rfl, etaler_eq _ x⟩

/-- The instalments of the turns so far: their sum, their dates, the first of them and the sign. -/
structure Tours (deductAmount balance : ℚ) (debut startDate : Time) (m : ProjectionsMap) (x : Etalement)
    (l : List (MonthKey × ℚ)) : Prop where
  ajouter : x.projectionsMap = ajouter m l
  somme : (l.map Prod.snd).sum + x.currentBalance = balance
  dates : ∀ e ∈ l, ∃ t, debut ≤ t ∧ t < startDate ∧ e.1 = monthKey t
  premier : l ≠ [] → monthKey debut ∈ l.map Prod.fst
  positifs : 0 < deductAmount → ∀ e ∈ l, 0 < e.2
  reste : 0 ≤ x.currentBalance
  date : debut ≤ x.currentDate
  vide : l = [] → x.currentBalance = balance ∧ x.currentDate = debut

theorem Tours.tour {balance : ℚ} {debut : Time} {m : ProjectionsMap} {x : Etalement}
    {l : List (MonthKey × ℚ)} (h : Tours deductAmount balance debut startDate m x l)
    (hx : EnCours startDate x) : Tours deductAmount balance debut startDate m
      (tour deductAmount frequency x)
      (l ++ [(monthKey x.currentDate, min x.currentBalance deductAmount)]) where
  ajouter := by
    rw [ajouter_append, ← h.ajouter]
    rfl
  somme := by
    rw [List.map_append, List.sum_append, ← h.somme]
    simp [Treasury.tour]
  dates e he := by
    rcases List.mem_append.mp he with he | he
    · exact h.dates e he
    · rw [List.mem_singleton.mp he]
      exact ⟨x.currentDate, h.date, hx.2, rfl⟩
  premier _ := by
    rw [List.map_append, List.mem_append]
    by_cases hl : l = []
    · right
      rw [(h.vide hl).2]
      exact List.mem_singleton_self _
    · exact .inl (h.premier hl)
  positifs hpos e he := by
    rcases List.mem_append.mp he with he | he
    · exact h.positifs hpos e he
    · rw [List.mem_singleton.mp he]
      exact lt_min hx.1 hpos
  reste := sub_nonneg.mpr (min_le_left _ _)
  date := h.date.trans ((Int.lt_add_of_pos_right _ (by decide)).le.trans
    (le_nextDeduction frequency x.currentDate))
  vide hl := by simp at hl

end Loop

/-! ## The instalments of a booking -/

section Booking

/-- The first instant at which the balance of a booking is expected. -/
def premiereEcheance (row : CollectedRow) (maintenant : Time) : Time :=
  match activePlan row.savingsPlan with
  | some (_, nextDeductDate, _) => min nextDeductDate row.package.startDate
  | none => effectiveDate (balanceDueDate row.package.startDate) maintenant

/-- The last one. -/
def derniereEcheance (row : CollectedRow) (maintenant : Time) : Time :=
  match activePlan row.savingsPlan with
  | some _ => row.package.startDate
  | none => effectiveDate (balanceDueDate row.package.startDate) maintenant

/-- What is added to the map for a booking. -/
structure Echeances (row : CollectedRow) (maintenant : Time) (l : List (MonthKey × ℚ)) : Prop where
  somme : (l.map Prod.snd).sum = row.treasuryBalance
  dates : ∀ e ∈ l, ∃ t, premiereEcheance row maintenant ≤ t ∧ t ≤ derniereEcheance row maintenant ∧
    e.1 = monthKey t
  premiere : 0 < row.treasuryBalance → monthKey (premiereEcheance row maintenant) ∈ l.map Prod.fst
  positives : (∀ plan ∈ row.savingsPlan, ∀ deductAmount ∈ plan.deductAmount, 0 < deductAmount) →
    ∀ e ∈ l, 0 < e.2

variable {row : CollectedRow} {maintenant : Time}

theorem activePlan_amount {a : ℚ} {next : Time} {frequency : String}
    (h : activePlan row.savingsPlan = some (a, next, frequency)) :
    ∃ plan ∈ row.savingsPlan, a ∈ plan.deductAmount ∧ next ∈ plan.nextDeductDate := by
  obtain ⟨plan, hplan, h⟩ := Option.bind_eq_some_iff.mp h
  refine ⟨plan, hplan, ?_⟩
  split at h
  · next ha hn _ =>
    split at h
    · obtain ⟨rfl, rfl, rfl⟩ := Prod.mk.inj (Option.some.inj h) |>.imp_right Prod.mk.inj
      exact ⟨ha, hn⟩
    · cases h
  · cases h

section Plan

variable {a : ℚ} {next : Time} {frequency : String} {m : ProjectionsMap} {y : Etalement}
  {l : List (MonthKey × ℚ)}

/-- The loop ends with the instalments of its turns. -/
theorem exists_tours (hpos : 0 < row.treasuryBalance)
    (hy : While (EnCours row.package.startDate) (tour a frequency) ⟨row.treasuryBalance, next, m⟩ y) :
    (∃ l, Tours a row.treasuryBalance next row.package.startDate m y l) ∧
      ¬ EnCours row.package.startDate y := by
  refine hy.invariant
    (I := fun x => ∃ l, Tours a row.treasuryBalance next row.package.startDate m x l) ⟨[], ?_⟩ ?_
  · exact { ajouter := rfl, somme := zero_add _, dates := by simp, premier := fun h => absurd rfl h
            positifs := by simp, reste := hpos.le, date := le_rfl, vide := fun _ => ⟨rfl, rfl⟩ }
  · rintro x hx ⟨l, hl⟩
    exact ⟨_, hl.tour hx⟩

/-- A date of the plan is before the departure, and the first one is in its month. -/
theorem Tours.bornes {balance : ℚ} {startDate : Time} (h : Tours a balance next startDate m y l) :
    (∀ e ∈ l, ∃ t, min next startDate ≤ t ∧ t ≤ startDate ∧ e.1 = monthKey t) ∧
      (l ≠ [] → monthKey (min next startDate) ∈ l.map Prod.fst) := by
  refine ⟨fun e he => ?_, fun hne => ?_⟩
  · obtain ⟨t, h₁, h₂, h₃⟩ := h.dates e he
    exact ⟨t, (min_le_left _ _).trans h₁, h₂.le, h₃⟩
  · obtain ⟨e, he⟩ := List.exists_mem_of_ne_nil l hne
    obtain ⟨t, h₁, h₂, -⟩ := h.dates e he
    rw [min_eq_left (h₁.trans h₂.le)]
    exact h.premier hne

/-- The first and the last instant of a plan, and its amount. -/
theorem bornes_plan (hplan : activePlan row.savingsPlan = some (a, next, frequency)) :
    premiereEcheance row maintenant = min next row.package.startDate ∧
      derniereEcheance row maintenant = row.package.startDate ∧
      ((∀ plan ∈ row.savingsPlan, ∀ b ∈ plan.deductAmount, 0 < b) → 0 < a) := by
  refine ⟨?_, ?_, fun h => ?_⟩
  · rw [premiereEcheance, hplan]
  · rw [derniereEcheance, hplan]
  · obtain ⟨plan, hmem, ha, -⟩ := activePlan_amount hplan
    exact h plan hmem a ha

/-- The plan pays the whole balance. -/
theorem Tours.complet (h : Tours a row.treasuryBalance next row.package.startDate m y l)
    (hplan : activePlan row.savingsPlan = some (a, next, frequency)) (hpos : 0 < row.treasuryBalance)
    (hzero : y.currentBalance = 0) : Echeances row maintenant l := by
  obtain ⟨hfirst, hlast, hamount⟩ := @bornes_plan row maintenant a next frequency hplan
  obtain ⟨hdates, hpremier⟩ := h.bornes
  refine ⟨?_, ?_, fun _ => ?_, fun hplans => h.positifs (hamount hplans)⟩
  · rw [← h.somme, hzero, add_zero]
  · rw [hfirst, hlast]
    exact hdates
  · rw [hfirst]
    refine hpremier fun hempty => hpos.ne' ?_
    rw [← (h.vide hempty).1, hzero]

/-- The plan leaves a part of the balance for the departure. -/
theorem Tours.reliquat (h : Tours a row.treasuryBalance next row.package.startDate m y l)
    (hplan : activePlan row.savingsPlan = some (a, next, frequency))
    (hrest : 0 < y.currentBalance) (hstop : ¬ EnCours row.package.startDate y) :
    Echeances row maintenant (l ++ [(monthKey row.package.startDate, y.currentBalance)]) := by
  obtain ⟨hfirst, hlast, hamount⟩ := @bornes_plan row maintenant a next frequency hplan
  obtain ⟨hdates, hpremier⟩ := h.bornes
  refine ⟨?_, fun e he => ?_, fun _ => ?_, fun hplans e he => ?_⟩
  · rw [List.map_append, List.sum_append, ← h.somme]
    simp
  · rw [hfirst, hlast]
    rcases List.mem_append.mp he with he | he
    · exact hdates e he
    · rw [List.mem_singleton.mp he]
      exact ⟨_, min_le_right _ _, le_rfl, rfl⟩
  · rw [hfirst, List.map_append, List.mem_append]
    by_cases hempty : l = []
    · have hle : row.package.startDate ≤ next := by
        rw [← (h.vide hempty).2]
        exact not_lt.mp fun hlt => hstop ⟨hrest, hlt⟩
      rw [min_eq_right hle]
      exact .inr (List.mem_singleton_self _)
    · exact .inl (hpremier hempty)
  · rcases List.mem_append.mp he with he | he
    · exact h.positifs (hamount hplans) e he
    · rw [List.mem_singleton.mp he]
      exact hrest

/-- The instalments of a savings plan, and at the departure what it leaves. -/
theorem echeances_plan (hplan : activePlan row.savingsPlan = some (a, next, frequency))
    (hpos : 0 < row.treasuryBalance)
    (hy : While (EnCours row.package.startDate) (tour a frequency) ⟨row.treasuryBalance, next, m⟩ y) :
    ∃ l, Echeances row maintenant l ∧ ajouter m l =
      if 0 < y.currentBalance then
        y.projectionsMap.add (monthKey row.package.startDate) y.currentBalance
      else y.projectionsMap := by
  obtain ⟨⟨l, hl⟩, hstop⟩ := exists_tours hpos hy
  by_cases hrest : 0 < y.currentBalance
  · rw [if_pos hrest]
    refine ⟨_, hl.reliquat hplan hrest hstop, ?_⟩
    rw [ajouter_append, ← hl.ajouter]
    rfl
  · rw [if_neg hrest]
    have hzero : y.currentBalance = 0 := le_antisymm (not_lt.mp hrest) hl.reste
    exact ⟨l, hl.complet hplan hpos hzero, hl.ajouter.symm⟩

end Plan

variable {ok : Env → Prop} {s s' : Db}

/-- **What the projection of a booking adds** to the months: its instalments. -/
theorem projeter_runs (hok : ∃ e, ok e) {m : ProjectionsMap} {r : Except Erreur ProjectionsMap}
    (h : (prisma.restrict ok).Runs (PaymentsService.projeter row m) s r s') :
    s' = s ∧ ∃ e, ok e ∧ ∃ l, Echeances row e.now l ∧ r = .ok (ajouter m l) := by
  obtain ⟨e₀, he₀⟩ := hok
  unfold PaymentsService.projeter at h
  split at h
  · next hpos =>
    split at h
    · next a next frequency hplan =>
      obtain ⟨y, hy, heq⟩ := @etaler_while a frequency row.package.startDate
        ⟨row.treasuryBalance, next, m⟩
      obtain ⟨l, hl, hm⟩ := @echeances_plan row e₀.now _ _ _ _ _ hplan hpos hy
      obtain ⟨hret, rfl⟩ := h
      refine ⟨rfl, e₀, he₀, l, hl, hret.trans (congrArg _ ?_)⟩
      simp only [turns] at heq
      rw [hm, heq]
    · next hplan =>
      obtain ⟨e, hret, rfl⟩ := h
      refine ⟨rfl, e.1, e.2, [(monthKey (effectiveDate (balanceDueDate row.package.startDate) e.1.now),
        row.treasuryBalance)], ⟨?_, ?_, ?_, ?_⟩, hret⟩
      · simp
      · unfold premiereEcheance derniereEcheance
        rw [hplan]
        intro x hx
        rw [List.mem_singleton.mp hx]
        exact ⟨_, le_rfl, le_rfl, rfl⟩
      · unfold premiereEcheance
        rw [hplan]
        exact fun _ => List.mem_singleton_self _
      · intro _ x hx
        rw [List.mem_singleton.mp hx]
        exact hpos
  · next hzero =>
    obtain ⟨hret, rfl⟩ := h
    have hbalance : row.treasuryBalance = 0 :=
      le_antisymm (not_lt.mp hzero) (le_max_left _ _)
    exact ⟨rfl, e₀, he₀, [], ⟨by simp [hbalance], by simp, fun h => absurd h hzero, by simp⟩, hret⟩

end Booking

end OumraHajj.Treasury
