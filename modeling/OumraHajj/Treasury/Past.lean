import Mathlib.Algebra.Order.BigOperators.Group.List
import OumraHajj.Savings.Numbering
import OumraHajj.Savings.Once
import OumraHajj.Treasury.Projection

/-!
# Months of the past

A balance without a savings plan that is overdue is expected now, never in a month of the past. The dates
of a plan are not put off: its instalments start at its next date, or at the departure if it is before,
even if the month is over. `aVenir_iff`: no month of the past is projected if and only if the plans of the
bookings that are not paid start in the current month or later (`PlansAVenir`).
-/

namespace OumraHajj.Treasury

open Async

/-- No amount is expected in a month before the current one, at the instant `maintenant` or later. -/
def AVenir (s : Db) (ownerId : UserId) (maintenant : Time) : Prop :=
  ∀ p s', (prisma.restrict fun e => maintenant ≤ e.now).Runs
    (PaymentsService.getTreasuryProjection ownerId) s (.ok p) s' →
      ∀ a ∈ p.projections, 0 < a.expectedAmount → ¬ Avant a.month (monthKey maintenant)

/-- The condition on the plans (module doc). -/
def PlansAVenir (s : Db) (ownerId : UserId) (maintenant : Time) : Prop :=
  ∀ agencyId agency, s.agencyOf ownerId = some (agencyId, agency) →
    ∀ row ∈ s.treasuryRows agencyId, 0 < row.treasuryBalance →
      ∀ deductAmount nextDeductDate frequency,
        activePlan row.savingsPlan = some (deductAmount, nextDeductDate, frequency) →
          ¬ Avant (monthKey (min nextDeductDate row.package.startDate)) (monthKey maintenant)

/-- The instalments of the plans are of 1 or more. -/
def Minimes (s : Db) : Prop := ∀ plan ∈ s.savingsPlans, ∀ a ∈ plan.deductAmount, 1 ≤ a

/-! ## The projection of a state -/

section State

variable {s : Db} {ownerId : UserId} {maintenant : Time}

theorem not_avant_trans {a b c : MonthKey} (h : ¬ Avant a b) (h' : ¬ Avant b c) : ¬ Avant a c := by
  unfold Avant at *
  omega

theorem le_effectiveDate (due maintenant : Time) : maintenant ≤ effectiveDate due maintenant := by
  unfold effectiveDate
  split
  · exact le_rfl
  · next h => exact not_lt.mp h

theorem positive_add {m : ProjectionsMap} {key : MonthKey} {montant : ℚ} (h : ∀ e ∈ m, 0 < e.2)
    (hm : 0 < montant) : ∀ e ∈ m.add key montant, 0 < e.2 := by
  induction m with
  | nil =>
    intro e he
    rw [List.mem_singleton.mp he]
    exact hm
  | cons x m ih =>
    obtain ⟨hx, htail⟩ := List.forall_mem_cons.mp h
    unfold ProjectionsMap.add
    split
    · exact List.forall_mem_cons.mpr ⟨add_pos hx hm, htail⟩
    · exact List.forall_mem_cons.mpr ⟨hx, ih htail⟩

theorem positive_ajouter {m : ProjectionsMap} {l : List (MonthKey × ℚ)} (h : ∀ e ∈ m, 0 < e.2)
    (hl : ∀ e ∈ l, 0 < e.2) : ∀ e ∈ ajouter m l, 0 < e.2 := by
  induction l generalizing m with
  | nil => exact h
  | cons x l ih =>
    obtain ⟨hx, htail⟩ := List.forall_mem_cons.mp hl
    exact ih (positive_add h hx) htail

/-- The instalments of the rows are positive. -/
theorem positive_row (hs : Minimes s) {agencyId : AgencyId} {row : CollectedRow}
    (hrow : row ∈ s.treasuryRows agencyId) {now : Time} {l : List (MonthKey × ℚ)}
    (hl : Echeances row now l) : ∀ e ∈ l, 0 < e.2 := by
  obtain ⟨id, b, pkg, -, -, -, rfl⟩ := Db.mem_collectedRows.mp hrow
  refine hl.positives fun plan hplan a ha => ?_
  obtain ⟨x, hx, rfl⟩ := Option.map_eq_some_iff.mp hplan
  exact zero_lt_one.trans_le
    (hs x.2 (List.mem_of_getElem? (Table.findFirst_eq_some_iff.mp hx).1) a ha)

/-- The instalments of a row are among those of all the rows. -/
theorem exists_echeances {ok : Env → Prop} {rows : List CollectedRow}
    {ls : List (List (MonthKey × ℚ))}
    (h : List.Forall₂ (fun row l => ∃ e, ok e ∧ Echeances row e.now l) rows ls) {row : CollectedRow}
    (hrow : row ∈ rows) :
    ∃ (e : Env) (l : List (MonthKey × ℚ)), Echeances row e.now l ∧ ∀ x ∈ l, x ∈ ls.flatten := by
  induction h with
  | nil => cases hrow
  | @cons row' l rows ls hl _ ih =>
    rcases List.mem_cons.mp hrow with rfl | hrow
    · obtain ⟨e, -, hl⟩ := hl
      exact ⟨e, l, hl, fun x hx => List.mem_append_left _ hx⟩
    · obtain ⟨e, l', hl', hsub⟩ := ih hrow
      exact ⟨e, l', hl', fun x hx => List.mem_append_right _ (hsub x hx)⟩

/-- An instalment is not before the current month, where the plan of its booking starts later. -/
theorem echeance_aVenir {row : CollectedRow} {now : Time} (hnow : maintenant ≤ now)
    {l : List (MonthKey × ℚ)} (hl : Echeances row now l) (hpos : ∀ e ∈ l, 0 < e.2)
    (hplan : 0 < row.treasuryBalance → ∀ deductAmount nextDeductDate frequency,
      activePlan row.savingsPlan = some (deductAmount, nextDeductDate, frequency) →
        ¬ Avant (monthKey (min nextDeductDate row.package.startDate)) (monthKey maintenant))
    {x : MonthKey × ℚ} (hx : x ∈ l) : ¬ Avant x.1 (monthKey maintenant) := by
  obtain ⟨t, hfirst, -, hkey⟩ := hl.dates x hx
  have hbalance : 0 < row.treasuryBalance := by
    rw [← hl.somme]
    refine List.sum_pos _ (fun y hy => ?_) ?_
    · obtain ⟨e, he, rfl⟩ := List.mem_map.mp hy
      exact hpos e he
    · rw [ne_eq, List.map_eq_nil_iff]
      exact List.ne_nil_of_mem hx
  rw [hkey]
  refine not_avant_trans (not_avant_of_le hfirst) ?_
  unfold premiereEcheance
  split
  · next hactive => exact hplan hbalance _ _ _ hactive
  · exact not_avant_of_le (hnow.trans (le_effectiveDate _ _))

/-- The first instalment of a plan is in the months that are projected. -/
theorem AVenir.plans (hs : Minimes s) (h : AVenir s ownerId maintenant) :
    PlansAVenir s ownerId maintenant := by
  intro agencyId agency ha row hrow hbalance deductAmount next frequency hplan
  have hok : ∃ e : Env, maintenant ≤ e.now := ⟨{ now := maintenant }, le_rfl⟩
  have hrun := Backend.eval_runs (B := prisma.restrict fun e => maintenant ≤ e.now)
    ⟨{ now := maintenant }, le_rfl⟩ (PaymentsService.getTreasuryProjection ownerId) s
  obtain ⟨p, ls, hr, hls, -, hprojections⟩ := projection_runs hok ha hrun
  rw [hr] at hrun
  have hmois : p.projections = mois (ajouter [] ls.flatten) := hprojections
  obtain ⟨e, l, hl, hsub⟩ := exists_echeances hls hrow
  obtain ⟨x, hx, hfirst⟩ := List.mem_map.mp (hl.premiere hbalance)
  have hkey : monthKey (premiereEcheance row e.now) ∈ (ajouter [] ls.flatten).map Prod.fst :=
    mem_keys_ajouter.mpr (.inr (hfirst ▸ List.mem_map_of_mem (hsub x hx)))
  obtain ⟨y, hy, hmonth⟩ := List.mem_map.mp hkey
  have hpositive : 0 < y.2 := positive_ajouter (by simp) (fun z hz => by
    obtain ⟨row', hrow', e', -, l', hl', hzl⟩ := mem_flatten hls hz
    exact positive_row hs hrow' hl' z hzl) y hy
  have hmem : (⟨y.1, y.2⟩ : TreasuryMonthShape) ∈ p.projections := by
    rw [hmois]
    exact mem_mois.mpr hy
  have hnot := h p _ hrun _ hmem hpositive
  rw [hmonth] at hnot
  unfold premiereEcheance at hnot
  rw [hplan] at hnot
  exact hnot

/-- Each month that is projected is the one of an instalment. -/
theorem PlansAVenir.aVenir (hs : Minimes s) (h : PlansAVenir s ownerId maintenant) :
    AVenir s ownerId maintenant := by
  intro p s' hrun a ha hpositive
  have hok : ∃ e : Env, maintenant ≤ e.now := ⟨{ now := maintenant }, le_rfl⟩
  rcases hagency : s.agencyOf ownerId with _ | ⟨agencyId, agency⟩
  · obtain ⟨e, hrun⟩ := hrun
    have hanswer : ((prisma.restrict fun e => maintenant ≤ e.now).exec (.agencyFindUnique ownerId)
      e s).1 = none := hagency
    rw [hanswer] at hrun
    cases hrun.1
  · obtain ⟨p', ls, hp, hls, -, hprojections⟩ := projection_runs hok hagency hrun
    obtain rfl := Except.ok.inj hp
    have hmois : p.projections = mois (ajouter [] ls.flatten) := hprojections
    rw [hmois] at ha
    have hkey := mem_keys_ajouter.mp (List.mem_map_of_mem (f := Prod.fst) (mem_mois.mp ha))
    obtain ⟨x, hx, hfst⟩ := List.mem_map.mp (hkey.resolve_left (by simp))
    obtain ⟨row, hrow, e, he, l, hl, hxl⟩ := mem_flatten hls hx
    have hmonth : a.month = x.1 := hfst.symm
    rw [hmonth]
    exact echeance_aVenir he hl (positive_row hs hrow hl)
      (fun hbalance _ _ _ hplan => h agencyId agency hagency row hrow hbalance _ _ _ hplan) hxl

end State

/-! ## The amounts of the plans -/

section Amounts

open Savings

/-- The statement writes no instalment under 1. -/
def Minime : Savings.sig.Stmt → Prop
  | .inr (.savingsPlanUpsert _ _ data) => ∀ a ∈ data.deductAmount, 1 ≤ a
  | _ => True

variable {s : Db}

theorem exec_savings_minimes {c : Savings.Stmt} (hc : Minime (.inr c)) (hs : Minimes s) :
    Minimes (Savings.exec c s).2 := by
  cases c with
  | savingsPlanFindMany now => exact hs
  | savingsPlanUpsert bookingId targetAmount data =>
    simp only [Savings.exec]
    split
    · next id old hfound =>
      intro plan hplan a ha
      rcases List.mem_or_eq_of_mem_set hplan with hplan | rfl
      · exact hs plan hplan a ha
      · rcases Option.or_eq_some_iff.mp ha with ha | ⟨-, ha⟩
        · exact hc a ha
        · exact hs old (List.mem_of_getElem? (Table.findFirst_eq_some_iff.mp hfound).1) a ha
    · intro plan hplan a ha
      rcases List.mem_append.mp hplan with hplan | hplan
      · exact hs plan hplan a ha
      · rw [List.mem_singleton.mp hplan] at ha
        exact hc a ha
  | savingsPlanUpdate id nextDeductDate autoDeduct =>
    simp only [Savings.exec]
    split
    · next old hfound =>
      intro plan hplan a ha
      rcases List.mem_or_eq_of_mem_set hplan with hplan | rfl
      · exact hs plan hplan a ha
      · exact hs old (List.mem_of_getElem? hfound) a ha
    · exact hs

theorem exec_minimes {c : Savings.sig.Stmt} (hc : Minime c) (e : Option Env) (hs : Minimes s) :
    Minimes (Savings.backend.exec c e s).2 := by
  rcases e with _ | e
  · exact hs
  rcases c with c | c
  · intro plan hplan
    have hplans : (Savings.backend.exec (.inl c) (some e) s).2.savingsPlans = s.savingsPlans :=
      exec_savingsPlans c e s
    rw [hplans] at hplan
    exact hs plan hplan
  · exact exec_savings_minimes hc hs

theorem app_minime {α : Type} (p : OumraHajj.Req α) :
    Prog.Uses (S := Savings.sig.faulty) Minime (Savings.app p) :=
  app_uses ((Prog.uses_true p).mono fun _ _ => trivial)

theorem minime_ordinaire : Ordinaire Minime :=
  ⟨trivial, fun _ => trivial, fun _ => trivial, fun _ _ _ => trivial⟩

/-- `@Min(1)` holds of what is written. -/
theorem setup_minime (pilgrimId : UserId) (bookingId : BookingId) (dto : SetupSavingsPlanDto) :
    Prog.Uses (S := Savings.sig.faulty) Minime
      (Savings.PaymentsService.setupSavingsPlan pilgrimId bookingId dto) := by
  refine (app_minime _).bind fun booking => ?_
  show Prog.Uses _ (ite _ _ (ite _ _ (ite _ _ _)))
  split
  · trivial
  split
  · trivial
  split
  · trivial
  refine (app_minime _).bind fun pkg => (app_minime _).bind fun now => ?_
  refine (await_uses ?_).bind fun _ => trivial
  exact dto.deductAmount_min

theorem handler_minime (q : Savings.Request) :
    Prog.Uses (S := Savings.sig.faulty) Minime (Savings.handler q) := by
  cases q with
  | app q => exact app_minime _
  | setup pilgrimId bookingId dto => exact (setup_minime pilgrimId bookingId dto).void
  | job => exact job_uses minime_ordinaire fun _ _ _ _ _ => app_minime _

/-- No request writes an instalment under 1. -/
theorem minimes_reach {ι : Type} [DecidableEq ι] {requests : ι → Savings.Request} (hs : Minimes s)
    {c : Pool Savings.sig.faulty ι Db Erreur Unit}
    (hc : Pool.Reach Savings.backend Pool.anyStep (Savings.poolOf requests s) c) : Minimes c.st := by
  have h₀ : ∀ t, Prog.Uses (S := Savings.sig.faulty) Minime ((Savings.poolOf requests s).procs t) :=
    fun t => handler_minime (requests t)
  exact (Pool.Reach.rel (S := Savings.sig.faulty) (A := fun _ => Minime)
    (R := fun s s' => Minimes s → Minimes s') (fun _ => id) (fun _ _ _ h h' => h' ∘ h)
    (fun _ _ _ _ e hc _ _ hs => exec_minimes hc e hs) hc h₀).1 hs

/-- **Months of the past.** In every state of a schedule of the requests and of the daily job, no amount
is expected in a month before the current one if and only if the plans of the bookings that are not paid
start in the current month or later. -/
theorem aVenir_iff {ι : Type} [DecidableEq ι] {requests : ι → Savings.Request} (hs : Minimes s)
    {c : Pool Savings.sig.faulty ι Db Erreur Unit}
    (hc : Pool.Reach Savings.backend Pool.anyStep (Savings.poolOf requests s) c) (ownerId : UserId)
    (maintenant : Time) : AVenir c.st ownerId maintenant ↔ PlansAVenir c.st ownerId maintenant :=
  ⟨AVenir.plans (minimes_reach hs hc), PlansAVenir.aVenir (minimes_reach hs hc)⟩

/-! ## A schedule on fixed inputs -/

private theorem un_le_trente : ∀ a ∈ (some 30 : Option ℚ), 1 ≤ a := by
  intro a ha
  obtain rfl := Option.some.inj ha
  decide +kernel

private theorem chaque_semaine : ∀ f ∈ some "weekly", f = "weekly" ∨ f = "monthly" :=
  fun _ hf => .inl (Option.some.inj hf).symm

/-- 30 a week. -/
private def trente : SetupSavingsPlanDto where
  deductAmount := some 30
  frequency := some "weekly"
  autoDeduct := true
  deductAmount_min := un_le_trente
  frequency_mem := chaque_semaine

/-- The departure is in 90 days. -/
private def saison : Db :=
  { Db.exemple with packages := Db.exemple.packages.map fun p => { p with startDate := 90 * jourMs } }

private theorem saison_minimes : Minimes saison := by rintro plan ⟨⟩

/-- A booking is made, and gets a savings plan. -/
private def reserver : Fin 2 → Savings.Request
  | 0 => .app (.createBooking 0 0)
  | 1 => .setup 0 0 trente

/-- The plan is set up on the 24th of the month, at 15:00: its first date is the 31st, at 15:00. -/
private def calendrier : List (Fin 2 × Option Env) :=
  (OumraHajj.turns (List.replicate 8 0)).map (fun x => (x.1, some x.2)) ++
    (OumraHajj.turns (List.replicate 8 1)).map fun x => (x.1, some { now := 23 * jourMs + 54000000 })

private def souscrire : Pool Savings.sig.faulty (Fin 2) Db Erreur Unit :=
  Pool.run Savings.backend calendrier (Savings.poolOf reserver saison)

private theorem souscrire_reach :
    Pool.Reach Savings.backend Pool.anyStep (Savings.poolOf reserver saison) souscrire :=
  Pool.Reach.refl.run calendrier

/-- On the 25th the first instalment is to come. -/
theorem aVenir_souscrire : AVenir souscrire.st 1 (24 * jourMs) := by
  refine (aVenir_iff saison_minimes souscrire_reach 1 _).mpr ?_
  intro agencyId agency ha row hrow _ a next frequency hplan
  have hagency : (souscrire.st.agencyOf 1).map Prod.fst = some 0 := by decide +kernel
  rw [ha] at hagency
  obtain rfl := Option.some.inj hagency
  have hall : ∀ row ∈ souscrire.st.treasuryRows 0, (activePlan row.savingsPlan).all fun x =>
    decide (¬ Avant (monthKey (min x.2.1 row.package.startDate)) (monthKey (24 * jourMs))) := by
    decide +kernel
  have h := hall row hrow
  rw [hplan] at h
  exact of_decide_eq_true h

/-- On the 1st of the next month, before the daily job, the instalment is still expected in the month that
is over. -/
theorem passe : ¬ ∀ (requests : Fin 2 → Savings.Request) (s : Db) c, s.savingsPlans = [] →
    Pool.Reach Savings.backend Pool.anyStep (Savings.poolOf requests s) c →
    ∀ ownerId maintenant, AVenir c.st ownerId maintenant := by
  intro h
  have havenir := h reserver saison souscrire rfl souscrire_reach 1 (31 * jourMs)
  have hrun := Backend.eval_runs (B := prisma.restrict fun e => 31 * jourMs ≤ e.now)
    ⟨{ now := 31 * jourMs }, le_rfl⟩ (PaymentsService.getTreasuryProjection 1) souscrire.st
  have hend : (((prisma.restrict fun e => 31 * jourMs ≤ e.now).eval ⟨{ now := 31 * jourMs }, le_rfl⟩
      (PaymentsService.getTreasuryProjection 1) souscrire.st).1.toOption.map fun p =>
        p.projections.any fun a => decide (0 < a.expectedAmount ∧ a.month = (1970, 1))) = some true := by
    decide +kernel
  rcases hr : ((prisma.restrict fun e => 31 * jourMs ≤ e.now).eval ⟨{ now := 31 * jourMs }, le_rfl⟩
      (PaymentsService.getTreasuryProjection 1) souscrire.st).1 with x | p
  · rw [hr] at hend
    cases hend
  · rw [hr] at hrun hend
    obtain ⟨a, ha, hpast⟩ := List.any_eq_true.mp (Option.some.inj hend)
    obtain ⟨hpositive, hmonth⟩ := of_decide_eq_true hpast
    have hnot := havenir p _ hrun a ha hpositive
    rw [hmonth] at hnot
    revert hnot
    decide +kernel

end Amounts

end OumraHajj.Treasury
