import OumraHajj.Savings.Monthly
import OumraHajj.Treasury.Projection

/-!
# The dates of a monthly plan

The set-up, the job and the projection each move a date ahead by `setMonth`. They agree on the dates: what
is projected for a plan is what falls due (`Fidele`). But `setMonth` skips a month from a day that the next
one lacks, so the plan falls due every month exactly as long as no due date is on such a day
(`monthly_iff`); for ever, if it is set up on day 28 or before, or on a day that the next month lacks
(`monthly_toujours`).

`prevus` is the loop of the projection with the dates that it counts on, of which the source keeps the
month (`etaler_dates`).
-/

namespace OumraHajj.Treasury

open Async

/-! ## The dates that are projected -/

/-- `etaler`, with the dates and the amounts that it counts on. -/
def etalerDates (deductAmount : ℚ) (frequency : String) (startDate : Time) :
    Nat → ℚ → Time → List (Time × ℚ)
  | 0, _, _ => []
  | n + 1, currentBalance, currentDate =>
    if 0 < currentBalance ∧ currentDate < startDate then
      (currentDate, min currentBalance deductAmount) ::
        etalerDates deductAmount frequency startDate n
          (currentBalance - min currentBalance deductAmount) (nextDeduction frequency currentDate)
    else []

/-- The dates at which the projection counts on the plan of a booking, and the amounts. -/
def prevus (row : CollectedRow) : List (Time × ℚ) :=
  match activePlan row.savingsPlan with
  | some (deductAmount, nextDeductDate, frequency) =>
    etalerDates deductAmount frequency row.package.startDate
      (turns row.package.startDate nextDeductDate) row.treasuryBalance nextDeductDate
  | none => []

/-- What is added to the months for a booking: the instalments of its plan, and at most one amount more,
at the departure if there is a plan. -/
def Prevoit (row : CollectedRow) (l : List (MonthKey × ℚ)) : Prop :=
  ∃ reste, l = (prevus row).map (fun e => (monthKey e.1, e.2)) ++ reste ∧ reste.length ≤ 1 ∧
    (activePlan row.savingsPlan ≠ none → ∀ e ∈ reste, e.1 = monthKey row.package.startDate)

section Loop

variable {deductAmount : ℚ} {frequency : String} {startDate : Time}

theorem etaler_dates (n : Nat) (balance : ℚ) (date : Time) (m : ProjectionsMap) :
    etaler deductAmount frequency startDate n balance date m =
      (balance - ((etalerDates deductAmount frequency startDate n balance date).map Prod.snd).sum,
        ajouter m ((etalerDates deductAmount frequency startDate n balance date).map
          fun e => (monthKey e.1, e.2))) := by
  induction n generalizing balance date m with
  | zero => simp [etaler, etalerDates, ajouter]
  | succ n ih =>
    unfold etaler etalerDates
    split
    · simp only [ih, List.map_cons, List.sum_cons, sub_sub]
      rfl
    · simp [ajouter]

theorem etalerDates_paid (n : Nat) {balance : ℚ} (h : ¬ 0 < balance) (date : Time) :
    etalerDates deductAmount frequency startDate n balance date = [] := by
  cases n with
  | zero => rfl
  | succ n => exact if_neg fun hx => h hx.1

/-- The dates of a monthly plan are a month apart. -/
theorem etalerDates_monthly (n : Nat) (balance : ℚ) (date : Time) :
    (etalerDates deductAmount "monthly" startDate n balance date).map Prod.fst =
      (List.range (etalerDates deductAmount "monthly" startDate n balance date).length).map
        (parMois date) := by
  induction n generalizing balance date with
  | zero => rfl
  | succ n ih =>
    unfold etalerDates
    split
    · rw [List.map_cons, ih, List.length_cons, List.range_succ_eq_map, List.map_cons, List.map_map]
      rfl
    · rfl

/-- The dates go on until the balance is paid or the departure comes. -/
theorem etalerDates_fin {n : Nat} {balance : ℚ} {date : Time} (hn : turns startDate date ≤ n) :
    startDate ≤ parMois date (etalerDates deductAmount "monthly" startDate n balance date).length ∨
      balance ≤ (etalerDates deductAmount "monthly" startDate n balance date).length * deductAmount := by
  induction n generalizing balance date with
  | zero =>
    refine .inl (not_lt.mp fun hlt => ?_)
    have hcours : EnCours startDate ⟨1, date, []⟩ := ⟨zero_lt_one, hlt⟩
    have hlt := @turns_lt deductAmount "monthly" startDate _ hcours
    exact absurd (lt_of_lt_of_le hlt hn) (Nat.not_lt_zero _)
  | succ n ih =>
    unfold etalerDates
    split
    · next hcond =>
      have hcours : EnCours startDate ⟨balance, date, []⟩ := hcond
      have hlt := @turns_lt deductAmount "monthly" startDate _ hcours
      have hnext : turns startDate (nextDeduction "monthly" date) ≤ n := by
        have : turns startDate (nextDeduction "monthly" date) < turns startDate date := hlt
        omega
      rcases ih hnext with hdepart | hpaid
      · exact .inl hdepart
      · right
        have hmin := min_le_right balance deductAmount
        rw [List.length_cons]
        push_cast
        linarith
    · next hstop =>
      rcases not_and_or.mp hstop with hpaid | hdepart
      · right
        simpa using not_lt.mp hpaid
      · exact .inl (not_lt.mp hdepart)

end Loop

/-! ## What the code projects -/

section Projection

variable {ok : Env → Prop} {s s' : Db} {row : CollectedRow}

theorem projeter_prevoit {m : ProjectionsMap} {r : Except Erreur ProjectionsMap}
    (h : (prisma.restrict ok).Runs (PaymentsService.projeter row m) s r s') :
    ∃ l, Prevoit row l ∧ r = .ok (ajouter m l) := by
  unfold PaymentsService.projeter at h
  split at h
  · split at h
    · next a next frequency hplan =>
      obtain ⟨rfl, -⟩ := h
      have hprevus : prevus row = etalerDates a frequency row.package.startDate
          (turns row.package.startDate next) row.treasuryBalance next := by
        rw [prevus, hplan]
      obtain ⟨solde, hsolde⟩ : ∃ solde, solde = row.treasuryBalance - ((prevus row).map Prod.snd).sum :=
        ⟨_, rfl⟩
      have hetaler := @etaler_dates a frequency row.package.startDate
        (turns row.package.startDate next) row.treasuryBalance next m
      rw [← hprevus, ← hsolde] at hetaler
      refine ⟨_, ⟨if 0 < solde then [(monthKey row.package.startDate, solde)] else [], rfl, ?_, ?_⟩, ?_⟩
      · split <;> simp
      · intro _ e he
        split at he
        · rw [List.mem_singleton.mp he]
        · cases he
      · simp only [turns] at hetaler
        rw [hetaler, ajouter_append]
        split <;> rfl
    · next hplan =>
      obtain ⟨e, rfl, -⟩ := h
      have hprevus : prevus row = [] := by rw [prevus, hplan]
      refine ⟨_, ⟨[(monthKey (effectiveDate (balanceDueDate row.package.startDate) e.1.now),
        row.treasuryBalance)], rfl, le_rfl, fun hne => absurd hplan hne⟩, ?_⟩
      rw [hprevus]
      rfl
  · next hpaid =>
    obtain ⟨rfl, -⟩ := h
    have hprevus : prevus row = [] := by
      unfold prevus
      split
      · exact etalerDates_paid _ hpaid _
      · rfl
    exact ⟨_, ⟨[], rfl, Nat.zero_le _, fun _ _ he => by cases he⟩, by rw [hprevus]; rfl⟩

/-- The projection adds up what is added for the bookings. -/
def Prevision (s : Db) (ownerId : UserId) (p : TreasuryProjectionShape) : Prop :=
  ∃ agencyId agency ls, s.agencyOf ownerId = some (agencyId, agency) ∧
    List.Forall₂ Prevoit (s.treasuryRows agencyId) ls ∧ p.projections = mois (ajouter [] ls.flatten)

theorem projection_prevision {ownerId : UserId} {p : TreasuryProjectionShape}
    (h : prisma.Runs (PaymentsService.getTreasuryProjection ownerId) s (.ok p) s') :
    Prevision s ownerId p := by
  rcases ha : s.agencyOf ownerId with _ | ⟨agencyId, agency⟩
  · obtain ⟨e, h⟩ := h
    have hanswer : (prisma.exec (.agencyFindUnique ownerId) e s).1 = none := ha
    rw [hanswer] at h
    cases h.1
  · obtain ⟨p', ls, hp, hls, -, hprojections⟩ :=
      projection_of projeter_prevoit ha (Backend.restrict_true.mpr h)
    obtain rfl := Except.ok.inj hp
    exact ⟨agencyId, agency, ls, ha, hls, hprojections⟩

/-! ## The dates of a plan -/

/-- The dates that are projected for a booking and those at which its plan falls due, `dues`: in the same
order, up to the departure or to the instalment that pays the balance. -/
structure Suivies (row : CollectedRow) (dues : List Time) : Prop where
  accord : (prevus row).map Prod.fst <+: dues ∨ dues <+: (prevus row).map Prod.fst
  fin : ∀ d ∈ dues[(prevus row).length]?, row.package.startDate ≤ d ∨
    ∀ plan ∈ row.savingsPlan, ∀ a ∈ plan.deductAmount,
      row.treasuryBalance ≤ (prevus row).length * a

/-- What is projected in a state for the plan of a booking is what falls due from that state on. -/
structure Fidele (s : Db) (bookingId : BookingId) (id : Savings.SavingsPlanId) : Prop where
  projection : ∀ ownerId p s', prisma.Runs (PaymentsService.getTreasuryProjection ownerId) s (.ok p) s' →
    Prevision s ownerId p
  dates : ∀ agencyId, ∀ row ∈ s.treasuryRows agencyId, row.id = bookingId →
    ∀ tr, Savings.SansReprise bookingId tr → Savings.RunIf Savings.Posted (s, []) tr →
      Suivies row (Savings.echeancier id (Trace.last (s, []) tr))

end Projection

section Plan

open Savings

variable {s : Db} {bookingId : BookingId} {id : SavingsPlanId} {d : Time} {a : ℚ}

theorem prefix_range {α : Type} (f : Nat → α) (m n : Nat) :
    (List.range m).map f <+: (List.range n).map f ∨ (List.range n).map f <+: (List.range m).map f := by
  have hle : ∀ {m n : Nat}, m ≤ n → (List.range m).map f <+: (List.range n).map f := by
    intro m n h
    have htake := (List.take_prefix m (List.range n)).map f
    rwa [List.take_range, min_eq_left h] at htake
  exact (Nat.le_total m n).imp hle hle

/-- The dates that are projected for a monthly plan. -/
theorem prevus_monthly {row : CollectedRow} {next : Time}
    (hplan : activePlan row.savingsPlan = some (a, next, "monthly")) :
    (prevus row).map Prod.fst = (List.range (prevus row).length).map (parMois next) ∧
      (row.package.startDate ≤ parMois next (prevus row).length ∨
        row.treasuryBalance ≤ (prevus row).length * a) := by
  have hprevus : prevus row = etalerDates a "monthly" row.package.startDate
      (turns row.package.startDate next) row.treasuryBalance next := by
    rw [prevus, hplan]
  rw [hprevus]
  exact ⟨etalerDates_monthly _ _ _, etalerDates_fin le_rfl⟩

/-- **A monthly plan is projected as it falls due.** -/
theorem fidele_of_mensuel (h : Mensuel bookingId id d a (s.savingsPlans, [])) (ha : a ≠ 0) :
    Fidele s bookingId id := by
  refine ⟨fun ownerId p s' => projection_prevision, fun agencyId row hrow hid tr hother hrun => ?_⟩
  have hlast := mensuel_run hother h hrun
  obtain ⟨⟨plan, hplan, hauto, hamount, hfreq, hnext⟩, -⟩ := h
  obtain ⟨bookingId', b, pkg, -, -, -, rfl⟩ := Db.mem_collectedRows.mp hrow
  obtain rfl : bookingId' = bookingId := hid
  have hrowPlan : (s.collectedRow bookingId' b pkg).savingsPlan = some plan := by
    show (s.savingsPlans.findFirst _).map Prod.snd = _
    rw [hplan]
    rfl
  have hactive : activePlan (s.collectedRow bookingId' b pkg).savingsPlan = some (a, d, "monthly") := by
    rw [hrowPlan]
    simp only [activePlan, Option.bind_some, hauto, hamount, hfreq, hnext]
    rw [if_pos ⟨ha, by decide⟩]
    rfl
  obtain ⟨hdates, hfin⟩ := prevus_monthly hactive
  rw [hlast.echeancier]
  refine ⟨?_, fun due hdue => ?_⟩
  · rw [hdates]
    exact prefix_range _ _ _
  · rw [List.getElem?_map] at hdue
    obtain ⟨i, hi, rfl⟩ := Option.map_eq_some_iff.mp hdue
    obtain ⟨-, rfl⟩ := List.getElem?_eq_some_iff.mp hi
    rw [List.getElem_range]
    refine hfin.imp_right fun hle plan' hplan' a' ha' => ?_
    obtain rfl := Option.some.inj (hrowPlan.symm.trans hplan')
    obtain rfl := Option.some.inj (hamount.symm.trans ha')
    exact hle

/-! ## The due dates of a run -/

variable {s₁ : Db} {pilgrimId : UserId} {dto : SetupSavingsPlanDto} {t : Time} {shape : SavingsPlanShape}

/-- A plan that is set up at the instant `t` is monthly from a month later on. -/
theorem setup_mensuel (hauto : dto.autoDeduct = true) (hfreq : dto.frequency = some "monthly")
    (hsetup : Savings.backend.RunsIf (Horloge t)
      (Savings.PaymentsService.setupSavingsPlan pilgrimId bookingId dto) s (.ok shape) s₁) :
    ∃ a, a ≠ 0 ∧ Mensuel bookingId shape.id (addMonths t 1) a (s₁.savingsPlans, []) := by
  rcases setup_runs hsetup with ⟨⟨x, hx⟩, -⟩ | ⟨s₂, e, targetAmount, -, hclock, hdto, rfl, hshape⟩
  · cases hx
  obtain rfl : e.now = t := hclock
  obtain rfl := Except.ok.inj hshape
  obtain ⟨a, ha⟩ : ∃ a, dto.deductAmount = some a :=
    Option.ne_none_iff_exists'.mp fun hnone => hdto ⟨hauto, .inl hnone⟩
  refine ⟨a, ?_, upsert_mensuel hauto ha hfreq⟩
  exact ne_of_gt (zero_lt_one.trans_le (dto.deductAmount_min a ha))

/-- **When a monthly plan falls due every month.** A plan is set up at the instant `t`, and any requests
follow but another set-up of it. Its due dates are in successive months, and the projections agree with
them, if and only if no date that was charged is on a day that the next month lacks. -/
theorem monthly_iff (hauto : dto.autoDeduct = true) (hfreq : dto.frequency = some "monthly")
    (hsetup : Savings.backend.RunsIf (Horloge t)
      (Savings.PaymentsService.setupSavingsPlan pilgrimId bookingId dto) s (.ok shape) s₁)
    {tr : Trace Savings.Request (Db × List Echeance)} (hother : SansReprise bookingId tr)
    (hrun : RunIf Posted (s₁, []) tr) :
    ((echeancier shape.id (Trace.last (s₁, []) tr)).IsChain MoisSuivant ∧
        Fidele (Trace.last (s₁, []) tr).1 bookingId shape.id) ↔
      ∀ i < (preleves shape.id (Trace.last (s₁, []) tr).2).length,
        ¬ Deborde (parMois (addMonths t 1) i) := by
  obtain ⟨a, ha, hfirst⟩ := setup_mensuel hauto hfreq hsetup
  have hlast := mensuel_run hother hfirst hrun
  rw [hlast.successifs_iff]
  exact and_iff_left (fidele_of_mensuel hlast.suivant ha)

/-- **Which plans fall due every month for ever.** -/
theorem monthly_toujours (t : Time) :
    (∀ n, ¬ Deborde (parMois (addMonths t 1) n)) ↔ jourDuMois t ≤ 28 ∨ Deborde t :=
  jamais_deborde_iff.trans jourDuMois_addMonths

end Plan

/-! ## Two plans -/

section Examples

open Savings

private theorem un_le_mensualite : ∀ a ∈ (some 10 : Option ℚ), 1 ≤ a := by
  intro a ha
  obtain rfl := Option.some.inj ha
  decide +kernel

/-- 10 a month. -/
private def mensualite : SetupSavingsPlanDto where
  deductAmount := some 10
  frequency := some "monthly"
  autoDeduct := true
  deductAmount_min := un_le_mensualite
  frequency_mem _ hf := .inr (Option.some.inj hf).symm

/-- A booking for a departure in February 1971. -/
private def inscrit : Db :=
  { Db.exemple with
    bookings := [Booking.exemple]
    packages := [{ agencyId := 0, type := .oumra, title := "Oumra", startDate := minuit 400
                   endDate := minuit 410, price := 100, capacity := 1 }] }

/-- The set-up of a plan on a day. -/
private def inscription (jour : Int) : Except Erreur SavingsPlanShape × Db :=
  Savings.backend.evalBy (fun _ => some { now := minuit jour })
    (Savings.PaymentsService.setupSavingsPlan 0 0 mensualite) inscrit

/-- The plan that is set up. -/
private def planInscrit (jour : Int) : SavingsPlanShape where
  id := 0
  bookingId := 0
  targetAmount := 100
  autoDeduct := true
  deductAmount := some 10
  frequency := some "monthly"
  nextDeductDate := some (addMonths (minuit jour) 1)

private theorem inscription_runs (jour : Int) : Savings.backend.RunsIf (Horloge (minuit jour))
    (Savings.PaymentsService.setupSavingsPlan 0 0 mensualite) inscrit (.ok (planInscrit jour))
    (inscription jour).2 :=
  Backend.runsIf_evalBy (B := Savings.backend) (horloge_some (minuit jour) none) _ _

/-- The job at ten in the morning of a day, where nothing fails. -/
private def dixHeures (jour : Int) : Savings.Request × (Savings.sig.Stmt → Option Env) :=
  (.job, fun _ => some { now := minuit jour + 36000000, reference := some (toString jour) })

/-- The job, so many days from the set-up on. -/
private def quotidien (jour : Int) (jours : Nat) : Trace Savings.Request (Db × List Echeance) :=
  derouler ((inscription jour).2, [])
    ((List.range jours).map fun k => dixHeures (jour + k))

private theorem quotidien_run (jour : Int) (jours : Nat) :
    RunIf Posted ((inscription jour).2, []) (quotidien jour jours) := by
  refine derouler_run _ fun y hy c s => posted_of_isSome ?_
  obtain ⟨k, -, rfl⟩ := List.mem_map.mp hy
  rfl

private theorem quotidien_sansReprise (jour : Int) (jours : Nat) : SansReprise 0 (quotidien jour jours) := by
  intro y hy pilgrimId dto
  have hmem : y.1 ∈ (quotidien jour jours).map Prod.fst := List.mem_map_of_mem hy
  rw [quotidien, derouler_requests, List.map_map] at hmem
  obtain ⟨k, -, hjob⟩ := List.mem_map.mp hmem
  rw [← hjob]
  rintro ⟨⟩

/-- A plan that is set up on the 15th of January falls due on the 15th of each month. -/
theorem monthly_le_quinze :
    (echeancier 0 (Trace.last ((inscription 14).2, []) (quotidien 14 64))).IsChain MoisSuivant ∧
      Fidele (Trace.last ((inscription 14).2, []) (quotidien 14 64)).1 0 0 :=
  (monthly_iff rfl rfl (inscription_runs 14) (quotidien_sansReprise 14 64) (quotidien_run 14 64)).mpr
    fun i _ => (monthly_toujours _).mpr (.inl (by decide)) i

/-- One that is set up on the 31st of December is due on the 31st of January, then on the 3rd of March. -/
theorem monthly_sans_fevrier :
    ¬ ∀ (s s₁ : Db) (pilgrimId : UserId) (bookingId : BookingId) (dto : SetupSavingsPlanDto) (t : Time)
      (shape : SavingsPlanShape) (tr : Trace Savings.Request (Db × List Echeance)),
      dto.autoDeduct = true → dto.frequency = some "monthly" →
      Savings.backend.RunsIf (Horloge t)
        (Savings.PaymentsService.setupSavingsPlan pilgrimId bookingId dto) s (.ok shape) s₁ →
      SansReprise bookingId tr → RunIf Posted (s₁, []) tr →
      (echeancier shape.id (Trace.last (s₁, []) tr)).IsChain MoisSuivant ∧
        Fidele (Trace.last (s₁, []) tr).1 bookingId shape.id := by
  intro h
  obtain ⟨hchain, -⟩ := h _ _ 0 0 mensualite _ _ _ rfl rfl (inscription_runs (-1))
    (quotidien_sansReprise (-1) 64) (quotidien_run (-1) 64)
  have hdues : echeancier 0 (Trace.last ((inscription (-1)).2, []) (quotidien (-1) 64)) =
      [daysFromCivil 1970 1 31, daysFromCivil 1970 3 3, daysFromCivil 1970 4 3].map minuit := by
    decide +kernel
  rw [show (planInscrit (-1)).id = 0 from rfl, hdues] at hchain
  have hsuivant := (List.isChain_cons_cons.mp hchain).1
  exact absurd hsuivant (by decide)

end Examples

end OumraHajj.Treasury
