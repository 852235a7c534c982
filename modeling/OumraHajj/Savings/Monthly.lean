import Mathlib.Data.List.Range
import OumraHajj.Common.Months
import OumraHajj.Savings.Balance
import OumraHajj.Savings.Once

/-!
# A plan with monthly instalments

`Mensuel` is what holds of such a plan from its set-up on: the dates at which it was charged, and the next
one, follow each other a month at a time, as `setMonth` counts (`parMois`). It is kept by every request but
another set-up of the plan (`mensuel_run`), if nothing fails after a payment.
-/

namespace OumraHajj.Savings

open Async SavingsSchedulerService

/-- The dates at which a plan was charged. -/
def preleves (id : SavingsPlanId) (charged : List Echeance) : List Time :=
  (charged.filter (·.1 = id)).map Prod.snd

/-- The dates at which a plan was charged, and the next one. -/
def echeancier (id : SavingsPlanId) (x : Db × List Echeance) : List Time :=
  preleves id x.2 ++ ((x.1.savingsPlans[id]?).bind (·.nextDeductDate)).toList

/-- The plan of a booking is monthly from the date `d` on (module doc). -/
structure Mensuel (bookingId : BookingId) (id : SavingsPlanId) (d : Time) (a : ℚ)
    (x : Table SavingsPlan × List Echeance) : Prop where
  plan : ∃ plan, x.1.findFirst (·.bookingId = bookingId) = some (id, plan) ∧
    plan.autoDeduct = true ∧ plan.deductAmount = some a ∧ plan.frequency = some "monthly" ∧
    plan.nextDeductDate = some (parMois d (preleves id x.2).length)
  charged : preleves id x.2 = (List.range (preleves id x.2).length).map (parMois d)

/-- No request sets up the plan of the booking again. -/
def SansReprise (bookingId : BookingId) (tr : Trace Request (Db × List Echeance)) : Prop :=
  ∀ y ∈ tr, ∀ pilgrimId dto, y.1 ≠ .setup pilgrimId bookingId dto

section Plan

variable {bookingId : BookingId} {id : SavingsPlanId} {d : Time} {a : ℚ} {charged : List Echeance}
  {s s' : Db}

theorem preleves_append (id : SavingsPlanId) (charged : List Echeance) (x : Echeance) :
    preleves id (charged ++ [x]) = preleves id charged ++ if x.1 = id then [x.2] else [] := by
  unfold preleves
  rw [List.filter_append, List.map_append, List.filter_singleton]
  by_cases hx : x.1 = id
  · simp [hx]
  · simp [hx]

/-- What is charged is the date that was due, and the next one is a month later. -/
theorem garde_mensuel : Garde (Mensuel bookingId id d a) := by
  rintro t charged now j plan' due ⟨⟨plan, hplan, hauto, hamount, hfreq, hnext⟩, hcharged⟩ hp hauto' hd
  by_cases hj : j = id
  · subst hj
    obtain ⟨hrow, hbooking⟩ := Table.findFirst_some hplan
    obtain rfl := Option.some.inj (hrow.symm.trans hp)
    obtain rfl := Option.some.inj (hnext.symm.trans hd)
    have hpreleves := preleves_append j charged (j, parMois d (preleves j charged).length)
    rw [if_pos rfl] at hpreleves
    have hlen : (preleves j (charged ++ [(j, parMois d (preleves j charged).length)])).length =
        (preleves j charged).length + 1 := by
      rw [hpreleves, List.length_append, List.length_singleton]
    have hsuite : suite plan now = (some (parMois d ((preleves j charged).length + 1)), true) := by
      simp only [suite, hfreq, hnext, Option.getD_some, avancer, hauto, parMois_succ]
      rfl
    refine ⟨⟨avance plan now, Table.findFirst_set hplan hbooking, congrArg Prod.snd hsuite, hamount,
      hfreq, ?_⟩, ?_⟩
    · rw [hlen]
      exact congrArg Prod.fst hsuite
    · rw [hlen, hpreleves, List.range_succ, List.map_append, ← hcharged]
      rfl
  · have hpreleves := preleves_append id charged (j, due)
    rw [if_neg hj, List.append_nil] at hpreleves
    refine ⟨⟨plan, Table.findFirst_set_of_ne hplan hp hj rfl, hauto, hamount, hfreq, ?_⟩, ?_⟩
    · rw [hpreleves]
      exact hnext
    · rw [hpreleves]
      exact hcharged

/-- The dates of a monthly plan. -/
theorem Mensuel.echeancier {x : Db × List Echeance}
    (h : Mensuel bookingId id d a (x.1.savingsPlans, x.2)) :
    echeancier id x = (List.range ((preleves id x.2).length + 1)).map (parMois d) := by
  obtain ⟨⟨plan, hplan, -, -, -, hnext⟩, hcharged⟩ := h
  rw [Savings.echeancier, (Table.findFirst_some hplan).1, Option.bind_some, hnext, List.range_succ,
    List.map_append, ← hcharged]
  rfl

/-- **When the dates are in successive months.** -/
theorem Mensuel.successifs_iff {x : Db × List Echeance}
    (h : Mensuel bookingId id d a (x.1.savingsPlans, x.2)) :
    (Savings.echeancier id x).IsChain MoisSuivant ↔
      ∀ i < (preleves id x.2).length, ¬ Deborde (parMois d i) := by
  rw [h.echeancier, List.isChain_map, List.isChain_range_succ]
  refine forall₂_congr fun i _ => ?_
  rw [Nat.succ_eq_add_one, parMois_succ]
  exact moisSuivant_addMonths

/-- What is charged from a state on, without what was charged before. -/
theorem Mensuel.suivant {x : Db × List Echeance}
    (h : Mensuel bookingId id d a (x.1.savingsPlans, x.2)) :
    Mensuel bookingId id (parMois d (preleves id x.2).length) a (x.1.savingsPlans, []) := by
  obtain ⟨⟨plan, hplan, hauto, hamount, hfreq, hnext⟩, -⟩ := h
  exact ⟨⟨plan, hplan, hauto, hamount, hfreq, hnext⟩, rfl⟩

end Plan

/-! ## The set-up -/

section Setup

variable {s s' : Db} {pilgrimId : UserId} {bookingId : BookingId} {dto : SetupSavingsPlanDto} {t : Time}

/-- What a set-up writes for a booking at the instant `t`. -/
def edition (dto : SetupSavingsPlanDto) (t : Time) : PlanEdit where
  autoDeduct := dto.autoDeduct
  deductAmount := dto.deductAmount
  frequency := dto.frequency
  nextDeductDate := PaymentsService.premiereDate dto t

/-- A set-up that succeeds writes the plan; one that does not leaves the plans. -/
theorem setup_runs {ok : sig.Stmt → Db → Option Env → Prop} {r : Except Erreur SavingsPlanShape}
    (h : backend.RunsIf ok (PaymentsService.setupSavingsPlan pilgrimId bookingId dto) s r s') :
    ((∃ x, r = .error x) ∧ s'.savingsPlans = s.savingsPlans) ∨
    ∃ s₁ e targetAmount, s₁.savingsPlans = s.savingsPlans ∧ ok (.inl .now) s₁ (some e) ∧
      ¬ (dto.autoDeduct ∧ (dto.deductAmount = none ∨ dto.frequency = none)) ∧
      s' = (exec (.savingsPlanUpsert bookingId targetAmount (edition dto e.now)) s₁).2 ∧
      r = .ok (toSavingsPlanShape
        (exec (.savingsPlanUpsert bookingId targetAmount (edition dto e.now)) s₁).1.1
        (exec (.savingsPlanUpsert bookingId targetAmount (edition dto e.now)) s₁).1.2) := by
  rcases Backend.runsIf_bind.mp h with ⟨booking, s₁, hbooking, h⟩ | ⟨x, hbooking, rfl⟩
  swap
  · exact .inl ⟨⟨x, rfl⟩, app_plans hbooking⟩
  have h₁ := app_plans hbooking
  split at h
  · obtain ⟨rfl, rfl⟩ := h
    exact .inl ⟨⟨_, rfl⟩, h₁⟩
  split at h
  · obtain ⟨rfl, rfl⟩ := h
    exact .inl ⟨⟨_, rfl⟩, h₁⟩
  split at h
  · obtain ⟨rfl, rfl⟩ := h
    exact .inl ⟨⟨_, rfl⟩, h₁⟩
  next hdto =>
  rcases Backend.runsIf_bind.mp h with ⟨pkg, s₂, hpkg, h⟩ | ⟨x, hpkg, rfl⟩
  swap
  · exact .inl ⟨⟨x, rfl⟩, (app_plans hpkg).trans h₁⟩
  have h₂ := (app_plans hpkg).trans h₁
  rcases Backend.runsIf_bind.mp h with ⟨now, s₃, hnow, h⟩ | ⟨x, hnow, rfl⟩
  swap
  · exact .inl ⟨⟨x, rfl⟩, (app_plans hnow).trans h₂⟩
  obtain ⟨_ | e, ho, hnow, rfl⟩ := hnow
  · cases hnow
  obtain rfl := Except.ok.inj hnow
  rcases Backend.runsIf_bind.mp h with ⟨⟨id, plan⟩, s₄, hup, h⟩ | ⟨x, hup, rfl⟩
  · rcases await_cases hup with ⟨hanswer, rfl⟩ | ⟨-, hanswer, -⟩
    · obtain ⟨rfl, rfl⟩ := h
      have hrow : (id, plan) =
          (exec (.savingsPlanUpsert bookingId pkg.price (edition dto e.now)) s₃).1 :=
        Except.ok.inj hanswer
      refine .inr ⟨s₃, e, pkg.price, h₂, ho, hdto, rfl, ?_⟩
      rw [← hrow]
    · cases hanswer
  · rcases await_cases hup with ⟨hanswer, -⟩ | ⟨-, -, rfl⟩
    · cases hanswer
    · exact .inl ⟨⟨x, rfl⟩, h₂⟩

/-- The plan that a set-up writes. -/
theorem upsert_mensuel {a : ℚ} {targetAmount : ℚ} (hauto : dto.autoDeduct = true)
    (hamount : dto.deductAmount = some a) (hfreq : dto.frequency = some "monthly") :
    Mensuel bookingId (exec (.savingsPlanUpsert bookingId targetAmount (edition dto t)) s).1.1
      (addMonths t 1) a
      ((exec (.savingsPlanUpsert bookingId targetAmount (edition dto t)) s).2.savingsPlans, []) := by
  have hdate : PaymentsService.premiereDate dto t = some (addMonths t 1) := by
    rw [PaymentsService.premiereDate, if_pos ⟨hauto, by rw [hfreq]; rfl⟩, hfreq]
    rfl
  rcases hfind : s.savingsPlans.findFirst (·.bookingId = bookingId) with _ | ⟨id, plan⟩
  · simp only [exec, hfind]
    refine ⟨⟨(edition dto t).row bookingId targetAmount, ?_, hauto, hamount, hfreq, hdate⟩, rfl⟩
    exact Table.findFirst_append hfind (decide_eq_true rfl)
  · simp only [exec, hfind]
    refine ⟨⟨(edition dto t).apply plan, ?_, hauto, ?_, ?_, ?_⟩, rfl⟩
    · exact Table.findFirst_set hfind (Table.findFirst_some hfind).2
    · simp [PlanEdit.apply, edition, hamount]
    · simp [PlanEdit.apply, edition, hfreq]
    · simp [PlanEdit.apply, edition, hdate, preleves, parMois_zero]

/-- The set-up of the plan of another booking. -/
theorem Mensuel.upsert {id : SavingsPlanId} {d : Time} {a : ℚ} {charged : List Echeance}
    (h : Mensuel bookingId id d a (s.savingsPlans, charged)) {other : BookingId}
    (hne : other ≠ bookingId) (targetAmount : ℚ) (data : PlanEdit) :
    Mensuel bookingId id d a
      ((exec (.savingsPlanUpsert other targetAmount data) s).2.savingsPlans, charged) := by
  obtain ⟨⟨plan, hplan, hrest⟩, hcharged⟩ := h
  refine ⟨⟨plan, ?_, hrest⟩, hcharged⟩
  rcases hfind : s.savingsPlans.findFirst (·.bookingId = other) with _ | ⟨j, plan'⟩
  · simp only [exec, hfind]
    rw [← hplan]
    exact Table.findFirst_append_neg _ (decide_eq_false hne)
  · simp only [exec, hfind]
    obtain ⟨hrow, hbooking⟩ := Table.findFirst_some hfind
    have hnot : decide (plan'.bookingId = bookingId) = false :=
      decide_eq_false fun heq => hne ((of_decide_eq_true hbooking).symm.trans heq)
    rw [← hplan]
    exact Table.findFirst_set_neg hrow hnot hnot

end Setup

/-! ## Runs -/

section Run

variable {bookingId : BookingId} {id : SavingsPlanId} {d : Time} {a : ℚ}

/-- A set-up charges nothing. -/
theorem setup_temoin {ok : sig.Stmt → Db → Option Env → Prop} {pilgrimId : UserId}
    {dto : SetupSavingsPlanDto} {s s' : Db} {r : Except Erreur (List Echeance)}
    (h : backend.RunsIf ok (temoin (.setup pilgrimId bookingId dto)) s r s') :
    (∃ r', backend.RunsIf ok (PaymentsService.setupSavingsPlan pilgrimId bookingId dto) s r' s') ∧
      r.toOption.getD [] = [] := by
  rcases Backend.runsIf_bind.mp h with ⟨_, s₁, hvoid, rfl, rfl⟩ | ⟨x, hvoid, rfl⟩
  · rcases Backend.runsIf_bind.mp hvoid with ⟨shape, s₂, hsetup, -, rfl⟩ | ⟨x, hsetup, -⟩
    · exact ⟨⟨_, hsetup⟩, rfl⟩
    · exact ⟨⟨_, hsetup⟩, rfl⟩
  · rcases Backend.runsIf_bind.mp hvoid with ⟨shape, s₂, hsetup, hret, -⟩ | ⟨y, hsetup, -⟩
    · cases hret
    · exact ⟨⟨_, hsetup⟩, rfl⟩

/-- One request. -/
theorem Mensuel.temoin {q : Request} (hq : ∀ pilgrimId dto, q ≠ .setup pilgrimId bookingId dto)
    {s s' : Db} {charged : List Echeance} {r : Except Erreur (List Echeance)}
    (h : Mensuel bookingId id d a (s.savingsPlans, charged))
    (hrun : backend.RunsIf (Posted q) (temoin q) s r s') :
    Mensuel bookingId id d a (s'.savingsPlans, charged ++ r.toOption.getD []) := by
  cases q with
  | job => exact garde_mensuel.prelevements h hrun
  | app q => exact garde_mensuel.temoin (fun _ _ _ => by rintro ⟨⟩) h hrun
  | setup pilgrimId other dto =>
    have hne : other ≠ bookingId := by
      rintro rfl
      exact hq pilgrimId dto rfl
    obtain ⟨⟨r', hsetup⟩, hnone⟩ := setup_temoin hrun
    rw [hnone, List.append_nil]
    rcases setup_runs hsetup with ⟨-, hs⟩ | ⟨s₁, e, targetAmount, hs₁, -, -, rfl, -⟩
    · rw [hs]
      exact h
    · rw [← hs₁] at h
      exact h.upsert hne targetAmount _

/-- **The run of a monthly plan.** -/
theorem mensuel_run {x : Db × List Echeance} {tr : Trace Request (Db × List Echeance)}
    (hother : SansReprise bookingId tr) (hx : Mensuel bookingId id d a (x.1.savingsPlans, x.2))
    (hrun : RunIf Posted x tr) :
    Mensuel bookingId id d a ((Trace.last x tr).1.savingsPlans, (Trace.last x tr).2) := by
  induction tr generalizing x with
  | nil => exact hx
  | cons y tr ih =>
    obtain ⟨⟨r, hy, hcharged⟩, hrun⟩ := hrun
    refine ih (fun z hz => hother z (List.mem_cons_of_mem _ hz)) ?_ hrun
    rw [hcharged]
    exact hx.temoin (hother y List.mem_cons_self) hy

end Run

end OumraHajj.Savings
