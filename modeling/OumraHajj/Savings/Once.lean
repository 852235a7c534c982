import OumraHajj.Common.Calendar
import OumraHajj.Savings.Service

/-!
# An instalment is charged once

The payment of an instalment, its notification and the next date of its plan are three writes. When one
of the last two fails, the plan stays due and is charged again the next day. `Posted` is the condition
under which this does not happen: what follows a payment does not fail. `charged_once` is what follows
from it in every run of the job: no plan is charged twice for one due date.

`prelevements` is the job with the instalments that it has charged, which the source does not return
(`prelevements_void`).
-/

namespace OumraHajj.Savings

open Async SavingsSchedulerService

/-- A plan and one of its due dates. -/
abbrev Echeance := SavingsPlanId × Time

/-! ## The instalments that the job charges -/

/-- `traiterPlan`, with the due date that it has charged. -/
def prelever (now : Time) : SavingsPlanId × SavingsPlan × Booking → Req (List Echeance)
  | (id, plan, booking) =>
    match plan.deductAmount with
    | none => .ret []
    | some deductAmount =>
      if deductAmount = 0 then .ret []
      else (initier plan booking deductAmount).attempt.bind fun
        | .ok _ => ((conclure now id plan booking deductAmount).tryCatch fun _ => .ret ()).bind
          fun _ => .ret (plan.nextDeductDate.toList.map fun d => (id, d))
        | .error _ => .ret []

def preleverPlans (now : Time) :
    List (SavingsPlanId × SavingsPlan × Booking) → Req (List Echeance)
  | [] => .ret []
  | x :: l => (prelever now x).bind fun a => (preleverPlans now l).bind fun b => .ret (a ++ b)

/-- The job, with the instalments that it has charged (module doc). -/
def prelevements : Req (List Echeance) :=
  (app (OumraHajj.await .now)).bind fun now =>
    (Savings.await (.savingsPlanFindMany now)).bind (preleverPlans now)

theorem prelever_void (now : Time) (x : SavingsPlanId × SavingsPlan × Booking) :
    (prelever now x).void = traiterPlan now x := by
  obtain ⟨id, plan, booking⟩ := x
  rcases ha : plan.deductAmount with _ | deductAmount
  · simp only [prelever, traiterPlan, ha]
    rfl
  simp only [prelever, traiterPlan, ha]
  split
  · rfl
  · rw [Prog.bind_eq, Prog.bind_tryCatch, Prog.void, Prog.bind_assoc]
    refine congrArg _ (funext fun r => ?_)
    cases r with
    | error x => rfl
    | ok shape =>
      simp only [Prog.bind_assoc, Prog.ret_bind]
      exact Prog.bind_ret _

theorem preleverPlans_void (now : Time) (l : List (SavingsPlanId × SavingsPlan × Booking)) :
    (preleverPlans now l).void = traiterPlans now l := by
  induction l with
  | nil => rfl
  | cons x l ih =>
    rw [preleverPlans, traiterPlans, Prog.bind_eq, ← prelever_void, ← ih]
    simp only [Prog.void, Prog.bind_assoc, Prog.ret_bind]

/-- The job is this one without its result. -/
theorem prelevements_void : prelevements.void = processDueSavings := by
  rw [prelevements, processDueSavings, Prog.void, Prog.bind_assoc, Prog.bind_eq]
  refine congrArg _ (funext fun now => ?_)
  exact (Prog.bind_assoc _ _ _).trans (congrArg _ (funext fun l => preleverPlans_void now l))

/-! ## Runs -/

/-- The handler of a request, with the instalments that it charges. -/
def temoin : Request → Req (List Echeance)
  | .job => prelevements
  | q => (handler q).bind fun _ => .ret []

/-- Without them it is the handler. -/
theorem temoin_void (q : Request) : (temoin q).void = handler q := by
  cases q with
  | job => exact prelevements_void
  | app q => exact (Prog.bind_assoc _ _ _).trans (Prog.bind_ret _)
  | setup pilgrimId bookingId dto => exact (Prog.bind_assoc _ _ _).trans (Prog.bind_ret _)

/-- What the statements of a request may do. -/
abbrev Condition := Request → sig.Stmt → Db → Option Env → Prop

/-- The requests run one after the other; the second component is what the job has charged so far. -/
def RunIf (ok : Condition) : Db × List Echeance → Trace Request (Db × List Echeance) → Prop :=
  Trace.Steps fun x q y => ∃ r, backend.RunsIf (ok q) (temoin q) x.1 r y.1 ∧
    y.2 = x.2 ++ r.toOption.getD []

/-- What follows a payment of the job does not fail (module doc). -/
def Posted : Condition
  | .job, .inl (.notificationCreateMany _), _, e => e.isSome = true
  | .job, .inr (.savingsPlanUpdate _ _ _), _, e => e.isSome = true
  | _, _, _, _ => True

/-- The run of the requests `qs`, each with an environment for each statement. -/
def derouler : Db × List Echeance → List (Request × (sig.Stmt → Option Env)) →
    Trace Request (Db × List Echeance)
  | _, [] => []
  | x, (q, env) :: qs =>
    let r := backend.evalBy env (temoin q) x.1
    (q, (r.2, x.2 ++ r.1.toOption.getD [])) :: derouler (r.2, x.2 ++ r.1.toOption.getD []) qs

theorem derouler_run {ok : Condition} (x : Db × List Echeance)
    {qs : List (Request × (sig.Stmt → Option Env))}
    (hok : ∀ y ∈ qs, ∀ c s, ok y.1 c s (y.2 c)) : RunIf ok x (derouler x qs) := by
  induction qs generalizing x with
  | nil => trivial
  | cons y qs ih =>
    obtain ⟨q, env⟩ := y
    have hq : backend.RunsIf (ok q) (temoin q) x.1 (backend.evalBy env (temoin q) x.1).1
        (backend.evalBy env (temoin q) x.1).2 :=
      Backend.runsIf_evalBy (B := backend) (hok (q, env) (List.mem_cons_self ..)) _ _
    exact ⟨⟨_, hq, rfl⟩, ih _ fun z hz => hok z (List.mem_cons_of_mem _ hz)⟩

theorem derouler_requests (x : Db × List Echeance) (qs : List (Request × (sig.Stmt → Option Env))) :
    (derouler x qs).map Prod.fst = qs.map Prod.fst := by
  induction qs generalizing x with
  | nil => rfl
  | cons y qs ih => exact congrArg _ (ih _)

/-! ## What the statements leave of the plans -/

theorem exec_savingsPlans (c : OumraHajj.Stmt) (e : OumraHajj.Env) (s : Db) :
    (OumraHajj.exec c e s).2.savingsPlans = s.savingsPlans := by
  cases c
  all_goals first
    | rfl
    | simp only [OumraHajj.exec]
      split <;> rfl

section Plans

variable {ok : sig.Stmt → Db → Option Env → Prop} {s s' : Db} {α : Type}

theorem app_plans {p : OumraHajj.Req α} {r : Except Erreur α}
    (h : backend.RunsIf ok (app p) s r s') : s'.savingsPlans = s.savingsPlans := by
  have huses : Prog.Uses (S := sig.faulty) (fun c : sig.Stmt => ∃ x, c = Sum.inl x) (app p) :=
    (Prog.uses_left (A := fun c : sig.Stmt => ∃ x, c = Sum.inl x) (fun c => ⟨c, rfl⟩) p).faulty
  refine h.runs.frame (R := fun s s' : Db => s'.savingsPlans = s.savingsPlans) (fun _ => rfl)
    (fun _ _ _ h h' => h'.trans h) ?_ huses
  rintro _ ⟨c, rfl⟩ (_ | e) s
  · rfl
  · exact exec_savingsPlans c e s

/-- A statement on the plans: it is executed, or it fails and does nothing. -/
theorem await_cases {c : Stmt} {r : Except Erreur (Resp c)}
    (h : backend.RunsIf ok (Savings.await c) s r s') :
    (r = .ok (Savings.exec c s).1 ∧ s' = (Savings.exec c s).2) ∨
    (ok (.inr c) s none ∧ r = .error panne ∧ s' = s) := by
  obtain ⟨_ | e, ho, rfl, rfl⟩ := h
  · exact .inr ⟨ho, rfl, rfl⟩
  · exact .inl ⟨rfl, rfl⟩

end Plans

/-! ## One instalment -/

theorem lt_avancer {frequency : Option String} {t t' : Time} (h : avancer frequency t = some t') :
    t < t' := by
  unfold avancer at h
  split at h
  · obtain rfl := Option.some.inj h
    exact lt_addDays t (by decide)
  · split at h
    · obtain rfl := Option.some.inj h
      exact lt_addMonths t
    · cases h

/-- The plan after an instalment. -/
def avance (plan : SavingsPlan) (now : Time) : SavingsPlan :=
  { plan with nextDeductDate := (suite plan now).1, autoDeduct := (suite plan now).2 }

/-- The next date of a plan is after the one that was due. -/
theorem lt_avance {plan : SavingsPlan} {now d d' : Time} (hd : plan.nextDeductDate = some d)
    (h : (avance plan now).nextDeductDate = some d') : d < d' := by
  simp only [avance, suite, hd, Option.getD_some] at h
  rcases ha : avancer plan.frequency d with _ | nextDate
  · rw [ha] at h
    cases h
  · simp only [ha] at h
    split at h
    · obtain rfl := Option.some.inj h
      exact lt_avancer ha
    · cases h

section Job

variable {s s' : Db} {now : Time} {id : SavingsPlanId} {plan : SavingsPlan} {booking : Booking}

/-- What follows a payment does not fail, and the next date of the plan is written. -/
theorem conclure_posted {deductAmount : ℚ} {r : Except Erreur Unit}
    (hp : s.savingsPlans[id]? = some plan)
    (h : backend.RunsIf (Posted .job) (conclure now id plan booking deductAmount) s r s') :
    s'.savingsPlans = s.savingsPlans.set id (avance plan now) := by
  rcases Backend.runsIf_bind.mp h with ⟨_, s₁, hsend, h⟩ | ⟨x, hsend, -⟩
  · have hs₁ := app_plans hsend
    rcases Backend.runsIf_bind.mp h with ⟨o, s₂, hupdate, h⟩ | ⟨x, hupdate, -⟩
    · rcases await_cases hupdate with ⟨ho, hs₂⟩ | ⟨-, ho, -⟩
      · have hexec : Savings.exec (.savingsPlanUpdate id (suite plan now).1 (suite plan now).2) s₁ =
            (some (avance plan now),
              { s₁ with savingsPlans := s₁.savingsPlans.set id (avance plan now) }) := by
          simp only [Savings.exec, hs₁ ▸ hp]
          rfl
        rw [hexec] at ho hs₂
        cases ho
        obtain ⟨-, rfl⟩ := h
        rw [hs₂, ← hs₁]
      · cases ho
    · rcases await_cases hupdate with ⟨ho, -⟩ | ⟨hpost, -, -⟩
      · cases ho
      · cases hpost
  · obtain ⟨_ | e, hpost, hr, -⟩ := hsend
    · cases hpost
    · cases hr

/-- A plan of the job: either nothing is charged, or its due date is, and the next one is written. -/
theorem prelever_posted {r : Except Erreur (List Echeance)} (hp : s.savingsPlans[id]? = some plan)
    (h : backend.RunsIf (Posted .job) (prelever now (id, plan, booking)) s r s') :
    ∃ L, r = .ok L ∧ ((L = [] ∧ s'.savingsPlans = s.savingsPlans) ∨
      (L = plan.nextDeductDate.toList.map (fun d => (id, d)) ∧
        s'.savingsPlans = s.savingsPlans.set id (avance plan now))) := by
  rw [prelever] at h
  split at h
  · obtain ⟨rfl, rfl⟩ := h
    exact ⟨[], rfl, .inl ⟨rfl, rfl⟩⟩
  split at h
  · obtain ⟨rfl, rfl⟩ := h
    exact ⟨[], rfl, .inl ⟨rfl, rfl⟩⟩
  rcases Backend.runsIf_bind.mp h with ⟨x, s₁, hpay, h⟩ | ⟨x, hpay, -⟩
  · obtain ⟨y, hy, hpay⟩ := Backend.runsIf_attempt.mp hpay
    obtain rfl := Except.ok.inj hy
    have hs₁ := app_plans hpay
    rcases x with x | shape
    · obtain ⟨rfl, rfl⟩ := h
      exact ⟨[], rfl, .inl ⟨rfl, hs₁⟩⟩
    · rcases Backend.runsIf_bind.mp h with ⟨_, s₂, hconclure, rfl, rfl⟩ | ⟨x, hconclure, -⟩
      · refine ⟨_, rfl, .inr ⟨rfl, ?_⟩⟩
        rcases Backend.runsIf_tryCatch.mp hconclure with ⟨_, -, hc⟩ | ⟨_, s₃, hc, -, rfl⟩
        · rw [conclure_posted (hs₁ ▸ hp) hc, hs₁]
        · rw [conclure_posted (hs₁ ▸ hp) hc, hs₁]
      · rcases Backend.runsIf_tryCatch.mp hconclure with ⟨_, ho, -⟩ | ⟨_, _, -, ho, -⟩
        · cases ho
        · cases ho
  · obtain ⟨_, hy, -⟩ := Backend.runsIf_attempt.mp hpay
    cases hy

end Job

/-! ## The job -/

/-- An instalment that has been charged is over: its plan has ended or waits for a later date. -/
def Passee (t : Table SavingsPlan) (x : Echeance) : Prop :=
  ∀ plan, t[x.1]? = some plan → plan.autoDeduct = true → ∀ d ∈ plan.nextDeductDate, x.2 < d

/-- Charging what is due keeps `I`: a property of the plans, and of the instalments charged so far. -/
def Garde (I : Table SavingsPlan × List Echeance → Prop) : Prop :=
  ∀ t charged now id plan d, I (t, charged) → t[id]? = some plan → plan.autoDeduct = true →
    plan.nextDeductDate = some d → I (t.set id (avance plan now), charged ++ [(id, d)])

/-- No instalment was charged twice, and those that were charged are over. -/
structure Once (x : Table SavingsPlan × List Echeance) : Prop where
  nodup : x.2.Nodup
  passee : ∀ y ∈ x.2, Passee x.1 y

section Job

variable {s s' : Db} {now : Time} {charged : List Echeance}

/-- The instalment that is due is charged, and the next date is written. -/
theorem Once.charge {t : Table SavingsPlan} {id : SavingsPlanId} {plan : SavingsPlan} {d : Time}
    (h : Once (t, charged)) (hp : t[id]? = some plan) (hauto : plan.autoDeduct = true)
    (hd : plan.nextDeductDate = some d) : Once (t.set id (avance plan now), charged ++ [(id, d)]) := by
  have hnew : (id, d) ∉ charged := fun hm => lt_irrefl d (h.passee _ hm plan hp hauto d hd)
  refine ⟨h.nodup.append (List.nodup_singleton _) (List.disjoint_singleton.mpr hnew), ?_⟩
  intro y hy plan' hp' hauto' d' hd'
  rw [Table.get_set hp] at hp'
  split at hp'
  · next hid =>
    obtain rfl := Option.some.inj hp'
    rcases List.mem_append.mp hy with hy | hy
    · exact (h.passee y hy plan (hid ▸ hp) hauto d hd).trans (lt_avance hd hd')
    · obtain rfl := List.mem_singleton.mp hy
      exact lt_avance hd hd'
  · next hid =>
    rcases List.mem_append.mp hy with hy | hy
    · exact h.passee y hy plan' hp' hauto' d' hd'
    · obtain rfl := List.mem_singleton.mp hy
      exact absurd rfl hid

theorem garde_once : Garde Once := fun _ _ _ _ _ _ h hp hauto hd => h.charge hp hauto hd

/-- The loop over plans that are due. -/
theorem Garde.preleverPlans {I : Table SavingsPlan × List Echeance → Prop} (hI : Garde I)
    {l : List (SavingsPlanId × SavingsPlan × Booking)} (hl : l.Pairwise fun x y => x.1 ≠ y.1)
    (hdue : ∀ x ∈ l, s.savingsPlans[x.1]? = some x.2.1 ∧ x.2.1.autoDeduct = true ∧
      ∃ d, x.2.1.nextDeductDate = some d)
    {r : Except Erreur (List Echeance)} (h : I (s.savingsPlans, charged))
    (hrun : backend.RunsIf (Posted .job) (preleverPlans now l) s r s') :
    ∃ L, r = .ok L ∧ I (s'.savingsPlans, charged ++ L) := by
  induction l generalizing s charged r with
  | nil =>
    obtain ⟨rfl, rfl⟩ := hrun
    exact ⟨[], rfl, (List.append_nil charged).symm ▸ h⟩
  | cons x l ih =>
    obtain ⟨id, plan, booking⟩ := x
    obtain ⟨hp, hauto, d, hd⟩ := hdue _ (List.mem_cons_self ..)
    have hrest : ∀ y ∈ l, id ≠ y.1 := fun y hm => List.rel_of_pairwise_cons hl hm
    rcases Backend.runsIf_bind.mp hrun with ⟨a, s₁, hx, hrun⟩ | ⟨e, hx, -⟩
    · obtain ⟨L, hL, hcase⟩ := prelever_posted hp hx
      obtain rfl := Except.ok.inj hL
      -- the other rows are as they were, and the row of this plan is at its next date
      have hstep : I (s₁.savingsPlans, charged ++ a) ∧
          ∀ i, id ≠ i → s₁.savingsPlans[i]? = s.savingsPlans[i]? := by
        rcases hcase with ⟨rfl, hs⟩ | ⟨rfl, hs⟩
        · rw [hs, List.append_nil]
          exact ⟨h, fun _ _ => rfl⟩
        · rw [hs, hd]
          exact ⟨hI _ _ now _ _ _ h hp hauto hd, fun i hi => by rw [Table.get_set hp, if_neg hi]⟩
      have hdue' : ∀ x ∈ l, s₁.savingsPlans[x.1]? = some x.2.1 ∧ x.2.1.autoDeduct = true ∧
          ∃ d, x.2.1.nextDeductDate = some d := fun x hm =>
        ⟨(hstep.2 _ (hrest x hm)).trans (hdue x (List.mem_cons_of_mem _ hm)).1,
          (hdue x (List.mem_cons_of_mem _ hm)).2⟩
      rcases Backend.runsIf_bind.mp hrun with ⟨b, s₂, hl', rfl, rfl⟩ | ⟨e, hl', rfl⟩
      · obtain ⟨L, hL, hlast⟩ := ih hl.of_cons hdue' hstep.1 hl'
        obtain rfl := Except.ok.inj hL
        exact ⟨_, rfl, List.append_assoc .. ▸ hlast⟩
      · obtain ⟨L, hL, -⟩ := ih hl.of_cons hdue' hstep.1 hl'
        cases hL
    · obtain ⟨L, hL, -⟩ := prelever_posted hp hx
      cases hL

theorem duePlans_pairwise (s : Db) (now : Time) :
    (duePlans s now).Pairwise fun x y => x.1 ≠ y.1 := by
  refine ((Table.withIds_pairwise _).filter _).filterMap _ fun x y hne b hb b' hb' => ?_
  obtain ⟨_, -, rfl⟩ := Option.map_eq_some_iff.mp hb
  obtain ⟨_, -, rfl⟩ := Option.map_eq_some_iff.mp hb'
  exact hne

theorem mem_duePlans {x : SavingsPlanId × SavingsPlan × Booking} (hx : x ∈ duePlans s now) :
    s.savingsPlans[x.1]? = some x.2.1 ∧ x.2.1.autoDeduct = true ∧
      ∃ d, x.2.1.nextDeductDate = some d := by
  obtain ⟨⟨id, plan⟩, hm, hb⟩ := List.mem_filterMap.mp hx
  obtain ⟨b, -, rfl⟩ := Option.map_eq_some_iff.mp hb
  obtain ⟨hrow, hdue⟩ := List.mem_filter.mp hm
  obtain ⟨hauto, hdate⟩ := Bool.and_eq_true_iff.mp hdue
  obtain ⟨d, hd, -⟩ := (Option.any_eq_true _ _).mp hdate
  exact ⟨Table.mem_withIds.mp hrow, hauto, d, hd⟩

/-- The job. -/
theorem Garde.prelevements {I : Table SavingsPlan × List Echeance → Prop} (hI : Garde I)
    {r : Except Erreur (List Echeance)} (h : I (s.savingsPlans, charged))
    (hrun : backend.RunsIf (Posted .job) prelevements s r s') :
    I (s'.savingsPlans, charged ++ r.toOption.getD []) := by
  have hnone : charged ++ ([] : List Echeance) = charged := List.append_nil charged
  rcases Backend.runsIf_bind.mp hrun with ⟨now, s₁, hnow, hrun⟩ | ⟨e, hnow, rfl⟩
  · rw [← app_plans hnow] at h
    rcases Backend.runsIf_bind.mp hrun with ⟨l, s₂, hfind, hrun⟩ | ⟨e, hfind, rfl⟩
    · rcases await_cases hfind with ⟨hl, rfl⟩ | ⟨-, hl, -⟩
      · obtain rfl := Except.ok.inj hl
        obtain ⟨L, rfl, hlast⟩ :=
          hI.preleverPlans (duePlans_pairwise _ now) (fun x hx => mem_duePlans hx) h hrun
        exact hlast
      · cases hl
    · rcases await_cases hfind with ⟨hl, -⟩ | ⟨-, -, rfl⟩
      · cases hl
      · exact hnone.symm ▸ h
  · rw [← app_plans hnow] at h
    exact hnone.symm ▸ h

end Job

/-! ## The claim -/

/-- One request. -/
theorem Garde.temoin {I : Table SavingsPlan × List Echeance → Prop} (hI : Garde I) {q : Request}
    (hq : ∀ pilgrimId bookingId dto, q ≠ .setup pilgrimId bookingId dto)
    {s s' : Db} {charged : List Echeance} {r : Except Erreur (List Echeance)}
    (h : I (s.savingsPlans, charged)) (hrun : backend.RunsIf (Posted q) (temoin q) s r s') :
    I (s'.savingsPlans, charged ++ r.toOption.getD []) := by
  cases q with
  | job => exact hI.prelevements h hrun
  | setup pilgrimId bookingId dto => exact absurd rfl (hq pilgrimId bookingId dto)
  | app q =>
    have hnone : charged ++ ([] : List Echeance) = charged := List.append_nil charged
    rcases Backend.runsIf_bind.mp hrun with ⟨_, s₁, happ, rfl, rfl⟩ | ⟨e, happ, rfl⟩
    · rw [← app_plans happ] at h
      exact hnone.symm ▸ h
    · rw [← app_plans happ] at h
      exact hnone.symm ▸ h

/-- No plan is charged twice for one due date, in a run of the job among the requests of the other
services where nothing fails after a payment. -/
theorem charged_once {s : Db} {tr : Trace Request (Db × List Echeance)}
    (hsetup : ∀ x ∈ tr, ∀ pilgrimId bookingId dto, x.1 ≠ .setup pilgrimId bookingId dto)
    (hrun : RunIf Posted (s, []) tr) : (Trace.last (s, []) tr).2.Nodup := by
  have hnil : Once (s.savingsPlans, []) := ⟨List.nodup_nil, by rintro y ⟨⟩⟩
  suffices h : ∀ x : Db × List Echeance, Once (x.1.savingsPlans, x.2) → RunIf Posted x tr →
      Once ((Trace.last x tr).1.savingsPlans, (Trace.last x tr).2) from (h _ hnil hrun).nodup
  clear hrun
  induction tr with
  | nil => exact fun x hx _ => hx
  | cons y tr ih =>
    intro x hx hrun
    obtain ⟨⟨r, hy, hcharged⟩, hrun⟩ := hrun
    refine ih (fun z hz => hsetup z (List.mem_cons_of_mem _ hz)) y.2 ?_ hrun
    rw [hcharged]
    exact garde_once.temoin (hsetup y (List.mem_cons_self ..)) hx hy

/-- A plan with weekly instalments, the first of which is due at the instant 0. -/
private def epargne : Db :=
  { Db.exemple with
    bookings := [Booking.exemple]
    savingsPlans :=
      [{ bookingId := 0, targetAmount := 100, autoDeduct := true, deductAmount := some 10
         frequency := some "weekly", nextDeductDate := some 0 }] }

/-- Two days of the job; `panneDe` are the statements that fail on the first one. -/
private def deuxJours (panneDe : sig.Stmt → Bool) : Trace Request (Db × List Echeance) :=
  derouler (epargne, [])
    [(.job, fun c => if panneDe c then none else some { now := 0, reference := some "P1" }),
      (.job, fun _ => some { now := jourMs, reference := some "P2" })]

private theorem deuxJours_job (panneDe : sig.Stmt → Bool) :
    ∀ x ∈ deuxJours panneDe, ∀ pilgrimId bookingId dto, x.1 ≠ .setup pilgrimId bookingId dto := by
  intro x hx pilgrimId bookingId dto
  rcases List.mem_cons.mp hx with rfl | hx
  · rintro ⟨⟩
  · obtain rfl := List.mem_singleton.mp hx
    rintro ⟨⟩

private def notifie : sig.Stmt → Bool
  | .inl (.notificationCreateMany _) => true
  | _ => false

theorem posted_of_isSome {q : Request} {c : sig.Stmt} {s : Db} {e : Option Env}
    (h : e.isSome = true) : Posted q c s e := by
  unfold Posted
  split
  · exact h
  · exact h
  · trivial

/-- Nothing fails: the first instalment is charged once. -/
theorem charged_once_deux_jours : (Trace.last (epargne, []) (deuxJours fun _ => false)).2.Nodup := by
  refine charged_once (deuxJours_job _) (derouler_run _ fun y hy c s => posted_of_isSome ?_)
  rcases List.mem_cons.mp hy with rfl | hy
  · rfl
  · obtain rfl := List.mem_singleton.mp hy
    rfl

/-- The notification of the first day fails: the same instalment is charged on the second day. -/
theorem charged_twice :
    ¬ ∀ (s : Db) (tr : Trace Request (Db × List Echeance)),
      (∀ x ∈ tr, ∀ pilgrimId bookingId dto, x.1 ≠ .setup pilgrimId bookingId dto) →
      RunIf (fun _ _ _ _ => True) (s, []) tr → (Trace.last (s, []) tr).2.Nodup := by
  intro h
  have hnodup := h epargne (deuxJours notifie) (deuxJours_job _) (derouler_run _ fun _ _ _ _ => trivial)
  have hcharged : (Trace.last (epargne, []) (deuxJours notifie)).2 = [(0, 0), (0, 0)] := by decide +kernel
  rw [hcharged] at hnodup
  exact absurd hnodup (by decide)

end OumraHajj.Savings
