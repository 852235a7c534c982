import Mathlib.Data.Fintype.EquivFin
import OumraHajj.Savings.Service
import OumraHajj.Spec.Frame

/-!
# The instalments and the balance

The job asks for the instalment of a plan whatever has become of its booking. `never_over_collects_iff`
says in which states this is harmless: those where the booking of each plan that is due is open and owes
at least the instalment.
-/

namespace OumraHajj.Savings

open Async SavingsSchedulerService

/-- What is left to pay of a booking: its price without the payments that have succeeded. -/
def soldeRestant (s : Db) (bookingId : BookingId) (p : Package) : ℚ :=
  p.price - ((s.succeededOf bookingId).map (·.2.amount)).sum

/-- A payment may be asked for the booking: it is neither cancelled nor completed, and owes the amount. -/
def Exigible (s : Db) (bookingId : BookingId) (amount : ℚ) : Prop :=
  ∃ b p, s.bookings[bookingId]? = some b ∧ s.packages[b.packageId]? = some p ∧
    b.status ≠ .cancelled ∧ b.status ≠ .completed ∧ amount ≤ soldeRestant s bookingId p

/-- Each payment that was created between two states could be asked for. -/
def Sobre (s s' : Db) : Prop :=
  ∀ i p, s.payments.length ≤ i → s'.payments[i]? = some p → Exigible s' p.bookingId p.amount

/-- The job is executed at the instant `now`; any of its statements may fail. -/
def Horloge (now : Time) : sig.Stmt → Db → Option Env → Prop
  | .inl .now, _, some e => e.now = now
  | _, _, _ => True

/-- The instalment of the plan may be asked for; one of 0 is not. -/
def Admis (s : Db) (x : SavingsPlanId × SavingsPlan × Booking) : Prop :=
  ∀ a ∈ x.2.1.deductAmount, a ≠ 0 → Exigible s x.2.1.bookingId a

/-! ## What the job writes -/

/-- The later state has the same bookings and packages, and more payments, which are pending and of which
`A` holds. -/
structure Appels (A : BookingId → ℚ → Prop) (s s' : Db) : Prop where
  bookings : s'.bookings = s.bookings
  packages : s'.packages = s.packages
  payments : ∃ l, s'.payments = s.payments ++ l ∧
    ∀ p ∈ l, p.status = .pending ∧ A p.bookingId p.amount

namespace Appels

variable {A : BookingId → ℚ → Prop} {s s₁ s₂ s' : Db}

theorem refl (s : Db) : Appels A s s :=
  ⟨rfl, rfl, [], (List.append_nil _).symm, by rintro p ⟨⟩⟩

theorem trans (h : Appels A s s₁) (h' : Appels A s₁ s₂) : Appels A s s₂ := by
  obtain ⟨l, hl, hA⟩ := h.payments
  obtain ⟨l', hl', hA'⟩ := h'.payments
  refine ⟨h'.bookings.trans h.bookings, h'.packages.trans h.packages, l ++ l', ?_, fun p hp => ?_⟩
  · rw [hl', hl, List.append_assoc]
  · exact (List.mem_append.mp hp).elim (hA p) (hA' p)

/-- Payments that are pending do not change what is left to pay. -/
theorem exigible (h : Appels A s s') {bookingId : BookingId} {amount : ℚ} :
    Exigible s' bookingId amount ↔ Exigible s bookingId amount := by
  obtain ⟨l, hl, hA⟩ := h.payments
  have hnone : l.filter (fun p => decide (p.bookingId = bookingId ∧ p.status = .succeeded)) = [] :=
    List.filter_eq_nil_iff.mpr fun p hp => by simp [(hA p hp).1]
  have hsolde : ∀ p, soldeRestant s' bookingId p = soldeRestant s bookingId p := by
    intro p
    unfold soldeRestant Db.succeededOf
    rw [Table.map_findMany _ _ Payment.amount, Table.map_findMany _ _ Payment.amount, hl,
      List.filter_append, hnone, List.append_nil]
  simp only [Exigible, h.bookings, h.packages, hsolde]

end Appels

/-- The statements of the job on the other tables. -/
def Appelle (A : BookingId → ℚ → Prop) : OumraHajj.Stmt → Prop
  | .paymentCreate bookingId amount _ _ _ => A bookingId amount
  | .now | .bookingFindUnique _ | .paymentCount _ | .providerInitiate _
  | .notificationCreateMany _ => True
  | _ => False

section Uses

variable {A : BookingId → ℚ → Prop}

theorem exec_appels {c : OumraHajj.Stmt} (hc : Appelle A c) (e : OumraHajj.Env) (s : Db) :
    Appels A s (OumraHajj.exec c e s).2 := by
  cases c with
  | now => exact .refl s
  | bookingFindUnique id => exact .refl s
  | paymentCount bookingId => exact .refl s
  | providerInitiate request => exact .refl s
  | notificationCreateMany data => exact ⟨rfl, rfl, [], (List.append_nil _).symm, by rintro p ⟨⟩⟩
  | paymentCreate bookingId amount installmentNumber method providerReference =>
    simp only [OumraHajj.exec]
    split
    · exact .refl s
    · refine ⟨rfl, rfl, _, rfl, fun p hp => ?_⟩
      obtain rfl := List.mem_singleton.mp hp
      exact ⟨rfl, hc⟩
  | _ => exact hc.elim

theorem exec_savings_appels (c : Stmt) (s : Db) : Appels A s (Savings.exec c s).2 := by
  have hplans : ∀ s' : Db, s'.bookings = s.bookings → s'.packages = s.packages →
      s'.payments = s.payments → Appels A s s' := fun s' hb hp hm =>
    ⟨hb, hp, [], hm.trans (List.append_nil _).symm, by rintro p ⟨⟩⟩
  cases c with
  | savingsPlanFindMany now => exact .refl s
  | savingsPlanUpsert bookingId targetAmount data =>
    simp only [Savings.exec]
    split <;> exact hplans _ rfl rfl rfl
  | savingsPlanUpdate id nextDeductDate autoDeduct =>
    simp only [Savings.exec]
    split <;> exact hplans _ rfl rfl rfl

/-- The statements of the job. -/
def Appelant (A : BookingId → ℚ → Prop) (c : sig.Stmt) : Prop :=
  ∀ d, c = .inl d → Appelle A d

theorem appels_of_uses {α : Type} {p : Req α} (hp : Prog.Uses (S := sig.faulty) (Appelant A) p)
    {s s' : Db} {r : Except Erreur α} (h : backend.Runs p s r s') : Appels A s s' := by
  refine h.frame Appels.refl (fun _ _ _ => Appels.trans) ?_ hp
  rintro (c | c) hc (_ | e) s
  · exact .refl s
  · exact exec_appels (hc c rfl) e s
  · exact .refl s
  · exact exec_savings_appels c s

theorem initiate_uses {pilgrimId : UserId} {bookingId : BookingId} {amount : ℚ} {method : PaymentMethod}
    (h : A bookingId amount) :
    (PaymentsService.initiate pilgrimId bookingId amount method).Uses (Appelle A) := by
  refine ⟨trivial, fun booking => ?_⟩
  rcases booking with _ | b
  · trivial
  show Prog.Uses _ (ite _ _ _)
  split
  · trivial
  refine ⟨trivial, fun count => ⟨trivial, fun reference => ?_⟩⟩
  rcases reference with _ | providerReference
  · trivial
  refine ⟨h, fun payment => ?_⟩
  rcases payment with _ | payment <;> trivial

theorem appelant_ordinaire : Ordinaire (Appelant A) where
  now := by rintro d ⟨⟩; trivial
  notification data := by rintro d ⟨⟩; trivial
  find now := by rintro d ⟨⟩
  update id nextDeductDate autoDeduct := by rintro d ⟨⟩

/-- The instalment of a plan is asked for, if it has one. -/
theorem initialise_appelant {plan : SavingsPlan} {booking : Booking}
    (h : ∀ a ∈ plan.deductAmount, a ≠ 0 → A plan.bookingId a) :
    Initialise (Appelant A) plan booking := by
  intro a ha hne
  refine app_uses ((initiate_uses (h a ha hne)).mono fun c hc => ?_)
  rintro d ⟨⟩
  exact hc

/-- Without a condition on the instalments. -/
theorem sansCondition (plan : SavingsPlan) (booking : Booking) :
    Initialise (Appelant fun _ _ => True) plan booking :=
  initialise_appelant fun _ _ _ => trivial

end Uses

/-! ## Executions of the job -/

section Job

variable {now : Time} {s s' : Db}

/-- An execution of the job stops, or goes through the plans that are due. -/
theorem job_cases {r : Except Erreur Unit}
    (h : backend.RunsIf (Horloge now) processDueSavings s r s') :
    s' = s ∨ backend.Runs (traiterPlans now (duePlans s now)) s r s' := by
  rcases Backend.runsIf_bind.mp h with ⟨t, s₁, ⟨_ | e, hnow, ht, rfl⟩, h⟩ | ⟨x, ⟨_ | e, -, -, rfl⟩, -⟩
  · cases ht
  · obtain rfl := Except.ok.inj ht
    obtain rfl : e.now = now := hnow
    rcases Backend.runsIf_bind.mp h with ⟨l, s₂, ⟨_ | e', -, hl, rfl⟩, h⟩ | ⟨x, ⟨_ | e', -, -, rfl⟩, -⟩
    · cases hl
    · obtain rfl := Except.ok.inj hl
      exact .inr h.runs
    · exact .inl rfl
    · exact .inl rfl
  · exact .inl rfl
  · exact .inl rfl

theorem sobre_of_admis {r : Except Erreur Unit} (hadmis : ∀ x ∈ duePlans s now, Admis s x)
    (h : backend.RunsIf (Horloge now) processDueSavings s r s') : Sobre s s' := by
  have happels : Appels (Exigible s) s s' := by
    rcases job_cases h with rfl | h
    · exact .refl s'
    · exact appels_of_uses (traiterPlans_uses appelant_ordinaire
        (fun x hx => initialise_appelant (hadmis x hx)) now) h
  intro i p hi hp
  obtain ⟨l, hl, hA⟩ := happels.payments
  rw [hl, List.getElem?_append_right hi] at hp
  exact happels.exigible.mpr (hA p (List.mem_of_getElem? hp)).2

theorem horloge_total (c : sig.Stmt) (s : Db) : ∃ e, Horloge now c s e := by
  refine ⟨none, ?_⟩
  unfold Horloge
  split <;> trivial

theorem horloge_some (now : Time) (reference : Option String) (c : sig.Stmt) (s : Db) :
    Horloge now c s (some { now, reference }) := by
  unfold Horloge
  split
  · next he => exact (Option.some.inj he) ▸ rfl
  · trivial

/-- A reference that no payment has. -/
theorem exists_reference (s : Db) :
    ∃ ref : String, s.payments.any (fun p => decide (p.providerReference = ref)) = false := by
  obtain ⟨ref, href⟩ :=
    Infinite.exists_notMem_finset (s.payments.map (·.providerReference)).toFinset
  refine ⟨ref, List.any_eq_false.mpr fun p hp heq => href ?_⟩
  exact List.mem_toFinset.mpr (List.mem_map.mpr ⟨p, hp, of_decide_eq_true heq⟩)

/-- Where nothing fails, a handler of the other services runs as it does there. -/
theorem evalBy_app {α : Type} (e : OumraHajj.Env) (p : OumraHajj.Req α) (s : Db) :
    backend.evalBy (fun _ => some e) (app p) s = prisma.evalBy (fun _ => e) p s := by
  induction p generalizing s with
  | ret a => rfl
  | fail x => rfl
  | call c k ih => exact ih _ _

/-- A payment with a reference of its own is accepted. -/
theorem initiate_accepted {e : OumraHajj.Env} {ref : String} (he : e.reference = some ref)
    (href : s.payments.any (fun p => decide (p.providerReference = ref)) = false)
    {bookingId : BookingId} {b : Booking} (hb : s.bookings[bookingId]? = some b) (amount : ℚ)
    (method : PaymentMethod) :
    ∃ shape p, prisma.evalBy (fun _ => e)
        (PaymentsService.initiate b.pilgrimId bookingId amount method) s =
          (.ok shape, { s with payments := s.payments ++ [p] }) ∧
      p.bookingId = bookingId ∧ p.amount = amount := by
  have howner : ¬(toBookingShape bookingId b).pilgrimId ≠ b.pilgrimId := fun h => h rfl
  simp only [PaymentsService.initiate, BookingsService.findByIdOrFail, Prog.bind_eq, await_bind,
    Prog.call_bind, Backend.evalBy_call, prisma_exec, OumraHajj.exec, hb, Prog.pure_eq, Prog.ret_bind,
    if_neg howner, he, href]
  exact ⟨_, _, rfl, rfl, rfl⟩

/-- The payment of an instalment can be accepted. -/
theorem initier_accepted {plan : SavingsPlan} {booking : Booking} (deductAmount : ℚ)
    (hb : s.bookings[plan.bookingId]? = some booking) :
    ∃ shape s₁ p, backend.RunsIf (Horloge now) (initier plan booking deductAmount) s (.ok shape) s₁ ∧
      s₁.payments = s.payments ++ [p] ∧ p.bookingId = plan.bookingId ∧ p.amount = deductAmount := by
  obtain ⟨ref, href⟩ := exists_reference s
  obtain ⟨shape, p, heval, hp⟩ := initiate_accepted (e := { now, reference := some ref }) rfl href hb
    deductAmount .mobileMoneyOrange
  have hrun := Backend.runsIf_evalBy (B := backend) (horloge_some now (some ref)) (initier plan booking deductAmount) s
  rw [initier, evalBy_app, heval] at hrun
  exact ⟨shape, _, p, hrun, rfl, hp⟩

/-- One plan: its instalment can be charged, if there is one. -/
theorem traiterPlan_charges {id : SavingsPlanId} {plan : SavingsPlan} {booking : Booking}
    {deductAmount : ℚ} (ha : plan.deductAmount = some deductAmount) (hne : deductAmount ≠ 0)
    (hb : s.bookings[plan.bookingId]? = some booking) :
    ∃ s', backend.RunsIf (Horloge now) (traiterPlan now (id, plan, booking)) s (.ok ()) s' ∧
      ∃ p l, s'.payments = s.payments ++ p :: l ∧ p.bookingId = plan.bookingId ∧
        p.amount = deductAmount := by
  obtain ⟨shape, s₁, p, hpay, hs₁, hp⟩ := @initier_accepted now s _ _ deductAmount hb
  obtain ⟨r, s₂, hrest⟩ := Backend.exists_runsIf (B := backend) horloge_total
    (conclure now id plan booking deductAmount) s₁
  obtain ⟨l, hl, -⟩ := (appels_of_uses (A := fun _ _ => True)
    (conclure_uses appelant_ordinaire _ _ _ _ _) hrest.runs).payments
  refine ⟨s₂, ?_, p, l, ?_, hp⟩
  · simp only [traiterPlan, ha, if_neg hne]
    refine Backend.runsIf_tryCatch.mpr ?_
    rcases r with x | ⟨⟩
    · exact .inr ⟨x, s₂, Backend.runsIf_bind.mpr (.inl ⟨shape, s₁, hpay, hrest⟩), rfl, rfl⟩
    · exact .inl ⟨(), rfl, Backend.runsIf_bind.mpr (.inl ⟨shape, s₁, hpay, hrest⟩)⟩
  · rw [hl, hs₁, List.append_assoc, List.singleton_append]

/-- The error of a plan does not stop the loop. -/
theorem traiterPlan_ok {x : SavingsPlanId × SavingsPlan × Booking} {r : Except Erreur Unit}
    (h : backend.RunsIf (Horloge now) (traiterPlan now x) s r s') : r = .ok () := by
  obtain ⟨id, plan, booking⟩ := x
  rw [traiterPlan] at h
  split at h
  · exact h.1
  split at h
  · exact h.1
  rcases Backend.runsIf_tryCatch.mp h with ⟨_, hr, -⟩ | ⟨_, _, -, hr, -⟩
  · exact hr
  · exact hr

/-- The loop can charge the instalment of each of its plans. -/
theorem traiterPlans_charges {l : List (SavingsPlanId × SavingsPlan × Booking)}
    {x : SavingsPlanId × SavingsPlan × Booking} (hx : x ∈ l) {deductAmount : ℚ}
    (ha : x.2.1.deductAmount = some deductAmount) (hne : deductAmount ≠ 0)
    (hb : s.bookings[x.2.1.bookingId]? = some x.2.2) :
    ∃ r s', backend.RunsIf (Horloge now) (traiterPlans now l) s r s' ∧
      ∃ i p, s.payments.length ≤ i ∧ s'.payments[i]? = some p ∧ p.bookingId = x.2.1.bookingId ∧
        p.amount = deductAmount := by
  induction l generalizing s with
  | nil => cases hx
  | cons y l ih =>
    rcases List.mem_cons.mp hx with rfl | hx
    · obtain ⟨s₁, hfirst, p, l₁, hs₁, hp⟩ := @traiterPlan_charges now _ _ _ _ _ ha hne hb
      obtain ⟨r, s₂, hrest⟩ := Backend.exists_runsIf (B := backend) horloge_total
        (traiterPlans now l) s₁
      obtain ⟨l₂, hl₂, -⟩ := (appels_of_uses (A := fun _ _ => True)
        (traiterPlans_uses appelant_ordinaire (fun _ _ => sansCondition _ _) now) hrest.runs).payments
      refine ⟨r, s₂, Backend.runsIf_bind.mpr (.inl ⟨(), s₁, hfirst, hrest⟩), s.payments.length, p,
        le_rfl, ?_, hp⟩
      rw [hl₂, hs₁, List.append_assoc, List.getElem?_append_right le_rfl, Nat.sub_self]
      rfl
    · obtain ⟨r, s₁, hfirst⟩ := Backend.exists_runsIf (B := backend) horloge_total
        (traiterPlan now y) s
      obtain rfl := traiterPlan_ok hfirst
      have happels := appels_of_uses (A := fun _ _ => True)
        (traiterPlan_uses appelant_ordinaire (sansCondition _ _) now) hfirst.runs
      obtain ⟨l₁, hl₁, -⟩ := happels.payments
      obtain ⟨r, s₂, hrest, i, p, hi, hp⟩ := ih hx (happels.bookings ▸ hb)
      refine ⟨r, s₂, Backend.runsIf_bind.mpr (.inl ⟨(), s₁, hfirst, hrest⟩), i, p, ?_, hp⟩
      rw [hl₁, List.length_append] at hi
      omega

theorem mem_duePlans_booking {x : SavingsPlanId × SavingsPlan × Booking} (hx : x ∈ duePlans s now) :
    s.bookings[x.2.1.bookingId]? = some x.2.2 := by
  obtain ⟨⟨id, plan⟩, -, hb⟩ := List.mem_filterMap.mp hx
  obtain ⟨b, hbooking, rfl⟩ := Option.map_eq_some_iff.mp hb
  exact hbooking

/-- The job can charge the instalment of each plan that is due. -/
theorem job_charges {x : SavingsPlanId × SavingsPlan × Booking} (hx : x ∈ duePlans s now)
    {deductAmount : ℚ} (ha : x.2.1.deductAmount = some deductAmount) (hne : deductAmount ≠ 0) :
    ∃ r s', backend.RunsIf (Horloge now) processDueSavings s r s' ∧
      ∃ i p, s.payments.length ≤ i ∧ s'.payments[i]? = some p ∧ p.bookingId = x.2.1.bookingId ∧
        p.amount = deductAmount := by
  obtain ⟨r, s', hrun, hp⟩ := @traiterPlans_charges now _ _ _ hx _ ha hne
    (mem_duePlans_booking hx)
  refine ⟨r, s', ?_, hp⟩
  refine Backend.runsIf_bind.mpr (.inl ⟨now, s, ⟨some { now }, rfl, rfl, rfl⟩, ?_⟩)
  exact Backend.runsIf_bind.mpr (.inl ⟨duePlans s now, s, ⟨some {}, trivial, rfl, rfl⟩, hrun⟩)

/-- **The balance of the bookings.** No execution of the job at the instant `now` asks for a payment that
a booking does not owe exactly if each plan that is due has a booking that owes its instalment. -/
theorem never_over_collects_iff (s : Db) (now : Time) :
    (∀ r s', backend.RunsIf (Horloge now) processDueSavings s r s' → Sobre s s') ↔
      ∀ x ∈ duePlans s now, Admis s x := by
  constructor
  · intro h x hx a ha hne
    obtain ⟨r, s', hrun, i, p, hi, hp, hbooking, hamount⟩ := job_charges hx ha hne
    have happels : Appels (fun _ _ => True) s s' := by
      rcases job_cases hrun with rfl | hl
      · exact .refl s'
      · exact appels_of_uses (traiterPlans_uses appelant_ordinaire (fun _ _ => sansCondition _ _) now) hl
    have hexigible := h r s' hrun i p hi hp
    rw [hbooking, hamount] at hexigible
    exact happels.exigible.mp hexigible
  · exact fun h r s' hrun => sobre_of_admis h hrun

end Job

/-- A state that the requests lead to from one without plans and payments. -/
def Atteint (s : Db) : Prop :=
  ∃ s₀ tr, s₀.savingsPlans = [] ∧ s₀.payments = [] ∧ backend.Run handler s₀ tr ∧ Trace.last s₀ tr = s

private theorem un_le_dix : ∀ a ∈ (some 10 : Option ℚ), 1 ≤ a := by
  intro a ha
  obtain rfl := Option.some.inj ha
  decide +kernel

/-- 10 a week. -/
private def hebdomadaire : SetupSavingsPlanDto where
  deductAmount := some 10
  frequency := some "weekly"
  autoDeduct := true
  deductAmount_min := un_le_dix
  frequency_mem _ hf := .inl (Option.some.inj hf).symm

/-- A booking is made, gets a savings plan and is cancelled. -/
private def annulation : Trace Request Db :=
  backend.evalAll handler (some {}) Db.exemple
    [.app (.createBooking 0 0), .setup 0 0 hebdomadaire, .app (.cancelBooking 0 0)]

/-- The job a week later, where nothing fails. -/
private def echeance : Except Erreur Unit × Db :=
  backend.eval (some { now := addDays 0 7, reference := some "P1" }) processDueSavings
    (Trace.last Db.exemple annulation)

/-- The instalment of a cancelled booking is asked for. -/
theorem over_collects :
    ¬ ∀ s, Atteint s → ∀ now r s', backend.RunsIf (Horloge now) processDueSavings s r s' →
      Sobre s s' := by
  intro h
  have hatteint : Atteint (Trace.last Db.exemple annulation) :=
    ⟨_, _, rfl, rfl, Backend.evalAll_run _ _ _, rfl⟩
  have hrun : backend.RunsIf (Horloge (addDays 0 7)) processDueSavings
      (Trace.last Db.exemple annulation) echeance.1 echeance.2 :=
    Backend.runsIf_evalBy (B := backend) (horloge_some _ (some "P1")) _ _
  have hend : (Trace.last Db.exemple annulation).payments.length = 0 ∧
      echeance.2.payments.map (·.bookingId) = [0] ∧
      echeance.2.bookings[0]?.map (·.status) = some .cancelled := by decide +kernel
  obtain ⟨hnone, hpayments, hcancelled⟩ := hend
  obtain ⟨p, hp, hbooking⟩ := List.map_eq_singleton_iff.mp hpayments
  obtain ⟨b, q, hb, -, hstatus, -⟩ := h _ hatteint _ _ _ hrun 0 p hnone.le (hp ▸ rfl)
  rw [hbooking] at hb
  rw [hb] at hcancelled
  exact hstatus (Option.some.inj hcancelled)

end OumraHajj.Savings
