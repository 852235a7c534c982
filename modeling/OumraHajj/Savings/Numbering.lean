import OumraHajj.Async.Embed
import OumraHajj.Savings.Service
import OumraHajj.Spec.Creation

/-!
# The numbers of the instalments

`initiate` counts the payments of the booking, asks the provider, and then inserts a payment with the
number that follows the count. Payments of pilgrims and runs of the daily job go on at once, so another
payment of the booking may come in between. `numbered_iff`: the payments of a booking carry the numbers
`1, …, n` at the end of a schedule exactly if each of them was inserted while its count was current.
-/

namespace OumraHajj.Savings

open Async

/-- The numbers of the payments of a booking. -/
def numeros (s : Db) (b : BookingId) : List Nat :=
  (s.payments.filter (·.bookingId = b)).map (·.installmentNumber)

/-- The payments of a booking carry the numbers `1, …, n`. -/
def Numerote (s : Db) (b : BookingId) : Prop :=
  (numeros s b).Perm (List.range' 1 (numeros s b).length)

instance (s : Db) (b : BookingId) : Decidable (Numerote s b) :=
  inferInstanceAs (Decidable (List.Perm _ _))

/-- The booking, the number and the reference of the payment that a statement inserts. -/
def insere : OumraHajj.Stmt → Option (BookingId × Nat × String)
  | .paymentCreate bookingId _ installmentNumber _ providerReference =>
    some (bookingId, installmentNumber, providerReference)
  | _ => none

/-- A payment of the booking is inserted while the count that its call took is current: no other one has
been inserted since. -/
def Frais (b : BookingId) : sig.faulty.Stmt → Db → Option Env → Prop
  | .inl c, s, e => ∀ x ∈ insere c, e.isSome = true → x.1 = b →
    s.payments.any (·.providerReference = x.2.2) = false → x.2.1 = (numeros s b).length + 1
  | .inr _, _, _ => True

instance (b : BookingId) : (c : sig.faulty.Stmt) → (s : Db) → (e : Option Env) → Decidable (Frais b c s e)
  | .inl c, s, e => inferInstanceAs (Decidable (∀ x ∈ insere c, e.isSome = true → x.1 = b →
    s.payments.any (·.providerReference = x.2.2) = false → x.2.1 = (numeros s b).length + 1))
  | .inr _, _, _ => isTrue trivial

/-! ## Numberings -/

/-- What the numbers lack to the sum of `1, …, n`. -/
def defaut (l : List Nat) : Int := (List.range' 1 l.length).sum - l.sum

theorem defaut_append (l : List Nat) (n : Nat) :
    defaut (l ++ [n]) = defaut l + (l.length + 1 - n) := by
  unfold defaut
  rw [List.length_append, List.length_singleton, List.range'_1_concat, List.sum_append, List.sum_append,
    List.sum_singleton, List.sum_singleton]
  push_cast
  omega

theorem defaut_of_perm {l : List Nat} (h : l.Perm (List.range' 1 l.length)) : defaut l = 0 := by
  rw [defaut, h.sum_eq, sub_self]

theorem perm_append {l : List Nat} (h : l.Perm (List.range' 1 l.length)) :
    (l ++ [l.length + 1]).Perm (List.range' 1 (l ++ [l.length + 1]).length) := by
  rw [List.length_append, List.length_singleton, List.range'_1_concat, Nat.add_comm 1]
  exact h.append_right _

/-! ## The statements -/

section Statements

variable {s : Db} {b : BookingId}

/-- The columns that the numbers are read from. -/
def colonnes (s : Db) : List (BookingId × Nat) := s.payments.map fun p => (p.bookingId, p.installmentNumber)

theorem numeros_eq : numeros s b = ((colonnes s).filter (·.1 = b)).map Prod.snd := by
  rw [numeros, colonnes, List.filter_map, List.map_map]
  rfl

theorem length_numeros : s.payments.countP (·.bookingId = b) = (numeros s b).length := by
  rw [numeros, List.length_map, List.countP_eq_length_filter]

/-- The statement inserts no payment. -/
theorem exec_numeros {c : OumraHajj.Stmt} (hc : insere c = none) (e : OumraHajj.Env) (s : Db) :
    numeros (OumraHajj.exec c e s).2 b = numeros s b := by
  suffices h : colonnes (OumraHajj.exec c e s).2 = colonnes s by rw [numeros_eq, h, ← numeros_eq]
  cases c
  case paymentCreate => cases hc
  case paymentUpdate id data =>
    simp only [OumraHajj.exec]
    split
    · next p hp => exact map_set_of_eq hp rfl
    · rfl
  all_goals first
    | rfl
    | simp only [OumraHajj.exec]
      split <;> rfl

theorem savings_payments (c : Stmt) (s : Db) : (exec c s).2.payments = s.payments := by
  cases c
  case savingsPlanFindMany => rfl
  all_goals
    simp only [exec]
    split <;> rfl

/-- A payment is inserted, if its reference is new. -/
theorem exec_create {bookingId : BookingId} {amount : ℚ} {n : Nat} {method : PaymentMethod}
    {reference : String} (e : OumraHajj.Env) (s : Db) :
    numeros (OumraHajj.exec (.paymentCreate bookingId amount n method reference) e s).2 b =
      if s.payments.any (·.providerReference = reference) = false ∧ bookingId = b then numeros s b ++ [n]
      else numeros s b := by
  unfold numeros
  simp only [OumraHajj.exec]
  split
  · next h => simp [h]
  · next h =>
    by_cases hb : bookingId = b
    · simp [h, hb, List.filter_append]
    · simp [h, hb, List.filter_append]

/-- What a statement does to the numbers of the booking. -/
theorem exec_cases (c : sig.Stmt) (e : Option Env) (s : Db) :
    (numeros (backend.exec c e s).2 b = numeros s b ∧ Frais b c s e) ∨
      ∃ n, numeros (backend.exec c e s).2 b = numeros s b ++ [n] ∧
        (Frais b c s e ↔ n = (numeros s b).length + 1) := by
  rcases e with _ | e
  · refine .inl ⟨rfl, ?_⟩
    rcases c with c | c
    · rintro x - ⟨⟩
    · trivial
  rcases c with c | c
  swap
  · refine .inl ⟨?_, trivial⟩
    show numeros (exec c s).2 b = _
    rw [numeros, savings_payments, numeros]
  rcases hc : insere c with _ | ⟨bookingId, n, reference⟩
  · refine .inl ⟨exec_numeros hc e s, fun x hx => ?_⟩
    rw [hc] at hx
    cases hx
  cases c
  case paymentCreate bookingId' amount n' method reference' =>
    obtain ⟨rfl, rfl, rfl⟩ : bookingId' = bookingId ∧ n' = n ∧ reference' = reference := by
      simpa [insere] using hc
    have hnum := @exec_create b bookingId' amount n' method reference' e s
    by_cases hnew : s.payments.any (·.providerReference = reference') = false ∧ bookingId' = b
    · rw [if_pos hnew] at hnum
      refine .inr ⟨n', hnum, fun h => h _ rfl rfl hnew.2 hnew.1, ?_⟩
      rintro h x ⟨⟩ - - -
      exact h
    · rw [if_neg hnew] at hnum
      refine .inl ⟨hnum, ?_⟩
      rintro x ⟨⟩ - hb href
      exact absurd ⟨href, hb⟩ hnew
  all_goals cases hc

end Statements

/-! ## The calls -/

/-- Payments are only added, and none has a number above its place. -/
def numRely (b : BookingId) : Rely Db where
  inv _ := True
  le s s' := (numeros s b).length ≤ (numeros s' b).length ∧ defaut (numeros s b) ≤ defaut (numeros s' b)
  refl _ := ⟨le_rfl, le_rfl⟩
  trans _ _ _ h h' := ⟨h.1.trans h'.1, h.2.trans h'.2⟩

/-- Every statement is allowed. -/
abbrev toujours {S : Sig} {St Env : Type} : S.Stmt → St → Env → Prop := fun _ _ _ => True

section Calls

variable {b : BookingId} {s : Db}

theorem le_append {s s' : Db} {n : Nat} (h : numeros s' b = numeros s b ++ [n])
    (hn : n ≤ (numeros s b).length + 1) : (numRely b).le s s' := by
  refine ⟨by rw [h, List.length_append]; omega, ?_⟩
  rw [h, defaut_append]
  omega

theorem le_of_numeros {s s' : Db} (h : numeros s' b = numeros s b) : (numRely b).le s s' := by
  refine ⟨?_, ?_⟩
  · rw [h]
  · rw [h]

/-- A call inserts the number that follows a count of its own. -/
theorem initiate_keeps (pilgrimId : UserId) (bookingId : BookingId) (amount : ℚ) (method : PaymentMethod)
    (s : Db) : (numRely b).Keeps prisma toujours
      (PaymentsService.initiate pilgrimId bookingId amount method) s fun _ _ => True := by
  refine .read (fun _ _ => rfl) fun s₁ e _ _ => ?_
  show (numRely b).Keeps prisma toujours (Prog.bind (Prog.bind (.ret s₁.bookings[bookingId]?) _) _) s₁ _
  rcases s₁.bookings[bookingId]? with _ | booking
  · trivial
  show (numRely b).Keeps prisma toujours (ite _ _ _) s₁ _
  split
  · trivial
  refine .read (fun _ _ => rfl) fun s₂ e _ _ => .read (fun _ _ => rfl) fun s₃ e _ hle => ?_
  show (numRely b).Keeps prisma toujours (Prog.bind (.ret e.reference) _) s₃ _
  rcases e.reference with _ | reference
  · trivial
  intro s₄ e' _ hle' _
  refine ⟨trivial, ?_, ?_⟩
  · have hcreate := @exec_create b bookingId amount (s₂.payments.countP (·.bookingId = bookingId) + 1)
      method reference e' s₄
    split at hcreate
    · next hnew =>
      refine le_append hcreate ?_
      rw [hnew.2, length_numeros]
      exact Nat.succ_le_succ (hle.1.trans hle'.1)
    · exact le_of_numeros hcreate
  · show (numRely b).Keeps prisma toujours (Prog.bind (.ret (prisma.exec _ e' s₄).1) _) _ _
    rcases (prisma.exec _ e' s₄).1 with _ | ⟨id, payment⟩ <;> trivial

theorem extends_prisma : Backend.Extends (fun _ => True) prisma base id id := fun _ _ _ _ => rfl

/-- What a handler of the other services keeps. -/
theorem keeps_left {D : Rely Db} {ok : sig.Stmt → Db → OumraHajj.Env → Prop} {α : Type}
    {p : OumraHajj.Req α} {s : Db} {Q : Except Erreur α → Db → Prop}
    (h : D.Keeps prisma (fun c => ok (.inl c)) p s Q) :
    D.Keeps base ok (Prog.left p : Prog sig Erreur α) s Q :=
  Rely.Keeps.left (D := D) extends_prisma (fun _ _ _ => id) (Prog.uses_true p) h

theorem app_keeps {α : Type} {p : OumraHajj.Req α} {s : Db}
    (h : (numRely b).Keeps prisma toujours p s fun _ _ => True) :
    (numRely b).Keeps backend toujours (app p) s fun _ _ => True :=
  Rely.Keeps.faulty (fun _ _ _ => id) (fun _ _ => trivial) (keeps_left h)

/-- The statement inserts no payment. -/
def SansInsertion : sig.Stmt → Prop
  | .inl c => insere c = none
  | .inr _ => True

theorem sansInsertion_step {c : sig.Stmt} (hc : SansInsertion c) :
    (numRely b).Step backend toujours c := by
  refine fun s e _ _ => ⟨trivial, le_of_numeros ?_⟩
  rcases e with _ | e
  · rfl
  rcases c with c | c
  · exact exec_numeros hc e s
  · show numeros (exec c s).2 b = _
    rw [numeros, savings_payments, numeros]

theorem sansInsertion_keeps {α : Type} {p : Req α} (hp : Prog.Uses (S := sig.faulty) SansInsertion p)
    (s : Db) : (numRely b).Keeps backend toujours p s fun _ _ => True :=
  (Rely.Keeps.of_uses (fun _ => sansInsertion_step) hp s).mono fun _ _ _ => trivial

theorem sansInsertion_ordinaire : Ordinaire SansInsertion :=
  ⟨rfl, fun _ => rfl, fun _ => trivial, fun _ _ _ => trivial⟩

/-- One plan: an error of the call, or of what follows it, is caught. -/
theorem traiterPlan_keeps (now : Time) (x : SavingsPlanId × SavingsPlan × Booking) (s : Db) :
    (numRely b).Keeps backend toujours (SavingsSchedulerService.traiterPlan now x) s
      fun _ _ => True := by
  obtain ⟨id, plan, booking⟩ := x
  rw [SavingsSchedulerService.traiterPlan]
  split
  · trivial
  · next deductAmount _ =>
    split
    · trivial
    · refine Rely.Keeps.tryCatch ((Rely.Keeps.bind ((app_keeps (initiate_keeps _ _ _ _ s)).mono ?_)).mono
        (Q := fun _ _ => True) ?_)
      · rintro (e | shape) s' -
        · trivial
        · exact sansInsertion_keeps (conclure_uses sansInsertion_ordinaire _ _ _ _ _) s'
      · rintro (e | u) s' - <;> trivial

theorem traiterPlans_keeps (now : Time) (l : List (SavingsPlanId × SavingsPlan × Booking)) (s : Db) :
    (numRely b).Keeps backend toujours (SavingsSchedulerService.traiterPlans now l) s
      fun _ _ => True := by
  induction l generalizing s with
  | nil => trivial
  | cons x l ih =>
    refine .bind ((traiterPlan_keeps now x s).mono ?_)
    rintro (e | u) s' -
    · trivial
    · exact ih s'

/-- The calls of `initiate`: by a pilgrim, and by the daily job. -/
def Initie : Request → Prop
  | .app (.initiatePayment _ _) | .job => True
  | _ => False

theorem handler_keeps {q : Request} (hq : Initie q) (s : Db) :
    (numRely b).Keeps backend toujours (handler q) s fun _ _ => True := by
  rcases q with q | _ | _
  · cases q
    case initiatePayment pilgrimId dto =>
      refine app_keeps (Rely.Keeps.void ?_)
      rw [PaymentsService.initiate_eq]
      exact initiate_keeps _ _ _ _ s
    all_goals exact hq.elim
  · exact hq.elim
  · refine .bind ((sansInsertion_keeps (app_uses (Prog.uses_exec sansInsertion_ordinaire.now)) s).mono ?_)
    rintro (e | now) s₁ -
    · trivial
    refine .bind ((sansInsertion_keeps (await_uses (sansInsertion_ordinaire.find now)) s₁).mono ?_)
    rintro (e | plans) s₂ -
    · trivial
    · exact traiterPlans_keeps now plans s₂

end Calls

/-! ## Schedules -/

section Schedules

variable {ι : Type} [DecidableEq ι] {b : BookingId} {c : Pool sig.faulty ι Db Erreur Unit} {t : ι}
  {e : Option Env}

/-- One step. -/
theorem numerote_step (h : Numerote c.st b) (hok : Rely.cond (Frais b) c.next c.st t e) :
    Numerote (Pool.step backend t e c).st b := by
  unfold Pool.step
  split
  · next q k hq =>
    have hn : c.next t = some q := by
      rw [Pool.next, hq]
      rfl
    rcases exec_cases (b := b) q e c.st with ⟨hsame, -⟩ | ⟨n, happend, hfrais⟩
    · rwa [Numerote, hsame]
    · rw [Numerote, happend, hfrais.mp (hok q hn)]
      exact perm_append h
  · exact h

/-- A payment with a number that is taken. -/
theorem defaut_step (hle : (numRely b).le c.st (Pool.step backend t e c).st)
    (hok : ¬ Rely.cond (Frais b) c.next c.st t e) :
    defaut (numeros c.st b) < defaut (numeros (Pool.step backend t e c).st b) := by
  refine lt_of_le_of_ne hle.2 fun heq => hok ?_
  intro q hn
  rcases hproc : c.procs t with a | x | ⟨q', k⟩
  · rw [Pool.next, hproc] at hn
    cases hn
  · rw [Pool.next, hproc] at hn
    cases hn
  · obtain rfl : q' = q := by
      rw [Pool.next, hproc] at hn
      exact Option.some.inj hn
    rcases exec_cases (b := b) q' e c.st with ⟨-, hfrais⟩ | ⟨n, happend, hfrais⟩
    · exact hfrais
    · have hstep : (Pool.step backend t e c).st = (backend.exec q' e c.st).2 := by
        unfold Pool.step
        rw [hproc]
      rw [hstep, happend, defaut_append] at heq
      exact hfrais.mpr (by omega)

/-- A pool whose handlers keep the order of the numbers. -/
theorem numerote_run (hall : (numRely b).KeepsAll backend toujours c) (h : Numerote c.st b)
    (sched : List (ι × Option Env)) : Numerote (Pool.run backend sched c).st b ↔
      Pool.Allowed backend (Rely.cond (Frais b)) c sched := by
  induction sched generalizing c with
  | nil => exact iff_of_true h trivial
  | cons x sched ih =>
    obtain ⟨hall', hle⟩ := hall.step (t := x.1) (e := x.2) fun _ _ => trivial
    by_cases hok : Rely.cond (Frais b) c.next c.st x.1 x.2
    · exact (ih hall' (numerote_step h hok)).trans (and_iff_right hok).symm
    · -- what the numbers lack now, they lack at the end
      refine iff_of_false (fun hend => ?_) fun hallowed => hok hallowed.1
      have hlt := defaut_step hle hok
      have hle' : defaut (numeros (Pool.step backend x.1 x.2 c).st b) ≤
          defaut (numeros (Pool.run backend sched (Pool.step backend x.1 x.2 c)).st b) :=
        (hall'.run sched).2
      have hzero := defaut_of_perm h
      have hend' : defaut (numeros (Pool.run backend sched (Pool.step backend x.1 x.2 c)).st b) = 0 :=
        defaut_of_perm hend
      omega

end Schedules

/-- The requests run at once, from the database `s`. -/
def poolOf {ι : Type} (requests : ι → Request) (s : Db) : Pool sig.faulty ι Db Erreur Unit :=
  ⟨fun t => handler (requests t), s⟩

/-- **Instalment numbers.** Payments of pilgrims and runs of the daily job go on at once. At the end of a
schedule the payments of the booking carry the numbers `1, …, n` if and only if each payment of the
booking was inserted while the count that its call took was current. -/
theorem numbered_iff {ι : Type} [DecidableEq ι] {requests : ι → Request} (hq : ∀ t, Initie (requests t))
    {s : Db} {b : BookingId} (hs : Numerote s b) (sched : List (ι × Option Env)) :
    Numerote (Pool.run backend sched (poolOf requests s)).st b ↔
      Pool.Allowed backend (Rely.cond (Frais b)) (poolOf requests s) sched :=
  numerote_run ⟨trivial, fun t => handler_keeps (hq t) s⟩ hs sched

/-! ## Schedules on fixed inputs -/

/-- A booking of 100 with a weekly plan that is due. -/
private def aPayer : Db :=
  { Db.exemple with
    bookings := [Booking.exemple]
    savingsPlans :=
      [{ bookingId := 0, targetAmount := 100, autoDeduct := true, deductAmount := some 10
         frequency := some "weekly", nextDeductDate := some 0 }] }

/-- The pilgrim pays, and the job runs. -/
private def payerPrelever : Fin 2 → Request
  | 0 => .app (.initiatePayment 0 .exemple)
  | 1 => .job

private theorem initie_payerPrelever (t : Fin 2) : Initie (payerPrelever t) := by
  match t with
  | 0 => trivial
  | 1 => trivial

/-- The requests take turns; the provider gives each its own reference. -/
private def tours (l : List Nat) : List (Fin 2 × Option Env) :=
  (turns l).map fun x => (x.1, some { reference := some (if x.1.val = 0 then "P1" else "P2") })

/-- The job runs after the payment. -/
theorem numbered_apres :
    Numerote (Pool.run backend (tours [0, 0, 0, 0, 1, 1, 1, 1, 1, 1, 1, 1]) (poolOf payerPrelever aPayer)).st
      0 := by
  refine (numbered_iff initie_payerPrelever ?_ _).mpr ?_
  · decide +kernel
  · decide +kernel

/-- The job runs between the count and the insertion of the payment. -/
theorem numbered_twice :
    ¬ ∀ (requests : Fin 2 → Request) (s : Db) (b : BookingId) (sched : List (Fin 2 × Option Env)),
      (∀ t, Initie (requests t)) → Numerote s b →
      (Pool.run backend sched (poolOf requests s)).Finished →
      Numerote (Pool.run backend sched (poolOf requests s)).st b := by
  intro h
  have hend := h payerPrelever aPayer 0 (tours [0, 0, 1, 1, 1, 1, 1, 1, 1, 1, 0, 0]) initie_payerPrelever
    (by decide +kernel) (by decide +kernel)
  revert hend
  decide +kernel

end OumraHajj.Savings
