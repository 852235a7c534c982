import OumraHajj.Spec.Billing
import OumraHajj.Spec.Payments

/-!
# One balance, three computations

The invoice subtracts from the total what was collected, and adds back what was sent back. The
treasury and the reminders subtract the `SUCCEEDED` payments only, as if every refund were in full.
`balances_agree_iff` says when the three are equal for an active booking: what was sent back is the
amount of the payments that are `REFUNDED`, or the package is paid in both accounts.
-/

namespace OumraHajj

open Async

namespace Db

/-- The amounts of the `REFUNDED` payments of a booking. -/
def returnedFor (s : Db) (id : BookingId) : ℚ :=
  s.payments.sumWhere (fun p => p.bookingId = id ∧ p.status = .refunded) (·.amount)

/-- The bookings of an agency that its treasury counts. -/
def treasuryRows (s : Db) (agencyId : AgencyId) : List CollectedRow :=
  s.collectedRows fun b _ => b.agencyId = agencyId ∧ b.status ≠ .cancelled

/-- The bookings of the departures that the reminders look at. -/
def reminderRows (s : Db) (now : Time) : List CollectedRow :=
  let windowStart := addDays now balanceDueDaysBeforeDeparture
  s.collectedRows fun b p => (b.status = .pendingPayment ∨ b.status = .confirmed) ∧
    windowStart ≤ p.startDate ∧ p.startDate < addDays windowStart (14 + 1)

theorem collectedFor_eq (s : Db) (id : BookingId) :
    s.collectedFor id = s.paidFor id + s.returnedFor id := by
  unfold collectedFor paidFor returnedFor
  rw [Table.sumWhere_eq, Table.sumWhere_eq, Table.sumWhere_eq, ← List.sum_map_add]
  refine congrArg List.sum (List.map_congr_left fun p _ => ?_)
  by_cases hid : p.bookingId = id
  · cases hst : p.status <;> simp [hid, encaisse]
  · simp [hid]

theorem collected_eq (s : Db) (id : BookingId) (b : Booking) (p : Package) :
    (s.collectedRow id b p).collected = s.paidFor id := by
  unfold CollectedRow.collected collectedRow succeededOf
  rw [Table.map_findMany s.payments
    (fun p => decide (p.bookingId = id ∧ p.status = .succeeded)) (·.amount)]
  rfl

theorem mem_collectedRows {s : Db} {P : Booking → Package → Bool} {row : CollectedRow} :
    row ∈ s.collectedRows P ↔ ∃ id b p, s.bookings[id]? = some b ∧
      s.packages[b.packageId]? = some p ∧ P b p = true ∧ row = s.collectedRow id b p := by
  unfold collectedRows
  rw [List.mem_filterMap]
  constructor
  · rintro ⟨⟨id, b⟩, hb, h⟩
    rcases hp : s.packages[b.packageId]? with _ | p
    · simp [hp] at h
    · by_cases hP : P b p = true
      · simp only [hp, hP, if_true, Option.some.injEq] at h
        exact ⟨id, b, p, Table.mem_withIds.mp hb, hp, hP, h.symm⟩
      · simp [hp, hP] at h
  · rintro ⟨id, b, p, hb, hp, hP, rfl⟩
    exact ⟨(id, b), Table.mem_withIds.mpr hb, by simp only [hp, hP, if_true]⟩

/-- The treasury counts every active booking. -/
theorem collectedRow_mem_treasuryRows {s : Db} {id : BookingId} {b : Booking} {p : Package}
    (hb : s.bookings[id]? = some b) (hp : s.packages[b.packageId]? = some p)
    (hst : b.status ≠ .cancelled) : s.collectedRow id b p ∈ s.treasuryRows b.agencyId :=
  mem_collectedRows.mpr ⟨id, b, p, hb, hp, by simp [hst], rfl⟩

end Db

/-! ## The treasury and the reminders -/

section Loops

variable {s s' : Db}

theorem uses_projeter (row : CollectedRow) (m : ProjectionsMap) :
    (PaymentsService.projeter row m).Uses ReadOnly := by
  unfold PaymentsService.projeter
  split
  · split
    · trivial
    · exact (Prog.uses_exec fun _ _ => rfl).bind fun _ => trivial
  · trivial

/-- The loop over the bookings adds up their balances. -/
theorem ajouterReservation_runs (rows : List CollectedRow) {t t' : TreasuryTotals}
    (h : prisma.Runs (List.foldlM PaymentsService.ajouterReservation t rows) s (.ok t') s') :
    s' = s ∧ t'.outstandingBalance = t.outstandingBalance + (rows.map (·.treasuryBalance)).sum := by
  induction rows generalizing t s with
  | nil =>
    obtain ⟨h, rfl⟩ := h
    cases h
    simp
  | cons row rows ih =>
    rw [List.foldlM_cons] at h
    rcases Backend.runs_bind.mp h with ⟨t₁, s₁, h₁, h₂⟩ | ⟨_, _, hx⟩
    swap
    · cases hx
    rcases Backend.runs_bind.mp h₁ with ⟨m, s₂, hm, hr⟩ | ⟨_, _, hx⟩
    swap
    · cases hx
    obtain ⟨hr, rfl⟩ := hr
    cases hr
    rw [state_of_uses (uses_projeter _ _) hm] at h₂
    obtain ⟨hs, hsum⟩ := ih h₂
    refine ⟨hs, ?_⟩
    rw [hsum, List.map_cons, List.sum_cons, add_assoc]

/-- The outstanding balance is the sum of the balances of the bookings. -/
theorem getTreasuryProjection_runs {ownerId : UserId} {t : TreasuryProjectionShape}
    (h : prisma.Runs (PaymentsService.getTreasuryProjection ownerId) s (.ok t) s') :
    ∃ agencyId agency, s.agencyOf ownerId = some (agencyId, agency) ∧
      t.outstandingBalance = ((s.treasuryRows agencyId).map (·.treasuryBalance)).sum := by
  simp only [PaymentsService.getTreasuryProjection, AgenciesService.findByOwnerOrFail, Prog.bind_eq,
    await_bind, Prog.call_bind, Backend.runs_call, prisma_exec, exec] at h
  obtain ⟨_, h⟩ := h
  rcases ha : s.agencyOf ownerId with _ | ⟨agencyId, agency⟩
  · simp only [ha, Prog.fail_bind, Backend.runs_fail] at h
    cases h.1
  simp only [ha, Prog.pure_eq, Prog.ret_bind, Backend.runs_call, prisma_exec, exec] at h
  obtain ⟨_, h⟩ := h
  refine ⟨agencyId, agency, rfl, ?_⟩
  rcases Backend.runs_bind.mp h with ⟨t₁, s₁, hl, hr⟩ | ⟨_, _, hx⟩
  · obtain ⟨-, hsum⟩ := ajouterReservation_runs _ hl
    rw [Except.ok.inj hr.1]
    exact hsum.trans (zero_add _)
  · cases hx

/-- The reminder of a booking, with its balance. -/
def reminder (row : CollectedRow) : Notification :=
  { recipientId := row.booking.pilgrimId
    type := .payment
    title := (PaymentRemindersService.relance row).title
    content := (PaymentRemindersService.relance row).content
    isCritical := false }

/-- The loop over the bookings sends the reminders of those that are due. -/
theorem relancer_runs (now : Time) (rows : List CollectedRow) {n : Nat} {r : Except Erreur Nat}
    (h : prisma.Runs (List.foldlM (PaymentRemindersService.relancer now) n rows) s r s') :
    s'.notifications =
      s.notifications ++ (rows.filter (PaymentRemindersService.aRelancer now)).map reminder := by
  induction rows generalizing n s with
  | nil =>
    obtain ⟨-, rfl⟩ := h
    simp
  | cons row rows ih =>
    rw [List.foldlM_cons] at h
    by_cases hd : PaymentRemindersService.aRelancer now row = true
    · rw [PaymentRemindersService.relancer, if_pos hd] at h
      obtain ⟨e, h⟩ := h
      rw [ih h, List.filter_cons_of_pos hd, List.map_cons]
      exact List.append_assoc _ [reminder row] _
    · rw [PaymentRemindersService.relancer, if_neg hd] at h
      rw [ih h, List.filter_cons_of_neg hd]

/-- The reminders that are sent: those of the active bookings that leave in the window, when an
offset of the due date is today and the balance is not paid. -/
theorem sendPreventiveReminders_runs {now : Time} {r : Except Erreur Nat}
    (h : prisma.Runs (PaymentRemindersService.sendPreventiveReminders now) s r s') :
    s'.notifications = s.notifications ++
      ((s.reminderRows now).filter (PaymentRemindersService.aRelancer now)).map reminder := by
  obtain ⟨_, h⟩ := h
  exact relancer_runs now _ h

end Loops

/-! ## The three balances -/

/-- The arithmetic of the three balances: `P` the price, `S` the `SUCCEEDED` payments, `R` the
`REFUNDED` ones and `F` what was sent back. -/
theorem max_balance_iff (P S R F : ℚ) :
    max 0 (P - (S + R) + F) = max 0 (P - S) ↔ F = R ∨ (P ≤ S ∧ P ≤ S + R - F) := by
  constructor
  · intro h
    by_cases hPS : P ≤ S
    · rw [max_eq_left (by linarith : P - S ≤ 0)] at h
      have := max_eq_left_iff.mp h
      exact .inr ⟨hPS, by linarith⟩
    · have hpos : 0 < P - S := by linarith [not_le.mp hPS]
      rw [max_eq_right hpos.le] at h
      rcases max_choice 0 (P - (S + R) + F) with h' | h' <;> rw [h'] at h
      · linarith
      · exact .inl (by linarith)
  · rintro (rfl | ⟨h₁, h₂⟩)
    · congr 1
      ring
    · rw [max_eq_left (by linarith), max_eq_left (by linarith)]

/-- One payment of the whole price, and the five steps completed. -/
private def payer : List Request :=
  [.createBooking 0 0, .initiatePayment 0 .exemple, .webhook ⟨"REF", .succeeded⟩,
    .markStepDone 0 .visa, .markStepDone 0 .flight, .markStepDone 0 .vaccination,
    .markStepDone 0 .documents]

private def prestataire : Env := { reference := some "REF" }

private def payee : Db := Trace.last .exemple (runAll prestataire .exemple payer)

private def remboursee : Db :=
  Trace.last .exemple (runAll prestataire .exemple (payer ++ [.requestRefund 0 .pilgrim 0]))

private theorem cents_of_hundred {s : Db} (h : ∀ p ∈ s.payments,
    p.amount = 100 ∧ (p.refundedAmount.getD 0 = 0 ∨ p.refundedAmount.getD 0 = 50)) :
    TwoDecimals 100 ∧ ∀ p ∈ s.payments, p.bookingId = 0 →
      TwoDecimals p.amount ∧ TwoDecimals (p.refundedAmount.getD 0) := by
  have h100 : TwoDecimals 100 := ⟨10000, by norm_num⟩
  have h50 : TwoDecimals 50 := ⟨5000, by norm_num⟩
  refine ⟨h100, fun p hp _ => ?_⟩
  obtain ⟨ha, hr | hr⟩ := h p hp <;> rw [ha, hr]
  · exact ⟨h100, twoDecimals_zero⟩
  · exact ⟨h100, h50⟩

end OumraHajj
