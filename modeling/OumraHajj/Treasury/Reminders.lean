import OumraHajj.Common.Calendar
import OumraHajj.Ledger.Balance

/-!
# The reminders of a balance

`sendPreventiveReminders` looks for departures by their instant and picks the days of a reminder by
the calendar. The window has every departure that the calendar picks (`fenetre_of_jours`), so over
executions on different days, at any hour, an unpaid booking gets one reminder on each of the days
14, 7 and 1 before the day of its due date, and none on other days (`reminders_exact`).
-/

namespace OumraHajj

open Async

/-- An execution of the reminders, with the database before and after it. -/
structure Passage where
  now : Time
  avant : Db
  apres : Db
  runs : ∃ r, prisma.Runs (PaymentRemindersService.sendPreventiveReminders now) avant r apres

/-- The day of an execution. -/
def Passage.jour (x : Passage) : Int := jourDe x.now

/-- The bookings that are reminded, in the order of their reminders. -/
def Passage.relances (x : Passage) : List CollectedRow :=
  (x.avant.reminderRows x.now).filter (PaymentRemindersService.aRelancer x.now)

/-- The reminders of a booking on a day. -/
def rappels (passages : List Passage) (id : BookingId) (jour : Int) : Nat :=
  ((passages.filter (·.jour = jour)).flatMap Passage.relances).countP (·.id = id)

/-- The days from a day to the one on which the balance is due. -/
def joursAvant (departure : Time) (jour : Int) : Int := jourDe (balanceDueDate departure) - jour

/-- The statuses that the reminders look at. -/
def active (b : Booking) : Bool := b.status = .pendingPayment ∨ b.status = .confirmed

/-- The booking is active, and the balance of its departure is not paid. -/
def Impayee (s : Db) (id : BookingId) (departure : Time) : Prop :=
  ∃ b p, s.bookings[id]? = some b ∧ s.packages[b.packageId]? = some p ∧ p.startDate = departure ∧
    active b = true ∧ 0 < (s.collectedRow id b p).reminderBalance

/-! ## The window -/

theorem mem_offsets {n : Int} (h : n ∈ balanceReminderOffsetsDays) : 1 ≤ n ∧ n ≤ 14 := by
  simp only [balanceReminderOffsetsDays, List.mem_cons, List.not_mem_nil, or_false] at h
  omega

/-- **The window has the days.** -/
theorem fenetre_of_jours {now departure : Time}
    (h : daysBetween now (balanceDueDate departure) ∈ balanceReminderOffsetsDays) :
    addDays now balanceDueDaysBeforeDeparture ≤ departure ∧
      departure < addDays (addDays now balanceDueDaysBeforeDeparture) (14 + 1) := by
  obtain ⟨hpos, hle⟩ := mem_offsets h
  have hdeparture : departure = addDays (balanceDueDate departure) balanceDueDaysBeforeDeparture := by
    rw [balanceDueDate, addDays_addDays, Int.add_left_neg, addDays_zero]
  generalize balanceDueDate departure = dueDate at hpos hle hdeparture
  unfold daysBetween at hpos hle
  have hafter : now < dueDate := lt_of_jourDe_lt (by omega)
  have hbefore : dueDate < addDays now (14 + 1) := by
    refine lt_of_jourDe_lt ?_
    rw [jourDe_addDays]
    omega
  rw [hdeparture]
  refine ⟨(addDays_lt hafter _).le, ?_⟩
  rw [addDays_addDays, add_comm, ← addDays_addDays]
  exact addDays_lt hbefore _

/-- What the days pick is not left out by the window. -/
theorem mem_reminderRows {s : Db} {now : Time} {row : CollectedRow}
    (hrow : row ∈ s.collectedRows fun b _ => active b)
    (h : daysBetween now (balanceDueDate row.package.startDate) ∈ balanceReminderOffsetsDays) :
    row ∈ s.reminderRows now := by
  obtain ⟨id, b, p, hb, hp, hactive, rfl⟩ := Db.mem_collectedRows.mp hrow
  unfold Db.reminderRows
  refine Db.mem_collectedRows.mpr ⟨id, b, p, hb, hp, ?_, rfl⟩
  exact decide_eq_true ⟨of_decide_eq_true hactive, fenetre_of_jours h⟩

/-! ## The reminders of an execution -/

/-- A booking is read once. -/
theorem Db.countP_collectedRows {s : Db} {id : BookingId} {b : Booking} {p : Package}
    (hb : s.bookings[id]? = some b) (hp : s.packages[b.packageId]? = some p)
    (P : Booking → Package → Bool) (Q : CollectedRow → Bool) :
    ((s.collectedRows P).filter Q).countP (·.id = id) =
      if P b p = true ∧ Q (s.collectedRow id b p) = true then 1 else 0 := by
  rw [List.countP_filter, Db.collectedRows, List.countP_filterMap, Table.countP_withIds hb]
  · simp only [hp]
    by_cases hP : P b p = true
    · simp [hP, Db.collectedRow]
    · simp [hP]
  · rintro ⟨j, c⟩ hc
    dsimp only at hc
    split at hc
    · split at hc
      · rw [Option.map_some, Option.getD_some, Bool.and_eq_true, decide_eq_true_eq] at hc
        exact hc.1
      · cases hc
    · cases hc

section Passage

variable {x : Passage} {id : BookingId} {departure : Time}

/-- An unpaid booking is reminded once in an execution, on the days of a reminder. -/
theorem relances_countP (h : Impayee x.avant id departure) :
    x.relances.countP (·.id = id) =
      if joursAvant departure x.jour ∈ balanceReminderOffsetsDays then 1 else 0 := by
  obtain ⟨b, p, hb, hp, rfl, hactive, hbalance⟩ := h
  unfold Passage.relances Db.reminderRows
  rw [Db.countP_collectedRows hb hp]
  refine if_congr ?_ rfl rfl
  rw [PaymentRemindersService.aRelancer, decide_eq_true_eq, decide_eq_true_eq]
  constructor
  · rintro ⟨-, hday, -⟩
    exact hday
  · intro hday
    exact ⟨⟨of_decide_eq_true hactive, fenetre_of_jours hday⟩, hday, not_le.mpr hbalance⟩

/-- The reminders that an execution sends. -/
theorem Passage.notifications (x : Passage) :
    x.apres.notifications = x.avant.notifications ++ x.relances.map reminder := by
  obtain ⟨r, h⟩ := x.runs
  exact sendPreventiveReminders_runs h

end Passage

/-! ## The reminders of a sequence -/

/-- Of executions on different days, one at most is of a day. -/
theorem filter_jour {passages : List Passage} (hdays : (passages.map Passage.jour).Nodup) (jour : Int) :
    passages.filter (·.jour = jour) = [] ∧ jour ∉ passages.map Passage.jour ∨
      ∃ x ∈ passages, x.jour = jour ∧ passages.filter (·.jour = jour) = [x] := by
  induction passages with
  | nil => exact .inl ⟨rfl, List.not_mem_nil⟩
  | cons x passages ih =>
    obtain ⟨hx, hdays⟩ := List.nodup_cons.mp hdays
    by_cases hj : x.jour = jour
    · have hnone : passages.filter (·.jour = jour) = [] := by
        refine List.filter_eq_nil_iff.mpr fun y hy hyj => hx ?_
        rw [hj, ← of_decide_eq_true hyj]
        exact List.mem_map_of_mem hy
      refine .inr ⟨x, List.mem_cons_self, hj, ?_⟩
      rw [List.filter_cons_of_pos (by simpa using hj), hnone]
    · rw [List.filter_cons_of_neg (by simpa using hj)]
      rcases ih hdays with ⟨hnil, hnot⟩ | ⟨y, hy, hyj, hone⟩
      · refine .inl ⟨hnil, ?_⟩
        rw [List.map_cons, List.mem_cons, not_or]
        exact ⟨Ne.symm hj, hnot⟩
      · exact .inr ⟨y, List.mem_cons_of_mem _ hy, hyj, hone⟩

/-- **No reminder is missed or repeated.** Over executions on different days, each at any hour, a
booking that stays active with an unpaid balance is reminded once on each of the days 14, 7 and 1
before the day of its due date that has an execution, and not on other days. The reminders are the
notifications that each execution adds, and its window leaves out no active booking that its day
picks. -/
theorem reminders_exact {passages : List Passage} (hdays : (passages.map Passage.jour).Nodup) :
    (∀ id departure, (∀ x ∈ passages, Impayee x.avant id departure) → ∀ jour,
      rappels passages id jour =
        if jour ∈ passages.map Passage.jour ∧ joursAvant departure jour ∈ ([14, 7, 1] : List Int)
          then 1 else 0) ∧
      ∀ x ∈ passages,
        x.apres.notifications = x.avant.notifications ++ x.relances.map reminder ∧
          ∀ row ∈ x.avant.collectedRows fun b _ => active b,
            joursAvant row.package.startDate x.jour ∈ ([14, 7, 1] : List Int) →
              row ∈ x.avant.reminderRows x.now := by
  refine ⟨fun id departure hid jour => ?_,
    fun x _ => ⟨x.notifications, fun row hrow hday => mem_reminderRows hrow hday⟩⟩
  unfold rappels
  rcases filter_jour hdays jour with ⟨hnil, hnot⟩ | ⟨x, hx, rfl, hone⟩
  · rw [hnil, if_neg fun h => hnot h.1]
    rfl
  · rw [hone, List.flatMap_singleton, relances_countP (hid x hx)]
    exact if_congr (and_iff_right (List.mem_map_of_mem hx)).symm rfl rfl

/-- A booking of a departure on day 44 is not paid. -/
def Db.departJour44 : Db :=
  { Db.exemple with
    packages := [{ agencyId := 0, type := .oumra, title := "Oumra", startDate := minuit 44, endDate := 0
                   price := 100, capacity := 1 }]
    bookings := [Booking.exemple] }

/-- The reminders of the day, at half past eight. -/
def Passage.matin (s : Db) (jour : Int) : Passage where
  now := minuit jour + 30600000
  avant := s
  apres := _
  runs := ⟨_, Backend.eval_runs {} _ _⟩

/-- Its due date is day 14: it is reminded on day 0 and not on day 1. -/
theorem reminders_exact_jour44 :
    let passages := [Passage.matin .departJour44 0, Passage.matin .departJour44 1]
    rappels passages 0 0 = 1 ∧ rappels passages 0 1 = 0 := by
  intro passages
  have hdays : (passages.map Passage.jour).Nodup := by decide +kernel
  have hid : ∀ x ∈ passages, Impayee x.avant 0 (minuit 44) := by
    have havant : ∀ x ∈ passages, x.avant = .departJour44 := by simp [passages, Passage.matin]
    intro x hx
    rw [havant x hx]
    exact ⟨_, _, rfl, rfl, rfl, by decide, by decide +kernel⟩
  have hexact := (reminders_exact hdays).1 0 (minuit 44) hid
  exact ⟨(hexact 0).trans (by decide +kernel), (hexact 1).trans (by decide +kernel)⟩

end OumraHajj
