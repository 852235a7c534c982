import OumraHajj.Spec.Packages

/-!
# Terminal statuses

`CANCELLED` and `COMPLETED` are terminal: the refund schedule pays nothing back on them and a
savings plan is refused. `maybeConfirm` does not know it. A run of `updateStep` and `markStepDone`
leaves a terminal booking as it is exactly as long as none of them completes its five steps
(`Db.Completes`); the one that does makes it `CONFIRMED`.
-/

namespace OumraHajj

open Async

namespace Db

/-- The status of a booking. -/
def statusOf (s : Db) (id : BookingId) : Option BookingStatus := (s.bookings[id]?).map (·.status)

variable {s s' : Db} {id id' : BookingId} {key : DossierStepKey} {status : DossierStepStatus}
  {st : BookingStatus}

theorem statusOf_eq_some : s.statusOf id = some st ↔ ∃ b, s.bookings[id]? = some b ∧ b.status = st := by
  rw [statusOf, Option.map_eq_some_iff]

/-- The update of a step writes the status of its own booking only. -/
theorem Stepped.statusOf_other (h : s.Stepped id' key status s') (hne : id' ≠ id) :
    s'.statusOf id = s.statusOf id := by
  rcases h.bookings_eq with ⟨-, hb⟩ | ⟨b, now, hb, hb'⟩
  · rw [statusOf, hb, statusOf]
  · rw [statusOf, hb', Table.get_set hb, if_neg hne, statusOf]

theorem Stepped.statusOf_self {b : Booking} (h : s.Stepped id key status s')
    (hb : s.bookings[id]? = some b) : s'.statusOf id =
      some (if (b.withStep key status 0).allDone then .confirmed else b.status) := by
  rcases h.bookings_eq with ⟨hn, -⟩ | ⟨b', now, hb', hs'⟩
  · rw [hn] at hb
    cases hb
  · rw [hb, Option.some.injEq] at hb'
    subst hb'
    rw [statusOf, hs', Table.get_set hb, if_pos rfl, Option.map_some, Booking.status_after_step]

end Db

/-- **Step.** A request confirms the booking if it completes its steps, and leaves its status
otherwise. -/
theorem stepRequest_statusOf {q : Request} (hq : q.IsStep) {s s' : Db} {r : Except Erreur Unit}
    {id : BookingId} {st : BookingStatus} (hst : s.statusOf id = some st)
    (hr : prisma.Runs (handler q) s r s') :
    (s.Completes q id → s'.statusOf id = some .confirmed) ∧
      (¬ s.Completes q id → s'.statusOf id = some st) := by
  obtain ⟨b, hb, rfl⟩ := Db.statusOf_eq_some.mp hst
  have hs := stepRequest_runs hq hr
  rcases ho : s.stepOf q with _ | ⟨id', key, status⟩
  · rw [ho] at hs
    refine ⟨?_, fun _ => hs ▸ hst⟩
    rintro ⟨_, _, _, ho', _⟩
    rw [ho] at ho'
    cases ho'
  · rw [ho] at hs
    by_cases hid : id' = id
    · subst hid
      have h' := Db.Stepped.statusOf_self hs hb
      constructor
      · rintro ⟨_, _, b', ho', hb', hd⟩
        rw [ho] at ho'
        cases ho'
        rw [hb, Option.some.injEq] at hb'
        subst hb'
        rw [h', if_pos hd]
      · intro hno
        rw [h', if_neg fun hd => hno ⟨key, status, b, ho, hb, hd⟩]
    · refine ⟨?_, fun _ => (Db.Stepped.statusOf_other hs hid).trans hst⟩
      rintro ⟨_, _, _, ho', _⟩
      rw [ho] at ho'
      cases ho'
      exact absurd rfl hid

/-- **Terminal statuses.** A booking that is `CANCELLED` or `COMPLETED` keeps its status through a
run of step updates if and only if none of them completes its steps. -/
theorem terminal_iff {s : Db} {id : BookingId} {st : BookingStatus} (hst : s.statusOf id = some st)
    (ht : st = .cancelled ∨ st = .completed) {tr : Trace Request Db} (hr : RunFrom s tr)
    (hq : ∀ x ∈ tr, x.1.IsStep) :
    (∀ x ∈ tr, x.2.statusOf id = some st) ↔
      Trace.Steps (fun s q _ => ¬ s.Completes q id) s tr := by
  rw [← Trace.steps_after (P := fun s => Db.statusOf s id = some st) (s := s)]
  refine hr.steps_iff (I := fun s => s.statusOf id = some st) (A := Request.IsStep) ?_ ?_ hq hst
  · intro s q r s' h ha hr hno
    have := (stepRequest_statusOf ha h hr).2 hno
    exact ⟨this, this⟩
  · intro s q r s' h ha hr hc hs'
    rw [(stepRequest_statusOf ha h hr).1 (not_not.mp hc), Option.some.injEq] at hs'
    rcases ht with rfl | rfl <;> cases hs'

/-- A booking that was cancelled, reached from a database without bookings. -/
def annulee : Db := Trace.last .exemple (runAll {} .exemple [.createBooking 0 0, .cancelBooking 0 0])

theorem terminal_iff_exemple :
    (∀ x ∈ runAll {} annulee [.markStepDone 0 .visa], x.2.statusOf 0 = some .cancelled) ↔
      Trace.Steps (fun s q _ => ¬ s.Completes q 0) annulee
        (runAll {} annulee [.markStepDone 0 .visa]) :=
  terminal_iff rfl (.inl rfl) (Backend.evalAll_run _ _ _)
    (by simp [runAll, Backend.evalAll, Request.IsStep])

/-- The five steps of the cancelled booking are completed one after the other. -/
theorem terminal_left :
    ¬ ∀ s id st tr, (∃ tr₀, RunFrom .exemple tr₀ ∧ Trace.last .exemple tr₀ = s) →
      s.statusOf id = some st → (st = .cancelled ∨ st = .completed) → RunFrom s tr →
      (∀ x ∈ tr, x.1.IsStep) → ∀ x ∈ tr, x.2.statusOf id = some st := by
  intro h
  have := h annulee 0 .cancelled (runAll {} annulee (defaultSteps.map (.markStepDone 0)))
    ⟨_, Backend.evalAll_run _ _ _, rfl⟩ rfl (.inl rfl) (Backend.evalAll_run _ _ _)
    (by simp [runAll, Backend.evalAll, defaultSteps, Request.IsStep])
  revert this
  decide

end OumraHajj
