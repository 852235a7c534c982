import OumraHajj.Spec.Bookings

/-!
# The confirmation under concurrency

Updates of the steps of one booking run at once. `maybeConfirm` reads the booking, tests that it is
not `CONFIRMED`, writes `CONFIRMED`, notifies and generates the standard checklist, so two requests
that complete the dossier can both find it not confirmed. `FirstConfirmation` is the condition on a
step under which they do not, and `confirmed_once` the result: under every schedule of such steps the
confirmation is notified at most once and each item of the checklist generated at most once.

**Ghost values** (`Ph`): a request that has written `CONFIRMED` and not notified yet (`confirming`),
and one that has notified and not generated the checklist yet (`listing`). **Invariant**
(`OnceInv`): what was sent, what such requests will send and what a booking that is not `CONFIRMED`
will still have sent add up to one at most.
-/

namespace OumraHajj

open Async

namespace Db

/-- The critical notifications of a confirmation. -/
def noticesSent (s : Db) : Nat :=
  s.notifications.countP fun n => n.isCritical ∧ n.title = BookingsService.titreConfirme

/-- The items of the checklist of a booking with this title. -/
def itemsOf (s : Db) (id : BookingId) (title : String) : Nat :=
  s.checklistItems.countP fun i => i.bookingId = id ∧ i.title = title

/-- The confirmation that a booking that is not `CONFIRMED` may still have. -/
def unconfirmed (s : Db) (id : BookingId) : Nat :=
  if (s.bookings[id]?).any (·.status = .confirmed) then 0 else 1

end Db

namespace Once

/-- How far a request has come (module doc). -/
inductive Ph where
  | outside
  | confirming
  | listing

/-- The notifications that a request will send. -/
def Ph.notices : Ph → Nat
  | .confirming => 1
  | _ => 0

/-- The checklists that a request will generate. -/
def Ph.lists : Ph → Nat
  | .outside => 0
  | _ => 1

/-- The updates of the steps of a booking. -/
def OnSteps (id : BookingId) : Request → Prop
  | .updateStep _ id' _ _ => id' = id
  | .markStepDone id' _ => id' = id
  | _ => False

variable {ι : Type} [DecidableEq ι] [Fintype ι] {id : BookingId} {s s₀ : Db} {γ : ι → Ph} {t : ι}

structure OnceInv (id : BookingId) (s₀ : Db) (γ : ι → Ph) (s : Db) : Prop where
  notices : s.noticesSent + ∑ u, (γ u).notices + s.unconfirmed id ≤ s₀.noticesSent + 1
  items : ∀ title,
    s.itemsOf id title + ∑ u, (γ u).lists + s.unconfirmed id ≤ s₀.itemsOf id title + 1

/-- The statement confirms the booking. -/
def confirms (id : BookingId) : Stmt → Bool
  | .bookingUpdate id' .confirmed => id' = id
  | _ => false

/-- A request that writes `CONFIRMED` finds the booking not `CONFIRMED` yet. -/
def FirstConfirmation (id : BookingId) : Pool.Cond prismaSig ι Db Env :=
  fun next s t _ => (next t).any (confirms id) = true →
    ∀ b ∈ s.bookings[id]?, b.status ≠ .confirmed

instance (id : BookingId) (next : ι → Option Stmt) (s : Db) (t : ι) (e : Env) :
    Decidable (FirstConfirmation id next s t e) :=
  inferInstanceAs (Decidable (_ → ∀ _ ∈ _, _))

/-! ## What each statement does to the invariant -/

/-- The statement sends no confirmation. -/
def Calm (id : BookingId) (c : Stmt) : Prop :=
  ∀ e s, (exec c e s).2.noticesSent = s.noticesSent ∧
    (exec c e s).2.unconfirmed id = s.unconfirmed id ∧
    ∀ title, (exec c e s).2.itemsOf id title = s.itemsOf id title

namespace OnceInv

omit [DecidableEq ι] in
theorem calm {c : Stmt} (hc : Calm id c) (e : Env) (h : OnceInv id s₀ γ s) :
    OnceInv id s₀ γ (exec c e s).2 := by
  obtain ⟨hn, hu, hi⟩ := hc e s
  refine ⟨?_, fun title => ?_⟩
  · rw [hn, hu]
    exact h.notices
  · rw [hi, hu]
    exact h.items title

/-- The ghost value stays as it is. -/
theorem keep (h : OnceInv id s₀ γ s) {g : Ph} (ht : γ t = g) :
    OnceInv id s₀ (Function.update γ t g) s := by
  rw [← ht, Function.update_eq_self]
  exact h

/-- The booking is confirmed. -/
theorem confirm (h : OnceInv id s₀ γ s) (ht : γ t = .outside) {b : Booking}
    (hb : s.bookings[id]? = some b) (hst : b.status ≠ .confirmed) :
    OnceInv id s₀ (Function.update γ t .confirming)
      (s.putBooking id { b with status := .confirmed }) := by
  have hbefore : s.unconfirmed id = 1 := by
    unfold Db.unconfirmed
    simp [hb, hst]
  have hafter : (s.putBooking id { b with status := .confirmed }).unconfirmed id = 0 := by
    unfold Db.unconfirmed
    rw [Db.putBooking_get hb]
    rfl
  have hnotices := Proto.sum_update Ph.notices γ t .confirming
  have hlists := Proto.sum_update Ph.lists γ t .confirming
  rw [ht] at hnotices hlists
  refine ⟨?_, fun title => ?_⟩
  · have := h.notices
    have hsame : (s.putBooking id { b with status := .confirmed }).noticesSent = s.noticesSent := rfl
    change _ + 0 = _ + 1 at hnotices
    omega
  · have := h.items title
    have hsame : (s.putBooking id { b with status := .confirmed }).itemsOf id title =
      s.itemsOf id title := rfl
    change _ + 0 = _ + 1 at hlists
    omega

/-- The confirmation is notified. -/
theorem notify (h : OnceInv id s₀ γ s) (ht : γ t = .confirming) (n : Notification) :
    OnceInv id s₀ (Function.update γ t .listing) { s with notifications := s.notifications ++ [n] } := by
  have hnotices := Proto.sum_update Ph.notices γ t .listing
  have hlists := Proto.sum_update Ph.lists γ t .listing
  rw [ht] at hnotices hlists
  refine ⟨?_, fun title => ?_⟩
  · have := h.notices
    have hone : Db.noticesSent { s with notifications := s.notifications ++ [n] } ≤
        s.noticesSent + 1 := by
      unfold Db.noticesSent
      rw [List.countP_append]
      exact Nat.add_le_add_left List.countP_le_length _
    change _ + 1 = _ + 0 at hnotices
    have hsame : Db.unconfirmed { s with notifications := s.notifications ++ [n] } id =
      s.unconfirmed id := rfl
    omega
  · have := h.items title
    change _ + 1 = _ + 1 at hlists
    have hsum : ∑ u, (Function.update γ t .listing u).lists = ∑ u, (γ u).lists := by omega
    rw [hsum]
    exact this

/-- The titles of the standard checklist are distinct. -/
theorem countP_standardItems_le (id : BookingId) (departure : Time) (title : String) :
    (ChecklistService.standardItems id departure).countP
      (fun i => i.bookingId = id ∧ i.title = title) ≤ 1 := by
  have hnodup : ((ChecklistService.standardItems id departure).map (·.title)).Nodup := by
    simp only [ChecklistService.standardItems, List.map_cons, List.map_nil]
    decide
  have hcount := List.nodup_iff_count_le_one.mp hnodup title
  rw [List.count_eq_countP, List.countP_map] at hcount
  refine le_trans (List.countP_mono_left fun i _ hi => ?_) hcount
  simpa using (of_decide_eq_true hi).2

/-- The checklist is generated. -/
theorem list (h : OnceInv id s₀ γ s) (ht : γ t = .listing) (departure : Time) :
    OnceInv id s₀ (Function.update γ t .outside)
      { s with checklistItems := s.checklistItems ++ ChecklistService.standardItems id departure } := by
  have hnotices := Proto.sum_update Ph.notices γ t .outside
  have hlists := Proto.sum_update Ph.lists γ t .outside
  rw [ht] at hnotices hlists
  refine ⟨?_, fun title => ?_⟩
  · have := h.notices
    change _ + 0 = _ + 0 at hnotices
    have hsum : ∑ u, (Function.update γ t .outside u).notices = ∑ u, (γ u).notices := by omega
    rw [hsum]
    exact this
  · have := h.items title
    have hone : Db.itemsOf { s with
        checklistItems := s.checklistItems ++ ChecklistService.standardItems id departure } id title ≤
        s.itemsOf id title + 1 := by
      unfold Db.itemsOf
      rw [List.countP_append]
      exact Nat.add_le_add_left (countP_standardItems_le id departure title) _
    have hsame : Db.unconfirmed { s with
        checklistItems := s.checklistItems ++ ChecklistService.standardItems id departure } id =
      s.unconfirmed id := rfl
    change _ + 1 = _ + 0 at hlists
    omega

end OnceInv

/-! ## The requests keep the protocol -/

section Requests

variable {g : Ph}

/-- The protocol of the requests. -/
abbrev proto (ι : Type) [Fintype ι] (id : BookingId) (s₀ : Db) : Proto prismaSig ι Db where
  Gh := Ph
  inv := OnceInv id s₀
  place _ _ := True

/-- Nothing is asked of how a request ends. -/
abbrev Ends {α : Type} (_ : Except Erreur α) (_ : Ph) : Prop := True

/-- A handler that sends no confirmation. -/
theorem calm_safe {α : Type} {p : Req α} (hp : p.Uses (Calm id)) :
    (proto ι id s₀).Safe prisma (FirstConfirmation id) t p Ends g :=
  Proto.safe_uses (P := proto ι id s₀) (fun _ _ => trivial)
    (fun _ hc _ _ e hi _ => OnceInv.calm hc e hi) hp fun _ => trivial

/-- A statement that sends no confirmation. -/
theorem safe_calm {α : Type} {c : Stmt} {k : c.Resp → Req α} {Q : Except Erreur α → Ph → Prop}
    (hc : Calm id c)
    (hk : ∀ r, (proto ι id s₀).Safe prisma (FirstConfirmation id) t (k r) Q g) :
    (proto ι id s₀).Safe prisma (FirstConfirmation id) t (.call c k) Q g :=
  Proto.safe_call (P := proto ι id s₀) trivial (fun _ _ e hi _ => OnceInv.calm hc e hi)
    fun _ _ _ _ _ => hk _

theorem calm_of_same {c : Stmt} (h : ∀ e s, (exec c e s).2.notifications = s.notifications ∧
    (exec c e s).2.checklistItems = s.checklistItems ∧ (exec c e s).2.bookings = s.bookings) :
    Calm id c := by
  intro e s
  obtain ⟨hn, hi, hb⟩ := h e s
  unfold Db.noticesSent Db.unconfirmed Db.itemsOf
  rw [hn, hi, hb]
  exact ⟨rfl, rfl, fun _ => rfl⟩

theorem calm_bookingStepUpdate (key : DossierStepKey) (status : DossierStepStatus) :
    Calm id (.bookingStepUpdate id key status) := by
  intro e s
  rcases hb : s.bookings[id]? with _ | b
  · simp [exec, hb]
  · rw [exec_bookingStepUpdate hb]
    refine ⟨rfl, ?_, fun _ => rfl⟩
    unfold Db.unconfirmed
    rw [hb, Db.putBooking_get hb]
    rfl

theorem uses_notifyFamily_calm (pilgrimId : UserId) (content : Texte) :
    (notifyFamily pilgrimId content).Uses (Calm id) :=
  uses_notifyFamily (fun _ => calm_of_same fun _ _ => ⟨rfl, rfl, rfl⟩)
    (fun _ _ => calm_of_same fun _ _ => ⟨rfl, rfl, rfl⟩) _ _

theorem uses_notifyStepDone_calm (booking : BookingShape) (key : DossierStepKey) :
    (BookingsService.notifyStepDone booking key).Uses (Calm id) := by
  refine ⟨fun e s => ⟨?_, rfl, fun _ => rfl⟩, fun _ => uses_notifyFamily_calm _ _⟩
  simp [exec, Db.noticesSent]

theorem notifyConfirmed_safe (booking : BookingShape) :
    (proto ι id s₀).Safe prisma (FirstConfirmation id) t (BookingsService.notifyConfirmed booking)
      (fun _ g => g = .listing) .confirming := by
  refine ⟨trivial, fun γ next s e hi hg _ _ _ => ⟨.listing, hi.notify hg _, ?_⟩⟩
  refine Proto.safe_uses (P := proto ι id s₀) (fun _ _ => trivial)
    (fun _ hc _ _ e hi _ => OnceInv.calm hc e hi) (uses_notifyFamily_calm _ _) fun _ => rfl

theorem generateStandardChecklist_safe :
    (proto ι id s₀).Safe prisma (FirstConfirmation id) t
      (ChecklistService.generateStandardChecklist id) Ends .listing := by
  refine safe_calm (calm_of_same fun _ _ => ⟨rfl, rfl, rfl⟩) fun r => ?_
  rcases r with _ | ⟨b, pkg⟩
  · trivial
  · refine safe_calm (calm_of_same fun _ _ => ⟨rfl, rfl, rfl⟩) fun maintenant => ?_
    exact ⟨trivial, fun γ next s e hi hg _ _ _ => ⟨.outside, hi.list hg _, trivial⟩⟩

theorem maybeConfirm_safe : (proto ι id s₀).Safe prisma (FirstConfirmation id) t
    (BookingsService.maybeConfirm id) Ends .outside := by
  simp only [BookingsService.maybeConfirm, BookingsService.findByIdOrFail, Prog.bind_eq, await_bind,
    Prog.call_bind]
  refine safe_calm (calm_of_same fun _ _ => ⟨rfl, rfl, rfl⟩) fun r => ?_
  rcases r with _ | b
  · trivial
  simp only [Prog.pure_eq, Prog.ret_bind]
  split
  swap
  · trivial
  simp only [BookingsService.updateStatus, Prog.bind_eq, await_bind, Prog.call_bind]
  refine ⟨trivial, fun γ next s e hi hg _ hn hok => ?_⟩
  rcases hb : s.bookings[id]? with _ | b
  · simp only [prisma_exec, exec, hb, Prog.fail_bind]
    exact ⟨.outside, hi.keep hg, trivial⟩
  have hfirst : b.status ≠ .confirmed := by
    have hnext : (next t).any (confirms id) = true := by
      rw [hn]
      exact decide_eq_true rfl
    exact hok hnext b hb
  simp only [prisma_exec, exec, hb, Prog.pure_eq, Prog.ret_bind]
  refine ⟨.confirming, hi.confirm hg hb hfirst, ?_⟩
  refine Proto.safe_bind.mpr (Proto.safe_mono (fun r g hg => ?_) (notifyConfirmed_safe _))
  subst hg
  rcases r with _ | _
  · trivial
  · exact Proto.safe_bind.mpr (Proto.safe_mono (fun r g _ => by cases r <;> trivial)
      generateStandardChecklist_safe)

/-- The confirmation after the update of a step, and what follows. -/
theorem maybeConfirm_bind_safe {α : Type} {f : BookingShape → Req α}
    (hf : ∀ booking, (f booking).Uses (Calm id)) :
    (proto ι id s₀).Safe prisma (FirstConfirmation id) t
      ((BookingsService.maybeConfirm id).bind f) Ends .outside := by
  refine Proto.safe_bind.mpr (Proto.safe_mono (fun r g _ => ?_) maybeConfirm_safe)
  rcases r with _ | booking
  · trivial
  · exact calm_safe (hf booking)

theorem markStepDone_safe (key : DossierStepKey) : (proto ι id s₀).Safe prisma
    (FirstConfirmation id) t (BookingsService.markStepDone id key) Ends .outside := by
  refine safe_calm (calm_bookingStepUpdate key .done) fun r => ?_
  rcases r with _ | _
  · trivial
  · exact maybeConfirm_bind_safe fun booking =>
      (uses_notifyStepDone_calm booking key).bind fun _ => trivial

theorem updateStep_safe (ownerId : UserId) (key : DossierStepKey) (status : DossierStepStatus) :
    (proto ι id s₀).Safe prisma (FirstConfirmation id) t
      (BookingsService.updateStep ownerId id key status) Ends .outside := by
  simp only [BookingsService.updateStep, BookingsService.findByIdOrFail,
    BookingsService.assertAgencyOwnership, AgenciesService.findByOwnerOrFail, Prog.bind_eq,
    await_bind, Prog.call_bind]
  refine safe_calm (calm_of_same fun _ _ => ⟨rfl, rfl, rfl⟩) fun r => ?_
  rcases r with _ | b
  · trivial
  simp only [Prog.pure_eq, Prog.ret_bind]
  refine safe_calm (calm_of_same fun _ _ => ⟨rfl, rfl, rfl⟩) fun r => ?_
  rcases r with _ | ⟨agencyId, agency⟩
  · trivial
  simp only [Prog.ret_bind]
  split
  · trivial
  simp only [Prog.ret_bind]
  refine safe_calm (calm_bookingStepUpdate key status) fun r => ?_
  rcases r with _ | _
  · trivial
  refine maybeConfirm_bind_safe fun booking => ?_
  split
  · exact (uses_notifyStepDone_calm booking key).bind fun _ => trivial
  · trivial

theorem handler_safe {q : Request} (hq : OnSteps id q) : (proto ι id s₀).Safe prisma
    (FirstConfirmation id) t (handler q) Ends .outside := by
  cases q with
  | updateStep ownerId id' key status =>
    obtain rfl : id' = id := hq
    exact Proto.safe_void (Proto.safe_mono (fun r _ _ => by cases r <;> trivial)
      (updateStep_safe ownerId key status))
  | markStepDone id' key =>
    obtain rfl : id' = id := hq
    exact Proto.safe_void (Proto.safe_mono (fun r _ _ => by cases r <;> trivial)
      (markStepDone_safe key))
  | _ => exact hq.elim

omit [DecidableEq ι] in
/-- No request has started. -/
theorem OnceInv.start : OnceInv id s (fun _ : ι => .outside) s := by
  have hle : s.unconfirmed id ≤ 1 := by
    unfold Db.unconfirmed
    split <;> omega
  exact ⟨by simp [Ph.notices, hle], fun title => by simp [Ph.lists, hle]⟩

end Requests

end Once

/-- **Confirmed once.** Updates of the steps of a booking run at once, and each one that writes
`CONFIRMED` finds the booking not `CONFIRMED` yet. At any time, the confirmation was notified at most
once, and each item of the checklist generated at most once. -/
theorem confirmed_once {ι : Type} [DecidableEq ι] [Fintype ι] {requests : ι → Request}
    {id : BookingId} {s : Db} (hq : ∀ t, Once.OnSteps id (requests t))
    {c : Pool prismaSig ι Db Erreur Unit}
    (hr : Pool.Reach prisma (Once.FirstConfirmation id) (poolOf requests s) c) :
    c.st.noticesSent ≤ s.noticesSent + 1 ∧
      ∀ title, c.st.itemsOf id title ≤ s.itemsOf id title + 1 := by
  have hstart : (Once.proto ι id s).Keeps prisma (Once.FirstConfirmation id)
      (fun _ => Once.Ends) (poolOf requests s) :=
    ⟨fun _ => .outside, Once.OnceInv.start, fun t => Once.handler_safe (hq t)⟩
  obtain ⟨γ, hi, -⟩ := Proto.reach (fun _ _ _ _ => trivial) hstart hr
  refine ⟨?_, fun title => ?_⟩
  · have := hi.notices
    omega
  · have := hi.items title
    omega

/-! ## Schedules on fixed inputs -/

/-- A booking whose first three steps are done. -/
private def presque : Db :=
  Trace.last .exemple (runAll {} .exemple [.createBooking 0 0, .markStepDone 0 .payment,
    .markStepDone 0 .visa, .markStepDone 0 .flight])

/-- The last two steps are done by two requests. -/
private def deuxDernieres : Fin 2 → Request
  | 0 => .markStepDone 0 .vaccination
  | 1 => .markStepDone 0 .documents

/-- The second request runs after the first one. -/
private def successives : Pool prismaSig (Fin 2) Db Erreur Unit :=
  Pool.run prisma (turns (List.replicate 10 0 ++ List.replicate 10 1)) (poolOf deuxDernieres presque)

theorem confirmed_once_exemple : successives.st.noticesSent ≤ presque.noticesSent + 1 ∧
    ∀ title, successives.st.itemsOf 0 title ≤ presque.itemsOf 0 title + 1 := by
  have hq : ∀ t, Once.OnSteps 0 (deuxDernieres t) := by
    intro t
    match t with
    | 0 => rfl
    | 1 => rfl
  have hallowed : Pool.Allowed prisma (Once.FirstConfirmation 0) (poolOf deuxDernieres presque)
      (turns (List.replicate 10 0 ++ List.replicate 10 1)) := by decide +kernel
  exact confirmed_once hq (hallowed.reach .refl)

/-- Both requests complete the dossier before either reads it again: each of them confirms. -/
private def simultanees : Pool prismaSig (Fin 2) Db Erreur Unit :=
  Pool.run prisma (turns (List.flatten (List.replicate 10 [0, 1]))) (poolOf deuxDernieres presque)

theorem confirmed_twice : ¬ ∀ (requests : Fin 2 → Request) (id : BookingId) (s : Db)
    (c : Pool prismaSig (Fin 2) Db Erreur Unit), (∀ t, Once.OnSteps id (requests t)) →
    (∀ b ∈ s.bookings[id]?, b.status ≠ .cancelled) →
    Pool.Reach prisma Pool.anyStep (poolOf requests s) c →
      c.st.noticesSent ≤ s.noticesSent + 1 ∧
        ∀ title, c.st.itemsOf id title ≤ s.itemsOf id title + 1 := by
  intro h
  have hq : ∀ t, Once.OnSteps 0 (deuxDernieres t) := by
    intro t
    match t with
    | 0 => rfl
    | 1 => rfl
  have hst : ∀ b ∈ presque.bookings[0]?, b.status ≠ .cancelled := by decide +kernel
  have hr : Pool.Reach prisma Pool.anyStep (poolOf deuxDernieres presque) simultanees :=
    Pool.Reach.run .refl _
  have hitems : presque.itemsOf 0 "Préparer la valise" = 0 ∧
      simultanees.st.itemsOf 0 "Préparer la valise" = 2 := by decide +kernel
  have := (h deuxDernieres 0 presque simultanees hq hst hr).2 "Préparer la valise"
  omega

end OumraHajj
