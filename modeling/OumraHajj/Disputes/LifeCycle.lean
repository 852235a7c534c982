import OumraHajj.Async.Sequential
import OumraHajj.Disputes.Service

/-!
# The life cycle of a dispute

`Move d d'` is what one request may do to a dispute: a message, the amicable end, the escalation or
the decision, each under its guard. `Effect` is what a request does to the table, and
`handler_effect` proves it of every handler; the invariants are then facts about `Move`.
`life_cycle` is the result over every run.
-/

namespace OumraHajj.Disputes

open Async

/-! ## The automaton -/

/-- One move of a dispute, at a time `now` (module doc). -/
inductive Move (d : Dispute) (now : Time) : Dispute → Prop
  | message (authorId : UserId) (role : Role) (content : String) (h : actif d.status = true)
    (hr : d.status = .escalated ∨ role = .agency ∨ role = .pilgrim) :
    Move d now (DisputeUpdate.apply
      { status := suivant d.status role, message := some (authorId, role, content) } now d)
  | resolve (h : actif d.status = true) :
    Move d now (DisputeUpdate.apply { status := .resolved, closed := true } now d)
  | escalate (t : Time) (h : escaladable d.status t d.createdAt = true) (ht : t ≤ now) :
    Move d now (DisputeUpdate.apply { status := .escalated, escalated := true } now d)
  | decide (adminId : UserId) (decision : String) (h : d.status = .escalated) :
    Move d now (DisputeUpdate.apply
      { status := .closed, closed := true, decision := some (decision, adminId) } now d)

/-- The companion fields and the last message agree with the status. -/
structure WellFormed (d : Dispute) : Prop where
  closedAt : d.closedAt.isSome = true ↔ clos d.status = true
  decision : d.decision.isSome = true ↔ d.status = .closed
  decidedById : d.decidedById.isSome = true ↔ d.status = .closed
  responded : d.status = .agencyResponded → ∃ m, d.messages.getLast? = some m ∧
    m.authorRole = .agency
  opened : d.status = .open → ∃ m, d.messages.getLast? = some m ∧ m.authorRole = .pilgrim

theorem actif_not_clos {st : DisputeStatus} (h : actif st = true) : clos st = false := by
  simpa [actif_eq_not_clos] using h

theorem actif_ne_closed {st : DisputeStatus} (h : actif st = true) : st ≠ .closed := by
  rintro rfl
  cases h

theorem escaladable_actif {st : DisputeStatus} {now t : Time} (h : escaladable st now t = true) :
    actif st = true := by
  cases st <;> first | rfl | simp [escaladable] at h

theorem suivant_actif (st : DisputeStatus) (role : Role) : actif (suivant st role) = true := by
  cases st <;> cases role <;> rfl

theorem DisputeCreate.row_wellFormed (data : DisputeCreate) (now : Time) :
    WellFormed (data.row now) where
  closedAt := by simp [row, clos]
  decision := by simp [row]
  decidedById := by simp [row]
  responded := by simp [row]
  opened := by simp [row]

/-- A move keeps the companion fields and the last message in agreement with the status. -/
theorem Move.wellFormed {d d' : Dispute} {now : Time} (hm : Move d now d') (h : WellFormed d) :
    WellFormed d' := by
  have open_of (ha : actif d.status = true) : d.closedAt = none ∧ d.decision = none ∧
      d.decidedById = none := by
    have hc := actif_not_clos ha
    have hn := actif_ne_closed ha
    have h₁ := h.closedAt
    have h₂ := h.decision
    have h₃ := h.decidedById
    simp_all
  cases hm with
  | message authorId role content ha hr =>
    obtain ⟨hc, hd, hb⟩ := open_of ha
    have hs := suivant_actif d.status role
    refine ⟨?_, ?_, ?_, ?_, ?_⟩
    · simp [DisputeUpdate.apply, hc, actif_not_clos hs]
    · simpa [DisputeUpdate.apply, hd] using actif_ne_closed hs
    · simpa [DisputeUpdate.apply, hb] using actif_ne_closed hs
    · intro he
      refine ⟨⟨authorId, role, content, now⟩, by simp [DisputeUpdate.apply], ?_⟩
      revert he
      simp only [DisputeUpdate.apply, suivant]
      split
      · rename_i he; rw [he]; simp
      · split
        · exact fun _ => by assumption
        · simp
    · intro he
      refine ⟨⟨authorId, role, content, now⟩, by simp [DisputeUpdate.apply], ?_⟩
      revert he
      simp only [DisputeUpdate.apply, suivant]
      split
      · rename_i he; rw [he]; simp
      · rename_i hne
        split
        · simp
        · rename_i hna
          exact fun _ => (hr.resolve_left hne).resolve_left hna
  | resolve ha =>
    obtain ⟨-, hd, hb⟩ := open_of ha
    refine ⟨?_, ?_, ?_, ?_, ?_⟩ <;> simp [DisputeUpdate.apply, clos, hd, hb]
  | escalate t he _ =>
    obtain ⟨hc, hd, hb⟩ := open_of (escaladable_actif he)
    refine ⟨?_, ?_, ?_, ?_, ?_⟩ <;> simp [DisputeUpdate.apply, clos, hc, hd, hb]
  | decide adminId decision _ =>
    refine ⟨?_, ?_, ?_, ?_, ?_⟩ <;> simp [DisputeUpdate.apply, clos]

/-- Only an active dispute moves, and its booking and its date stay. -/
theorem Move.actif {d d' : Dispute} {now : Time} (hm : Move d now d') :
    actif d.status = true ∧ d'.bookingId = d.bookingId := by
  cases hm with
  | message _ _ _ h _ => exact ⟨h, rfl⟩
  | resolve h => exact ⟨h, rfl⟩
  | escalate _ h _ => exact ⟨escaladable_actif h, rfl⟩
  | decide _ _ h => rw [h]; exact ⟨rfl, rfl⟩

/-- `CLOSED` is reached from `ESCALATED` only. -/
theorem Move.closed {d d' : Dispute} {now : Time} (hm : Move d now d') (h : d'.status = .closed) :
    d.status = .escalated := by
  cases hm with
  | message _ role _ _ _ =>
    exact absurd h (actif_ne_closed (suivant_actif d.status role))
  | resolve _ => cases h
  | escalate _ _ _ => cases h
  | decide _ _ he => exact he

/-- `ESCALATED` is reached from `AGENCY_RESPONDED`, or when the time of the agency is over. -/
theorem Move.escalated {d d' : Dispute} {now : Time} (hm : Move d now d')
    (h : d'.status = .escalated) :
    d.status = .escalated ∨ d.status = .agencyResponded ∨
      ∃ t, d'.escalatedAt = some t ∧ d.createdAt + agencyResponseDays * jourMs ≤ t := by
  cases hm with
  | message _ role _ _ _ =>
    left
    revert h
    simp only [DisputeUpdate.apply, suivant]
    split
    · exact fun _ => by assumption
    · split <;> simp
  | resolve _ => cases h
  | escalate t he ht =>
    right
    simp only [escaladable, Bool.or_eq_true, Bool.and_eq_true, decide_eq_true_eq, delaiEcoule] at he
    rcases he with he | ⟨-, he⟩
    · exact .inl he
    · exact .inr ⟨now, rfl, le_trans (add_le_of_le_sub_left he) ht⟩
  | decide _ _ _ => cases h

/-! ## What a request does to the table -/

namespace Store

theorem dispute_congr {s s' : Store} (h : s'.disputes = s.disputes) (id : DisputeId) :
    s'.dispute id = s.dispute id := by
  rw [dispute, h, dispute]

theorem dispute_append {s s' : Store} {d : Dispute} (h : s'.disputes = s.disputes ++ [some d])
    (id : DisputeId) :
    s'.dispute id = if id = s.disputes.length then some d else s.dispute id := by
  rw [dispute, h, Table.row_append, dispute]

theorem dispute_set {s s' : Store} {id : DisputeId} {d d' : Dispute} (hd : s.dispute id = some d)
    (h : s'.disputes = s.disputes.set id (some d')) (j : DisputeId) :
    s'.dispute j = if id = j then some d' else s.dispute j := by
  rw [dispute, h, Table.row_set hd, dispute]

theorem dispute_map {s s' : Store} {P : Dispute → Bool}
    (h : s'.disputes = s.disputes.map fun row => row.filter P) (id : DisputeId) :
    s'.dispute id = (s.dispute id).filter P := by
  rw [dispute, h, Table.row_map_filter, dispute]

/-- Nothing happened to the disputes, and the clock did not go back. -/
structure Quiet (s s' : Store) : Prop where
  disputes : s'.disputes = s.disputes
  clock : s.clock ≤ s'.clock

theorem Quiet.refl (s : Store) : Quiet s s := ⟨rfl, le_refl _⟩

theorem Quiet.trans {s₁ s₂ s₃ : Store} (h : Quiet s₁ s₂) (h' : Quiet s₂ s₃) : Quiet s₁ s₃ :=
  ⟨h'.disputes.trans h.disputes, le_trans h.clock h'.clock⟩

theorem quiet_tick (s : Store) (e : Env) : Quiet s (s.tick e) := ⟨rfl, le_max_left _ _⟩

end Store

open Store

/-- The statements that leave the disputes as they are. -/
def quiet : sig.Stmt → Bool
  | .inl _ => true
  | .inr (.disputeCreate _) => false
  | .inr (.disputeUpdate _ _) => false
  | .inr (.disputeDeleteMany _) => false
  | .inr _ => true

/-- `Date.now()` reads the clock. -/
theorem now_runs {α : Type} {f : Time → Req α} {s s' : Store} {r : Except Erreur α} :
    backend.Runs (Prog.left (OumraHajj.await .now) >>= f) s r s' ↔
      ∃ e, backend.Runs (f (s.tick e).clock) (s.tick e) r s' := Iff.rfl

theorem quiet_exec (c : sig.Stmt) (h : quiet c = true) (e : Env) (s : Store) :
    Quiet s (backend.exec c e s).2 := by
  rcases c with c | c
  · exact ⟨rfl, le_max_left _ _⟩
  · cases c <;> first | exact quiet_tick s e | cases h

theorem quiet_runs {α : Type} {p : Req α} (hp : p.Uses fun c => quiet c = true) {s s' : Store}
    {r : Except Erreur α} (h : backend.Runs p s r s') : Quiet s s' :=
  h.frame Quiet.refl (fun _ _ _ => Quiet.trans) quiet_exec hp

theorem notifier_quiet (destinataires : List UserId) (title : String) (content : Texte) :
    (DisputesService.notifier destinataires title content).Uses fun c => quiet c = true := by
  unfold DisputesService.notifier
  split
  · trivial
  · exact Prog.uses_left (fun _ => rfl) _

theorem findAuthorizedOrFail_quiet (userId : UserId) (role : Role) (id : DisputeId) :
    (DisputesService.findAuthorizedOrFail userId role id).Uses fun c => quiet c = true := by
  refine Prog.uses_exec_bind rfl fun r => ?_
  rcases r with - | litige
  · trivial
  · dsimp only
    split <;> trivial

theorem findOne_quiet (userId : UserId) (role : Role) (id : DisputeId) :
    (DisputesService.findOne userId role id).Uses fun c => quiet c = true :=
  (findAuthorizedOrFail_quiet userId role id).bind fun _ => trivial

/-- The end of a request: the parties are notified and the dispute is read again. -/
theorem suite_quiet (destinataires : List UserId) (title : String) (content : Texte)
    (userId : UserId) (role : Role) (id : DisputeId) :
    (DisputesService.notifier destinataires title content >>= fun _ =>
      DisputesService.findOne userId role id).Uses fun c => quiet c = true :=
  (notifier_quiet destinataires title content).bind fun _ => findOne_quiet userId role id

theorem detail_dispute {s : Store} {id : DisputeId} {d : Dispute} {litige : LitigeDetail}
    (h : s.detail id d = some litige) : litige.dispute = d := by
  unfold Store.detail at h
  simp only [Option.bind_eq_some_iff, Option.map_eq_some_iff] at h
  obtain ⟨_, _, _, _, _, _, _, _, rfl⟩ := h
  rfl

/-- A dispute that is found is read as it is in the table, by someone who may see it. -/
theorem findAuthorizedOrFail_runs {userId : UserId} {role : Role} {id : DisputeId} {s s' : Store}
    {r : Except Erreur LitigeDetail}
    (h : backend.Runs (DisputesService.findAuthorizedOrFail userId role id) s r s') :
    Quiet s s' ∧ ∀ litige, r = .ok litige →
      s.dispute id = some litige.dispute ∧ autorise userId role litige = true := by
  refine ⟨quiet_runs (findAuthorizedOrFail_quiet userId role id) h, ?_⟩
  rintro litige rfl
  obtain ⟨e, h⟩ := Backend.runs_exec.mp h
  rcases hf : (s.dispute id).bind ((s.tick e).detail id) with - | l
  · have hf' : (backend.exec (.inr (.disputeFindUnique id)) e s).1 = none := hf
    rw [hf'] at h
    cases h.1
  · have hf' : (backend.exec (.inr (.disputeFindUnique id)) e s).1 = some l := hf
    rw [hf'] at h
    dsimp only at h
    split at h
    · rename_i ha
      obtain ⟨hl, -⟩ := h
      cases hl
      obtain ⟨d, hd, hdet⟩ := Option.bind_eq_some_iff.mp hf
      exact ⟨by rw [hd, detail_dispute hdet], ha⟩
    · cases h.1

/-- The update of a row: rejected, or written on the dispute as it is in the table. -/
theorem disputeUpdate_exec (id : DisputeId) (data : DisputeUpdate) (e : Env) (s : Store) :
    Quiet s (backend.exec (.inr (.disputeUpdate id data)) e s).2 ∨ ∃ d, s.dispute id = some d ∧
      (backend.exec (.inr (.disputeUpdate id data)) e s).2.disputes =
        s.disputes.set id (some (data.apply (s.tick e).clock d)) := by
  have htick : (s.tick e).dispute id = s.dispute id := rfl
  simp only [backend, exec, htick]
  split
  · exact .inl (quiet_tick s e)
  · rename_i d hd
    split
    · exact .inr ⟨d, hd, rfl⟩
    · exact .inl (quiet_tick s e)

/-- What a request does to the disputes. -/
inductive Effect (s s' : Store) (q : DisputeRequest) : Prop
  | quiet (h : s'.disputes = s.disputes)
  | opened (data : DisputeCreate) (now : Time)
    (hfree : ∀ id d, s.dispute id = some d → d.bookingId = data.bookingId → actif d.status = false)
    (h : s'.disputes = s.disputes ++ [some (data.row now)])
  | moved (id : DisputeId) (d d' : Dispute) (now : Time) (hd : s.dispute id = some d)
    (hm : Move d now d') (h : s'.disputes = s.disputes.set id (some d'))
  | purged (limite : Time) (hq : q = .purge)
    (h : s'.disputes = s.disputes.map fun row => row.filter fun d => !perime limite d)

theorem Effect.of_quiet {s s₁ s' : Store} {q : DisputeRequest} (h : Quiet s s₁)
    (h' : Effect s₁ s' q) : Effect s s' q := by
  have hd : ∀ id, s₁.dispute id = s.dispute id := dispute_congr h.disputes
  cases h' with
  | quiet he => exact .quiet (he.trans h.disputes)
  | opened data now hfree he =>
    exact .opened data now (fun id d hid => hfree id d (by rw [hd, hid])) (by rw [he, h.disputes])
  | moved id d d' now hid hm he =>
    exact .moved id d d' now (by rw [← hd, hid]) hm (by rw [he, h.disputes])
  | purged limite hq he => exact .purged limite hq (by rw [he, h.disputes])

/-- A request that finds a dispute, updates it and only notifies and reads after that: what it does
is a move, if what it writes is one for the dispute found. -/
theorem request_effect {q : DisputeRequest} {userId : UserId} {role : Role} {id : DisputeId}
    {f : LitigeDetail → Req DisputeShape} {s s' : Store} {r : Except Erreur DisputeShape}
    (hf : ∀ litige s₁ r', s₁.dispute id = some litige.dispute → autorise userId role litige = true →
      backend.Runs (f litige) s₁ r' s' → Effect s₁ s' q)
    (h : backend.Runs (DisputesService.findAuthorizedOrFail userId role id >>= f) s r s') :
    Effect s s' q := by
  rcases Backend.runs_bind.mp h with ⟨litige, s₁, h₁, h₂⟩ | ⟨e, h₁, -⟩
  · obtain ⟨hq, hfound⟩ := findAuthorizedOrFail_runs h₁
    obtain ⟨hd, ha⟩ := hfound litige rfl
    exact .of_quiet hq (hf litige s₁ r (by rw [dispute_congr hq.disputes, hd]) ha h₂)
  · exact .quiet (findAuthorizedOrFail_runs h₁).1.disputes

/-- The update and the end of a request. -/
theorem puis_effect {q : DisputeRequest} {id : DisputeId} {data : DisputeUpdate}
    {suite : Req DisputeShape} {s s' : Store} {r : Except Erreur DisputeShape} {d : Dispute}
    (hd : s.dispute id = some d) (hs : suite.Uses fun c => quiet c = true)
    (hm : ∀ now, s.clock ≤ now → Move d now (data.apply now d))
    (h : backend.Runs (DisputesService.puis id data suite) s r s') : Effect s s' q := by
  obtain ⟨e, h⟩ := Backend.runs_exec.mp h
  have hend : s'.disputes = (backend.exec (.inr (.disputeUpdate id data)) e s).2.disputes := by
    refine (quiet_runs ?_ h).disputes
    split
    · trivial
    · exact hs
  rcases disputeUpdate_exec id data e s with hq | ⟨d', hd', hset⟩
  · exact .quiet (hend.trans hq.disputes)
  · obtain rfl : d = d' := Option.some.inj (hd.symm.trans hd')
    exact .moved id d _ _ hd (hm _ (le_max_left _ _)) (hend.trans hset)

/-- Who writes a message: a party, or the administration once the dispute is escalated. -/
theorem autorise_role {userId : UserId} {role : Role} {litige : LitigeDetail}
    (h : autorise userId role litige = true) (ha : actif litige.dispute.status = true) :
    litige.dispute.status = .escalated ∨ role = .agency ∨ role = .pilgrim := by
  unfold autorise at h
  rcases hst : litige.dispute.status <;> rw [hst] at h ha <;> cases role <;>
    simp [visiblesAdmin, actif] at h ha ⊢

/-- Where no active dispute of the booking is found, none is active. -/
theorem disputeFindFirst_none {bookingId : BookingId} {e : Env} {s : Store}
    (h : (backend.exec (.inr (.disputeFindFirst bookingId)) e s).1 = none) {id : DisputeId}
    {d : Dispute} (hd : s.dispute id = some d) (hb : d.bookingId = bookingId) :
    actif d.status = false := by
  have hj : ((Table.findFirst s.disputes fun row => row.any fun d =>
      d.bookingId = bookingId ∧ actif d.status).map Prod.snd).join = none := h
  rcases hf : Table.findFirst s.disputes
      (fun row => row.any fun d => d.bookingId = bookingId ∧ actif d.status) with - | ⟨j, row⟩
  · have := Table.findFirst_none hf (Table.get_of_row hd)
    simpa [hb] using this
  · rw [hf] at hj
    obtain rfl : row = none := hj
    obtain ⟨-, hrow⟩ := Table.findFirst_some hf
    cases hrow

/-- The creation of a row: rejected, or added to the table. -/
theorem disputeCreate_exec (data : DisputeCreate) (e : Env) (s : Store) :
    Quiet s (backend.exec (.inr (.disputeCreate data)) e s).2 ∨
      (backend.exec (.inr (.disputeCreate data)) e s).2.disputes =
        s.disputes ++ [some (data.row (s.tick e).clock)] := by
  simp only [backend, exec]
  split
  · exact .inr rfl
  · exact .inl (quiet_tick s e)

/-- A creation writes a dispute only where no other dispute of the booking is active. -/
theorem create_effect {pilgrimId : UserId} {dto : CreateDisputeDto} {s s' : Store}
    {r : Except Erreur DisputeShape}
    (h : backend.Runs (DisputesService.create pilgrimId dto) s r s') :
    Effect s s' (.create pilgrimId dto) := by
  unfold DisputesService.create at h
  obtain ⟨e₁, h⟩ := Backend.runs_exec.mp h
  have hq₁ := quiet_exec (.inr (.bookingFindUnique dto.bookingId)) rfl e₁ s
  rcases hb : (backend.exec (.inr (.bookingFindUnique dto.bookingId)) e₁ s).1 with
    - | ⟨reservation, ownerId⟩
  · rw [hb] at h
    obtain ⟨-, rfl⟩ := h
    exact .quiet hq₁.disputes
  rw [hb] at h
  dsimp only at h
  split at h
  · obtain ⟨-, rfl⟩ := h
    exact .quiet hq₁.disputes
  obtain ⟨e₂, h⟩ := Backend.runs_exec.mp h
  generalize (backend.exec (.inr (.bookingFindUnique dto.bookingId)) e₁ s).2 = s₁ at hq₁ h
  have hq₂ := hq₁.trans (quiet_exec (.inr (.disputeFindFirst dto.bookingId)) rfl e₂ s₁)
  rcases hf : (backend.exec (.inr (.disputeFindFirst dto.bookingId)) e₂ s₁).1 with - | d
  swap
  · rw [hf] at h
    obtain ⟨-, rfl⟩ := h
    exact .quiet hq₂.disputes
  have hfree : ∀ id d, s.dispute id = some d → d.bookingId = dto.bookingId →
      actif d.status = false := by
    intro id d hid
    rw [← dispute_congr hq₁.disputes] at hid
    exact disputeFindFirst_none hf hid
  rw [hf] at h
  obtain ⟨e₃, h⟩ := Backend.runs_exec.mp h
  generalize (backend.exec (.inr (.disputeFindFirst dto.bookingId)) e₂ s₁).2 = s₂ at hq₂ h
  -- What follows the creation, rejected or not, only notifies.
  have hend : s'.disputes = (backend.exec (.inr (.disputeCreate
      { bookingId := dto.bookingId, pilgrimId, agencyId := reservation.agencyId
        category := dto.category, subject := dto.subject, message := dto.message })) e₃ s₂).2.disputes := by
    refine (quiet_runs ?_ h).disputes
    split
    · trivial
    · exact (notifier_quiet _ _ _).bind fun _ => trivial
  rcases disputeCreate_exec _ e₃ s₂ with hc | hc
  · exact .quiet ((hend.trans hc.disputes).trans hq₂.disputes)
  · exact .opened _ _ hfree (by rw [hend, hc, hq₂.disputes])

theorem purge_effect {s s' : Store} {r : Except Erreur Nat}
    (h : backend.Runs DisputePurgeService.purgeClosedDisputes s r s') : Effect s s' .purge := by
  obtain ⟨e₁, e₂, -, rfl⟩ := h
  exact .purged _ rfl rfl

/-- **What a request does.** One move of one dispute, a creation, a purge, or nothing. -/
theorem handler_effect (q : DisputeRequest) {s s' : Store} {r : Except Erreur Unit}
    (h : backend.Runs (handler q) s r s') : Effect s s' q := by
  cases q with
  | create pilgrimId dto =>
    obtain ⟨_, h⟩ := Backend.runs_void h
    exact create_effect h
  | addMessage userId role id content =>
    obtain ⟨_, h⟩ := Backend.runs_void h
    refine request_effect (fun litige s₁ r' hd ha h => ?_) h
    split at h
    · obtain ⟨-, rfl⟩ := h
      exact .quiet rfl
    · rename_i hactif
      have hactif : actif litige.dispute.status = true := by simpa using hactif
      refine puis_effect hd (suite_quiet _ _ _ _ _ _) (fun now _ => ?_) h
      exact .message userId role content hactif (autorise_role ha hactif)
  | resolve pilgrimId id =>
    obtain ⟨_, h⟩ := Backend.runs_void h
    refine request_effect (fun litige s₁ r' hd _ h => ?_) h
    split at h
    · obtain ⟨-, rfl⟩ := h
      exact .quiet rfl
    · rename_i hactif
      refine puis_effect hd (suite_quiet _ _ _ _ _ _) (fun now _ => ?_) h
      exact .resolve (by simpa using hactif)
  | escalate pilgrimId id =>
    obtain ⟨_, h⟩ := Backend.runs_void h
    refine request_effect (fun litige s₁ r' hd _ h => ?_) h
    obtain ⟨e, h⟩ := now_runs.mp h
    refine .of_quiet (quiet_tick s₁ e) ?_
    split at h
    · obtain ⟨-, rfl⟩ := h
      exact .quiet rfl
    · rename_i hesc
      have hs : (await .userFindManyAdmins >>= fun admins =>
          DisputesService.notifier (litige.agencyOwnerId :: admins) "Litige escaladé"
            [.txt "Un litige a été transmis à l'administration de la plateforme pour arbitrage."]
          >>= fun _ => DisputesService.findOne pilgrimId .pilgrim id).Uses
          fun c => quiet c = true :=
        Prog.uses_exec_bind rfl fun _ => suite_quiet _ _ _ _ _ _
      refine puis_effect (s := s₁.tick e) hd hs (fun now hn => ?_) h
      exact .escalate _ (by simpa using hesc) hn
  | decide adminId id decision =>
    obtain ⟨_, h⟩ := Backend.runs_void h
    refine request_effect (fun litige s₁ r' hd _ h => ?_) h
    split at h
    · obtain ⟨-, rfl⟩ := h
      exact .quiet rfl
    · rename_i hst
      refine puis_effect hd (suite_quiet _ _ _ _ _ _) (fun now _ => ?_) h
      exact .decide adminId decision (by simpa using hst)
  | purge =>
    obtain ⟨_, h⟩ := Backend.runs_void h
    exact purge_effect h

/-! ## Every run -/

/-- The invariant of the table. -/
structure Inv (s : Store) : Prop where
  wellFormed : ∀ id d, s.dispute id = some d → WellFormed d
  unique : ∀ i j d d', s.dispute i = some d → s.dispute j = some d' → clos d.status = false →
    clos d'.status = false → d.bookingId = d'.bookingId → i = j

/-- What the request `q` may do to a dispute `d`, which is in `row` after it. -/
structure Legal (q : DisputeRequest) (d : Dispute) (row : Option Dispute) : Prop where
  terminal : clos d.status = true → ∀ d', row = some d' → d'.status = d.status
  closed : ∀ d', row = some d' → d'.status = .closed → d.status = .closed ∨ d.status = .escalated
  escalated : ∀ d', row = some d' → d'.status = .escalated →
    d.status = .escalated ∨ d.status = .agencyResponded ∨
      ∃ t, d'.escalatedAt = some t ∧ d.createdAt + agencyResponseDays * jourMs ≤ t
  removed : row = none → q = .purge ∧ clos d.status = true

/-- The step of a run is legal for every dispute, and a new dispute is `OPEN`. -/
def LegalStep (s : Store) (q : DisputeRequest) (s' : Store) : Prop :=
  ∀ id, (∀ d, s.dispute id = some d → Legal q d (s'.dispute id)) ∧
    (s.dispute id = none → ∀ d', s'.dispute id = some d' → d'.status = .open)

theorem Legal.same (q : DisputeRequest) (d : Dispute) : Legal q d (some d) where
  terminal := by rintro - d' ⟨⟩; rfl
  closed := by rintro d' ⟨⟩ h; exact .inl h
  escalated := by rintro d' ⟨⟩ h; exact .inl h
  removed := by rintro ⟨⟩

/-- Where the table has the dispute as it was, the step is legal for it. -/
theorem Legal.unchanged (q : DisputeRequest) (row : Option Dispute) :
    (∀ d, row = some d → Legal q d row) ∧
      (row = none → ∀ d', row = some d' → d'.status = .open) := by
  constructor
  · rintro d rfl; exact Legal.same q d
  · rintro rfl d' ⟨⟩

theorem Move.legal {d d' : Dispute} {now : Time} (hm : Move d now d') (q : DisputeRequest) :
    Legal q d (some d') where
  terminal := by
    intro hc
    rw [actif_not_clos hm.actif.1] at hc
    cases hc
  closed := by rintro _ ⟨⟩ h; exact .inr (hm.closed h)
  escalated := by rintro _ ⟨⟩ h; exact hm.escalated h
  removed := by rintro ⟨⟩

theorem perime_clos {limite : Time} {d : Dispute} (h : perime limite d = true) :
    clos d.status = true := by
  unfold perime at h
  exact (Bool.and_eq_true _ _ ▸ h).1

theorem Legal.purged {q : DisputeRequest} {d : Dispute} (hq : q = .purge)
    (hc : clos d.status = true) : Legal q d none where
  terminal := by rintro - d' ⟨⟩
  closed := by rintro d' ⟨⟩
  escalated := by rintro d' ⟨⟩
  removed := fun _ => ⟨hq, hc⟩

theorem not_actif_iff {st : DisputeStatus} : actif st = false ↔ clos st = true := by
  simp [actif_eq_not_clos]

/-- A step keeps the invariant. -/
theorem Effect.inv {s s' : Store} {q : DisputeRequest} (he : Effect s s' q) (hi : Inv s) :
    Inv s' := by
  cases he with
  | quiet h =>
    have hd := dispute_congr h
    exact ⟨fun id d => by rw [hd]; exact hi.wellFormed id d,
      fun i j d d' => by rw [hd, hd]; exact hi.unique i j d d'⟩
  | opened data now hfree h =>
    have hd := dispute_append h
    have hnew : s.dispute s.disputes.length = none := by simp [dispute, Table.row]
    constructor
    · intro id d
      rw [hd]
      split
      · rintro ⟨⟩; exact data.row_wellFormed now
      · exact hi.wellFormed id d
    · intro i j d d' hdi hdj hci hcj hb
      rw [hd] at hdi hdj
      split at hdi <;> split at hdj
      · exact Eq.trans (by assumption) (Eq.symm (by assumption))
      · cases hdi
        have := not_actif_iff.mp (hfree j d' hdj hb.symm)
        rw [this] at hcj; cases hcj
      · cases hdj
        have := not_actif_iff.mp (hfree i d hdi hb)
        rw [this] at hci; cases hci
      · exact hi.unique i j d d' hdi hdj hci hcj hb
  | moved id d₀ d₁ now hd₀ hm h =>
    have hd := dispute_set hd₀ h
    have ha : clos d₀.status = false := actif_not_clos hm.actif.1
    constructor
    · intro i d
      rw [hd]
      split
      · rintro ⟨⟩; exact hm.wellFormed (hi.wellFormed id d₀ hd₀)
      · exact hi.wellFormed i d
    · intro i j d d' hdi hdj hci hcj hb
      rw [hd] at hdi hdj
      split at hdi <;> split at hdj
      · subst_vars; rfl
      · cases hdi
        subst_vars
        exact hi.unique _ j d₀ d' hd₀ hdj ha hcj (hm.actif.2.symm.trans hb)
      · cases hdj
        subst_vars
        exact hi.unique i _ d d₀ hdi hd₀ hci ha (hb.trans hm.actif.2)
      · exact hi.unique i j d d' hdi hdj hci hcj hb
  | purged limite _ h =>
    have hkept : ∀ id d, s'.dispute id = some d → s.dispute id = some d := by
      intro id d hid
      rw [dispute_map h, Option.filter_eq_some_iff] at hid
      exact hid.1
    exact ⟨fun id d hid => hi.wellFormed id d (hkept id d hid),
      fun i j d d' hdi hdj => hi.unique i j d d' (hkept i d hdi) (hkept j d' hdj)⟩

/-- A step is legal. -/
theorem Effect.legal {s s' : Store} {q : DisputeRequest} (he : Effect s s' q) :
    LegalStep s q s' := by
  intro id
  cases he with
  | quiet h =>
    rw [dispute_congr h]
    exact Legal.unchanged q _
  | opened data now _ h =>
    rw [dispute_append h]
    split
    · rename_i hid
      have hnone : s.dispute id = none := by simp [dispute, Table.row, hid]
      constructor
      · intro d hd; rw [hnone] at hd; cases hd
      · rintro - d' ⟨⟩; rfl
    · exact Legal.unchanged q _
  | moved j d₀ d₁ now hd₀ hm h =>
    rw [dispute_set hd₀ h]
    split
    · rename_i hj
      subst hj
      constructor
      · intro d hd
        obtain rfl : d₀ = d := Option.some.inj (hd₀.symm.trans hd)
        exact hm.legal q
      · intro hn; rw [hn] at hd₀; cases hd₀
    · exact Legal.unchanged q _
  | purged limite hq h =>
    rw [dispute_map h]
    constructor
    · intro d hd
      rw [hd]
      by_cases hp : perime limite d = true
      · rw [Option.filter_some_neg (by simp [hp])]
        exact Legal.purged hq (perime_clos hp)
      · rw [Option.filter_some_pos (by simp [hp])]
        exact Legal.same q d
    · intro hn d' hd'; rw [hn] at hd'; cases hd'

/-- **Life cycle of a dispute.** In every run from a database without disputes, each booking has at
most one active dispute in every state reached, the dates, the decision and the last message agree
with the status, and every step is legal. -/
theorem life_cycle {s : Store} {tr : Trace DisputeRequest Store} (h₀ : s.disputes = [])
    (hr : backend.Run handler s tr) :
    (∀ x ∈ tr, Inv x.2) ∧ Trace.Steps LegalStep s tr := by
  have hinit : Inv s := by
    have hd : ∀ id, s.dispute id = none := by simp [dispute, Table.row, h₀]
    constructor
    · intro id d h; rw [hd] at h; cases h
    · intro i j d d' h; rw [hd] at h; cases h
  have hstep : ∀ s q r s', Inv s → True → True → backend.Runs (handler q) s r s' →
      Inv s' ∧ Inv s' ∧ LegalStep s q s' := by
    intro s q r s' hi _ _ h
    have he := handler_effect q h
    exact ⟨he.inv hi, he.inv hi, he.legal⟩
  have hsteps := (hr.steps (A := fun _ => True) (C := fun _ _ _ => True) hstep
    (fun _ _ => trivial) hinit (Trace.Steps.imp (fun _ _ _ _ => trivial) hr)).1
  exact ⟨Trace.steps_after.mp (hsteps.imp fun _ _ _ h => h.1), hsteps.imp fun _ _ _ h => h.2⟩

/-- The run of the requests `qs` from the example. -/
abbrev runExemple (qs : List DisputeRequest) : Trace DisputeRequest Store :=
  backend.evalAll handler {} Store.exemple qs

/-- A dispute that is answered, escalated and decided. -/
theorem life_cycle_exemple :
    let qs := [.create 0 CreateDisputeDto.exemple, .addMessage 1 .agency 0 "Réponse",
      .escalate 0 0, .decide 2 0 "Remboursement"]
    (((Trace.last Store.exemple (runExemple qs)).dispute 0).map (·.status) = some .closed) ∧
      (∀ x ∈ runExemple qs, Inv x.2) ∧ Trace.Steps LegalStep Store.exemple (runExemple qs) :=
  ⟨by decide +kernel, life_cycle rfl (Backend.evalAll_run _ _ _)⟩

end OumraHajj.Disputes
