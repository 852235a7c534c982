import OumraHajj.Disputes.LifeCycle

/-!
# Concurrent requests on a dispute

Each request reads the dispute, checks its status and writes later, without a condition on what it
writes over. `StillValid` is the condition under which that is harmless: a message or an escalation
is written while its check would still pass. `closed_stays` is what follows from it in every
interleaving.
-/

namespace OumraHajj.Disputes

open Async Store

/-- The requests run at once, from the state `s`. -/
def poolOf {ι : Type} (requests : ι → DisputeRequest) (s : Store) : Pool sig ι Store Erreur Unit :=
  ⟨fun t => handler (requests t), s⟩

/-- The dispute that a statement updates, and the status that it writes. -/
def written : sig.Stmt → Option (DisputeId × DisputeStatus)
  | .inr (.disputeUpdate id data) => some (id, data.status)
  | _ => none

/-- The check of a request, on the present status of the dispute, when it is about to write `st`:
a message needs an active dispute whose status is followed by `st`, an escalation an active one. -/
def valid (q : DisputeRequest) (etat st : DisputeStatus) : Bool :=
  match q with
  | .addMessage _ role _ _ => actif etat && suivant etat role = st
  | .escalate _ _ => actif etat
  | _ => true

/-- No request writes after its check has become false (module doc). -/
def StillValid {ι : Type} (requests : ι → DisputeRequest) : Pool.Cond sig ι Store Env :=
  fun next s t _ => ∀ x ∈ (next t).bind written, ∀ d ∈ s.dispute x.1,
    valid (requests t) d.status x.2 = true

/-! ## What each request writes -/

/-- The status that a request may write. -/
def mayWrite : DisputeRequest → DisputeStatus → Bool
  | .addMessage _ _ _ _, st => actif st
  | .escalate _ _, st => st = .escalated
  | .resolve _ _, st => st = .resolved
  | .decide _ _ _, st => st = .closed
  | _, _ => false

/-- A statement writes only a status that its request may write. -/
def WritesOf (q : DisputeRequest) (c : sig.Stmt) : Prop := ∀ x ∈ written c, mayWrite q x.2 = true

theorem WritesOf.of_none {q : DisputeRequest} {c : sig.Stmt} (h : written c = none) :
    WritesOf q c := by
  intro x hx
  rw [h] at hx
  cases hx

theorem written_of_quiet {c : sig.Stmt} (h : quiet c = true) : written c = none := by
  rcases c with c | c
  · rfl
  · cases c <;> first | rfl | cases h

theorem writesOf_of_quiet {α : Type} {q : DisputeRequest} {p : Req α}
    (hp : p.Uses fun c => quiet c = true) : p.Uses (WritesOf q) := by
  induction p with
  | ret a => trivial
  | fail e => trivial
  | call c k ih => exact ⟨.of_none (written_of_quiet hp.1), fun r => ih r (hp.2 r)⟩

theorem puis_writes {q : DisputeRequest} {id : DisputeId} {data : DisputeUpdate}
    {suite : Req DisputeShape} (hd : mayWrite q data.status = true)
    (hs : suite.Uses fun c => quiet c = true) :
    (DisputesService.puis id data suite).Uses (WritesOf q) := by
  refine Prog.uses_exec_bind (by rintro x ⟨⟩; exact hd) fun r => ?_
  cases r with
  | error code => trivial
  | ok u => exact writesOf_of_quiet hs

theorem create_writes (q : DisputeRequest) (pilgrimId : UserId) (dto : CreateDisputeDto) :
    (DisputesService.create pilgrimId dto).Uses (WritesOf q) := by
  refine Prog.uses_exec_bind (.of_none rfl) fun r => ?_
  rcases r with - | ⟨reservation, ownerId⟩
  · trivial
  dsimp only
  split
  · trivial
  refine Prog.uses_exec_bind (.of_none rfl) fun r => ?_
  rcases r with - | _
  swap
  · trivial
  refine Prog.uses_exec_bind (.of_none rfl) fun r => ?_
  cases r with
  | error code => trivial
  | ok litige =>
    exact writesOf_of_quiet ((notifier_quiet _ _ _).bind fun _ => trivial)

/-- Each request writes only what it may. -/
theorem handler_writes (q : DisputeRequest) : (handler q).Uses (WritesOf q) := by
  cases q with
  | create pilgrimId dto => exact (create_writes _ _ _).void
  | addMessage userId role id content =>
    refine ((writesOf_of_quiet (findAuthorizedOrFail_quiet _ _ _)).bind fun litige => ?_).void
    split
    · trivial
    · exact puis_writes (suivant_actif _ _) (suite_quiet _ _ _ _ _ _)
  | resolve pilgrimId id =>
    refine ((writesOf_of_quiet (findAuthorizedOrFail_quiet _ _ _)).bind fun litige => ?_).void
    split
    · trivial
    · exact puis_writes rfl (suite_quiet _ _ _ _ _ _)
  | escalate pilgrimId id =>
    refine ((writesOf_of_quiet (findAuthorizedOrFail_quiet _ _ _)).bind fun litige => ?_).void
    refine Prog.uses_left_exec_bind (.of_none rfl) fun now => ?_
    split
    · trivial
    · exact puis_writes rfl (Prog.uses_exec_bind rfl fun _ => suite_quiet _ _ _ _ _ _)
  | decide adminId id decision =>
    refine ((writesOf_of_quiet (findAuthorizedOrFail_quiet _ _ _)).bind fun litige => ?_).void
    split
    · trivial
    · exact puis_writes rfl (suite_quiet _ _ _ _ _ _)
  | purge =>
    exact Prog.Uses.void ⟨.of_none rfl, fun now => Prog.uses_exec (.of_none rfl)⟩

/-! ## Two states of an interleaving -/

/-- A status only advances: `RESOLVED` and `CLOSED` stay closed, and `ESCALATED` is left for one of
them only. -/
def Advances (etat etat' : DisputeStatus) : Prop :=
  (clos etat = true → clos etat' = true) ∧
    (etat = .escalated → etat' ≠ .open ∧ etat' ≠ .agencyResponded)

theorem Advances.refl (etat : DisputeStatus) : Advances etat etat := by
  refine ⟨id, ?_⟩
  rintro rfl
  simp

theorem Advances.trans {a b c : DisputeStatus} (h : Advances a b) (h' : Advances b c) :
    Advances a c := by
  revert h h'
  cases a <;> cases b <;> cases c <;> simp [Advances, clos]

/-- What a request may write over a status for which it is still valid is an advance. -/
theorem advances_of_valid {q : DisputeRequest} {etat st : DisputeStatus}
    (hw : mayWrite q st = true) (hv : valid q etat st = true) : Advances etat st := by
  cases q with
  | create _ _ => cases hw
  | addMessage _ role _ _ =>
    cases etat <;> cases st <;> cases role <;> simp [mayWrite, valid, Advances, clos, actif, suivant]
      at hw hv ⊢
  | resolve _ _ => cases st <;> simp [mayWrite, Advances, clos] at hw ⊢
  | escalate _ _ =>
    cases etat <;> cases st <;> simp [mayWrite, valid, Advances, clos, actif] at hw hv ⊢
  | decide _ _ _ => cases st <;> simp [mayWrite, Advances, clos] at hw ⊢
  | purge => cases hw

/-- Every dispute of `s` is in `s'` with an advanced status, or was purged for good. -/
def AllAdvance (s s' : Store) : Prop :=
  ∀ (id : DisputeId) (row : Option Dispute), s.disputes[id]? = some row → ∃ row', s'.disputes[id]? = some row' ∧
    ∀ d', row' = some d' → ∃ d, row = some d ∧ Advances d.status d'.status

theorem AllAdvance.of_eq {s s' : Store} (h : s'.disputes = s.disputes) : AllAdvance s s' := by
  intro id row hrow
  exact ⟨row, by rw [h, hrow], fun d' hd' => ⟨d', hd', Advances.refl _⟩⟩

theorem AllAdvance.trans {s₁ s₂ s₃ : Store} (h : AllAdvance s₁ s₂) (h' : AllAdvance s₂ s₃) :
    AllAdvance s₁ s₃ := by
  intro id row hrow
  obtain ⟨row₂, hrow₂, h₂⟩ := h id row hrow
  obtain ⟨row₃, hrow₃, h₃⟩ := h' id row₂ hrow₂
  refine ⟨row₃, hrow₃, fun d hd => ?_⟩
  obtain ⟨d₂, hd₂, ha₂⟩ := h₃ d hd
  obtain ⟨d₁, hd₁, ha₁⟩ := h₂ d₂ hd₂
  exact ⟨d₁, hd₁, ha₁.trans ha₂⟩

/-- One statement of a request that is still valid. -/
theorem exec_advances {ι : Type} {requests : ι → DisputeRequest} {next : ι → Option sig.Stmt}
    {s : Store} {t : ι} {c : sig.Stmt} {e : Env} (hw : WritesOf (requests t) c)
    (hn : next t = some c) (hok : StillValid requests next s t e) :
    AllAdvance s (backend.exec c e s).2 := by
  by_cases hq : quiet c = true
  · exact .of_eq (quiet_exec c hq e s).disputes
  rcases c with c | c
  · exact absurd rfl hq
  cases c with
  | disputeCreate data =>
    rcases disputeCreate_exec data e s with hc | hc
    · exact .of_eq hc.disputes
    · intro id row hrow
      exact ⟨row, by rw [hc, Table.get_append_of_get hrow], fun d' hd' =>
        ⟨d', hd', Advances.refl _⟩⟩
  | disputeUpdate id data =>
    have hv : ∀ d ∈ s.dispute id, valid (requests t) d.status data.status = true := by
      intro d hd
      exact hok (id, data.status) (by rw [hn]; rfl) d hd
    have hm : mayWrite (requests t) data.status = true := hw (id, data.status) rfl
    rcases disputeUpdate_exec id data e s with hu | ⟨d, hd, hu⟩
    · exact .of_eq hu.disputes
    · intro j row hrow
      rw [hu, Table.get_set (Table.get_of_row hd)]
      split
      · subst_vars
        obtain rfl : some d = row := Option.some.inj ((Table.get_of_row hd).symm.trans hrow)
        exact ⟨_, rfl, fun d' hd' => ⟨d, rfl, by cases hd'; exact advances_of_valid hm (hv d hd)⟩⟩
      · exact ⟨row, hrow, fun d' hd' => ⟨d', hd', Advances.refl _⟩⟩
  | disputeDeleteMany limite =>
    intro id row hrow
    refine ⟨row.filter fun d => !perime limite d, ?_, fun d' hd' => ?_⟩
    · simp only [backend, exec, List.getElem?_map]
      rw [show (s.tick e).disputes = s.disputes from rfl, hrow]
      rfl
    · exact ⟨d', (Option.filter_eq_some_iff.mp hd').1, Advances.refl _⟩
  | bookingFindUnique _ => exact absurd rfl hq
  | disputeFindFirst _ => exact absurd rfl hq
  | disputeFindUnique _ => exact absurd rfl hq
  | userFindManyAdmins => exact absurd rfl hq

/-- **A closed dispute stays closed.** In every interleaving in which no message and no escalation
is written after its check has become false, a dispute that is `RESOLVED` or `CLOSED` stays so, and
one that is `ESCALATED` does not return to the dialogue. -/
theorem closed_stays {ι : Type} [DecidableEq ι] {requests : ι → DisputeRequest} {s : Store}
    {c c' : Pool sig ι Store Erreur Unit}
    (hr : Pool.Reach backend (StillValid requests) (poolOf requests s) c)
    (hr' : Pool.Reach backend (StillValid requests) c c') {id : DisputeId} {d d' : Dispute}
    (hd : c.st.dispute id = some d) (hd' : c'.st.dispute id = some d') :
    Advances d.status d'.status := by
  have hstep : ∀ next s t c e, WritesOf (requests t) c → next t = some c →
      StillValid requests next s t e → AllAdvance s (backend.exec c e s).2 :=
    fun _ _ _ _ _ hw hn hok => exec_advances hw hn hok
  have hrefl : ∀ s, AllAdvance s s := fun s => .of_eq rfl
  have hu := (hr.rel hrefl (fun _ _ _ => AllAdvance.trans) hstep
    fun t => handler_writes (requests t)).2
  have ha := (hr'.rel hrefl (fun _ _ _ => AllAdvance.trans) hstep hu).1
  obtain ⟨row, hrow, h⟩ := ha id _ (Table.get_of_row hd)
  have hrow' := Table.get_of_row hd'
  obtain rfl : row = some d' := Option.some.inj (hrow.symm.trans hrow')
  obtain ⟨d₀, hd₀, hadv⟩ := h d' rfl
  cases hd₀
  exact hadv

/-! ## Schedules on fixed inputs -/

instance {ι : Type} (requests : ι → DisputeRequest) (next : ι → Option sig.Stmt) (s : Store) (t : ι)
    (e : Env) : Decidable (StillValid requests next s t e) :=
  inferInstanceAs (Decidable (∀ _ ∈ _, ∀ _ ∈ _, _))

private def repondreResoudre : Fin 2 → DisputeRequest
  | 0 => .addMessage 1 .agency 0 "Réponse"
  | 1 => .resolve 0 0

/-- The agency answers the dispute of the example while the pilgrim ends it. -/
private def depart : Pool sig (Fin 2) Store Erreur Unit :=
  poolOf repondreResoudre (Trace.last .exemple (runExemple [.create 0 .exemple]))

/-- The answer comes first. -/
private def repondu : Pool sig (Fin 2) Store Erreur Unit :=
  Pool.run backend (turns [0, 0, 0, 0]) depart

theorem closed_stays_exemple : ∃ d d', repondu.st.dispute 0 = some d ∧
    (Pool.run backend (turns [1, 1, 1, 1]) repondu).st.dispute 0 = some d' ∧
    d.status = .agencyResponded ∧ Advances d.status d'.status := by
  have h₁ : Pool.Allowed backend (StillValid repondreResoudre) depart (turns [0, 0, 0, 0]) := by
    decide +kernel
  have h₂ : Pool.Allowed backend (StillValid repondreResoudre) repondu (turns [1, 1, 1, 1]) := by
    decide +kernel
  have hst : (repondu.st.dispute 0).map (·.status) = some .agencyResponded := by decide +kernel
  have hst' : ((Pool.run backend (turns [1, 1, 1, 1]) repondu).st.dispute 0).map (·.status) =
      some .resolved := by decide +kernel
  obtain ⟨d, hd, hs⟩ := Option.map_eq_some_iff.mp hst
  obtain ⟨d', hd', -⟩ := Option.map_eq_some_iff.mp hst'
  exact ⟨d, d', hd, hd', hs, closed_stays (h₁.reach .refl) (h₂.reach .refl) hd hd'⟩

/-- The agency has read the dispute, and the pilgrim ends it. -/
private def resolu : Pool sig (Fin 2) Store Erreur Unit :=
  Pool.run backend (turns [0, 1, 1]) depart

/-- The answer reopens the dispute. -/
theorem closed_reopened : ¬ ∀ (requests : Fin 2 → DisputeRequest) (s : Store)
    (c c' : Pool sig (Fin 2) Store Erreur Unit) (id : DisputeId) (d d' : Dispute),
    Pool.Reach backend Pool.anyStep (poolOf requests s) c → Pool.Reach backend Pool.anyStep c c' →
    c.st.dispute id = some d → c'.st.dispute id = some d' → Advances d.status d'.status := by
  intro h
  have hst : (resolu.st.dispute 0).map (·.status) = some .resolved := by decide +kernel
  have hst' : ((Pool.run backend (turns [0]) resolu).st.dispute 0).map (·.status) =
      some .agencyResponded := by decide +kernel
  obtain ⟨d, hd, hs⟩ := Option.map_eq_some_iff.mp hst
  obtain ⟨d', hd', hs'⟩ := Option.map_eq_some_iff.mp hst'
  have hadv := h repondreResoudre _ resolu _ 0 d d' (Pool.Reach.run .refl _)
    (Pool.Reach.run .refl _) hd hd'
  rw [hs, hs'] at hadv
  exact absurd (hadv.1 rfl) (by decide)

end OumraHajj.Disputes
