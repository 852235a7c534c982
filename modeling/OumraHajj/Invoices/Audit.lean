import OumraHajj.Async.History
import OumraHajj.Invoices.Numbering

/-!
# One audit entry for an invoice

`getInvoice` writes the entry `invoice.issue` after `emettre`, which hides whether it has created the invoice
or has lost a race (`P2002`): a call that has lost it writes an entry as well. `issued_once` is the result
under the condition that the database rejects no `invoice.create` (`Neuve`).

The history (`Createurs`) is the user whose call has created the invoice of each booking. **Ghost values**
(`Point`): the transaction that has written nothing (`ouvert`), the one that has created the invoice
(`cree`), and a call that has committed its invoice and not yet written the entry (`dette`). **Invariant**
(`Inv`): each invoice has its entry, or one call that is about to write it.
-/

namespace OumraHajj.Invoices

open Async

/-- The booking has an invoice. -/
def facturee (s : Db) (id : BookingId) : Bool := s.invoices.any (·.bookingId = id)

/-- The `invoice.issue` entries of a booking. -/
def issues (s : Db) (id : BookingId) : List AuditLog :=
  s.auditLogs.filter fun a => a.action = "invoice.issue" ∧ a.entityType = "booking" ∧ a.entityId = id

/-- The user whose call has created the invoice of each booking. -/
abbrev Createurs := BookingId → Option UserId

/-- A booking has one entry if it has an invoice, and none otherwise. -/
def Emise (s : Db) (h : Createurs) : Prop :=
  ∀ id, (h id).isSome = facturee s id ∧ (issues s id).map (·.actorId) = (h id).toList

/-- An invoice has one entry, of the user whose call has created it. -/
def UneFois (s : Db) (h : Createurs) : Prop :=
  ∀ id, facturee s id = true → ∃ u, h id = some u ∧ (issues s id).map (·.actorId) = [u]

def InvoiceRequest.auteur : InvoiceRequest → UserId
  | .getInvoice userId _ _ => userId
  | .updatePackage ownerId _ _ => ownerId

/-- The database rejects no creation of an invoice. -/
def Neuve : sig.Stmt → Db → Prop
  | .inr (.invoiceCreate data), s => s.invoices.any (conflit data) = false
  | _, _ => True

instance : (c : sig.Stmt) → (s : Db) → Decidable (Neuve c s)
  | .inr (.invoiceCreate _), _ => inferInstanceAs (Decidable (_ = false))
  | .inl _, _ | .inr (.agencyLock _), _ | .inr (.invoiceAggregate _ _), _
  | .inr (.packageUpdate _ _), _ => isTrue trivial

/-- How far a call has come (module doc). -/
inductive Point where
  | dehors
  | ouvert
  | cree (data : InvoiceCreate)
  | dette (id : BookingId)

section Protocol

variable {ι : Type} [DecidableEq ι]

/-- The state of the sessions, with the history. -/
abbrev Suivi (ι : Type) := TxState sig ι Db Env Key × Createurs

/-- A commit that makes the invoice of a booking appear. -/
def note (requests : ι → InvoiceRequest) :
    (sig.tx ι).Stmt → TxState sig ι Db Env Key → Createurs → Createurs
  | .commit t, s, h => fun id =>
    if facturee s.db id = false ∧ facturee (s.view backend (some t)) id = true then
      some (requests t).auteur
    else h id
  | _, _, h => h

/-- The schedules: a statement waits for its locks, and satisfies `fits`. -/
def attend (fits : sig.Stmt → Db → Prop) : Pool.Cond (sig.tx ι) ι (Suivi ι) Env :=
  fun next x t e => ready backend locks fits next x.1 t e

instance {fits : sig.Stmt → Db → Prop} [∀ c s, Decidable (fits c s)]
    (next : ι → Option (sig.tx ι).Stmt) (x : Suivi ι) (t : ι) (e : Env) :
    Decidable (attend fits next x t e) :=
  inferInstanceAs (Decidable (ready backend locks fits next x.1 t e))

/-- What a session has done. -/
def Session (x : TxState sig ι Db Env Key) (t : ι) : Point → Prop
  | .dehors => True
  | .dette _ => True
  | .ouvert => ∃ log, x.log t = some log ∧ Silent log
  | .cree data => ∃ log e, x.log t = some log ∧
    (∀ s, backend.replay log s = (exec (.invoiceCreate data) e s).2) ∧
    (∀ k ∈ locks (.inr (.invoiceCreate data)) x.db, x.owner k = some t) ∧
    x.db.invoices.any (conflit data) = false

/-- The entry of a booking: one call is about to write it, or it is there. -/
def Inscrite (requests : ι → InvoiceRequest) (γ : ι → Point) (s : Db) (h : Createurs)
    (id : BookingId) : Prop :=
  (∃ t, γ t = .dette id ∧ (∀ u, γ u = .dette id → u = t) ∧ issues s id = [] ∧
    h id = some (requests t).auteur) ∨
  ((∀ t, γ t ≠ .dette id) ∧ (issues s id).map (·.actorId) = (h id).toList)

/-- The invariant (module doc). -/
structure Inv (requests : ι → InvoiceRequest) (γ : ι → Point) (x : Suivi ι) : Prop where
  session : ∀ t, Session x.1 t (γ t)
  cree : ∀ id, (x.2 id).isSome = facturee x.1.db id
  inscrite : ∀ id, Inscrite requests γ x.1.db x.2 id

/-- The protocol of the audit entries. -/
def emission (requests : ι → InvoiceRequest) : Proto (sig.tx ι) ι (Suivi ι) where
  Gh := Point
  inv := Inv requests
  place _ _ := True

variable {requests : ι → InvoiceRequest} {γ : ι → Point} {x : Suivi ι} {t : ι} {q : Point}
  {s : Db} {h : Createurs} {id : BookingId}

/-- A call that changes its point, when neither the old nor the new one is a debt for the booking. -/
theorem Inscrite.update (hi : Inscrite requests γ s h id) (hp : γ t ≠ .dette id)
    (hq : q ≠ .dette id) : Inscrite requests (Function.update γ t q) s h id := by
  have hback : ∀ u, Function.update γ t q u = .dette id → u ≠ t ∧ γ u = .dette id := by
    intro u hu
    by_cases hut : u = t
    · subst hut
      rw [Function.update_self] at hu
      exact absurd hu hq
    · rw [Function.update_of_ne hut] at hu
      exact ⟨hut, hu⟩
  rcases hi with ⟨u, hu, huniq, hiss, hc⟩ | ⟨hno, hiss⟩
  · have hut : u ≠ t := by
      rintro rfl
      exact hp hu
    exact .inl ⟨u, by rwa [Function.update_of_ne hut], fun v hv => huniq v (hback v hv).2, hiss, hc⟩
  · exact .inr ⟨fun v hv => hno v (hback v hv).2, hiss⟩

omit [DecidableEq ι] in
/-- A session keeps what it knows when only another one does something. -/
theorem Session.other {x x' : TxState sig ι Db Env Key} {u : ι} {p : Point} (hs : Session x u p)
    (hdb : x'.db = x.db) (hlog : x'.log u = x.log u)
    (hown : ∀ k, x'.owner k = some u ↔ x.owner k = some u) : Session x' u p := by
  cases p with
  | dehors => trivial
  | dette id => trivial
  | ouvert =>
    obtain ⟨log, hl, hsilent⟩ := hs
    exact ⟨log, hlog.trans hl, hsilent⟩
  | cree data =>
    obtain ⟨log, e, hl, hreplay, hkeys, hfree⟩ := hs
    refine ⟨log, e, hlog.trans hl, hreplay, fun k hk => (hown k).mpr (hkeys k hk), ?_⟩
    rwa [hdb]

/-- The invariant after a step of the call `t` that leaves the invoices and the entries. -/
theorem Inv.step {y : TxState sig ι Db Env Key} (hi : Inv requests γ x)
    (hinv : y.db.invoices = x.1.db.invoices) (haudit : y.db.auditLogs = x.1.db.auditLogs)
    (ht : Session y t q) (hu : ∀ u, u ≠ t → Session y u (γ u))
    (hp : ∀ id, γ t ≠ .dette id) (hq : ∀ id, q ≠ .dette id) :
    Inv requests (Function.update γ t q) (y, x.2) := by
  refine ⟨fun u => ?_, fun id => ?_, fun id => ?_⟩
  · by_cases hut : u = t
    · subst hut
      rwa [Function.update_self]
    · rw [Function.update_of_ne hut]
      exact hu u hut
  · have hsame : facturee y.db id = facturee x.1.db id := by
      unfold facturee
      rw [hinv]
    rw [hsame]
    exact hi.cree id
  · have hissues : issues y.db id = issues x.1.db id := by
      unfold issues
      rw [haudit]
    have hins := (hi.inscrite id).update (hp id) (hq id)
    unfold Inscrite at hins ⊢
    rwa [hissues]

omit [DecidableEq ι] in
/-- A transaction that has created the invoice of `data` leaves its row at the commit. -/
theorem Session.view {data : InvoiceCreate} {x : TxState sig ι Db Env Key}
    (hs : Session x t (.cree data)) :
    x.db.invoices.any (conflit data) = false ∧ ∃ e : Env,
      x.view backend (some t) = { x.db with invoices := x.db.invoices ++ [data.row e.now] } := by
  obtain ⟨log, e, hl, hreplay, -, hfree⟩ := hs
  refine ⟨hfree, e, ?_⟩
  rw [view_some hl, hreplay]
  simp only [exec, hfree]

omit [DecidableEq ι] in
/-- Two open transactions do not create rows that conflict: they would hold the same lock. -/
theorem Session.distinct {data data' : InvoiceCreate} {x : TxState sig ι Db Env Key} {u : ι}
    (hs : Session x t (.cree data)) (hs' : Session x u (.cree data')) (hut : u ≠ t) (now : Time) :
    conflit data' (data.row now) = false := by
  obtain ⟨-, -, -, -, hkeys, -⟩ := hs
  obtain ⟨-, -, -, -, hkeys', -⟩ := hs'
  refine decide_eq_false fun hconflict => ?_
  have hshared : ∀ k, k ∈ locks (.inr (.invoiceCreate data)) x.db →
      k ∈ locks (.inr (.invoiceCreate data')) x.db → False := fun k hk hk' =>
    hut (Option.some.inj ((hkeys' k hk').symm.trans (hkeys k hk)))
  rcases hconflict with hb | ⟨ha, hy, hseq⟩
  · have hb : data.bookingId = data'.bookingId := hb
    exact hshared (.booking data.bookingId) (by simp [locks]) (by simp [locks, hb])
  · have ha : data.agencyId = data'.agencyId := ha
    have hy : data.year = data'.year := hy
    have hseq : data.sequence = data'.sequence := hseq
    exact hshared (.sequence data.agencyId data.year data.sequence) (by simp [locks])
      (by simp [locks, ha, hy, hseq])

theorem facturee_append (s : Db) (i : Invoice) :
    facturee { s with invoices := s.invoices ++ [i] } id =
      (facturee s id || decide (i.bookingId = id)) := by
  simp [facturee]

theorem facturee_of_free {data : InvoiceCreate} (hfree : s.invoices.any (conflit data) = false) :
    facturee s data.bookingId = false := by
  refine List.any_eq_false.mpr fun i hi hb => ?_
  have hno := List.any_eq_false.mp hfree i hi
  exact hno (decide_eq_true (.inl (of_decide_eq_true hb)))

omit [DecidableEq ι] in
/-- The history of a commit changes at the booking of the invoice only. -/
theorem note_commit {data : InvoiceCreate} (hs : Session x.1 t (.cree data)) (id : BookingId) :
    note requests (.commit t) x.1 x.2 id =
      if id = data.bookingId then some (requests t).auteur else x.2 id := by
  obtain ⟨hfree, e', hview⟩ := hs.view
  have hnone := facturee_of_free hfree
  simp only [note, hview, facturee_append]
  by_cases hid : id = data.bookingId
  · subst hid
    rw [if_pos rfl, if_pos ⟨hnone, by simp [InvoiceCreate.row]⟩]
  · rw [if_neg hid, if_neg]
    rintro ⟨hf, hf'⟩
    rw [hf, Bool.false_or, decide_eq_true_eq] at hf'
    exact hid hf'.symm

/-- The other sessions keep what they know at a commit. -/
theorem Session.commit {data : InvoiceCreate} {e : Env} {u : ι} {p : Point}
    (hs : Session x.1 t (.cree data)) (hut : u ≠ t) (hu : Session x.1 u p) :
    Session (((backend.tx locks).noted (note requests)).exec (.commit t) e x).2.1 u p := by
  obtain ⟨-, e', hview⟩ := hs.view
  have hdb : (((backend.tx locks).noted (note requests)).exec (.commit t) e x).2.1.db =
      { x.1.db with invoices := x.1.db.invoices ++ [data.row e'.now] } := hview
  cases p with
  | dehors => trivial
  | dette id => trivial
  | ouvert =>
    obtain ⟨log, hl, hsilent⟩ := hu
    exact ⟨log, (Function.update_of_ne hut _ _).trans hl, hsilent⟩
  | cree data' =>
    have hrow := hs.distinct hu hut e'.now
    obtain ⟨log, e₁, hl, hreplay, hkeys, hfree'⟩ := hu
    refine ⟨log, e₁, (Function.update_of_ne hut _ _).trans hl, hreplay,
      fun k hk => (Discipline.release_owner hut k).mpr (hkeys k hk), ?_⟩
    rw [hdb, List.any_append, hfree', List.any_cons, hrow]
    rfl

/-- The call that has created the invoice of a booking owes its entry. -/
theorem Inscrite.commit {data : InvoiceCreate} (hi : Inv requests γ x) (hg : γ t = .cree data)
    (hnone : facturee x.1.db data.bookingId = false) {c : Createurs}
    (hc : ∀ id, c id = if id = data.bookingId then some (requests t).auteur else x.2 id)
    (id : BookingId) :
    Inscrite requests (Function.update γ t (.dette data.bookingId)) x.1.db c id := by
  unfold Inscrite
  rw [hc]
  by_cases hid : id = data.bookingId
  · subst hid
    have hh : x.2 data.bookingId = none := by
      have := hi.cree data.bookingId
      rw [hnone] at this
      simpa using this
    rcases hi.inscrite data.bookingId with ⟨u, -, -, -, hu⟩ | ⟨hno, hiss⟩
    · rw [hh] at hu
      cases hu
    · rw [hh] at hiss
      have hempty : issues x.1.db data.bookingId = [] := List.map_eq_nil_iff.mp hiss
      refine .inl ⟨t, Function.update_self _ _ _, fun u hu => ?_, hempty, if_pos rfl⟩
      by_contra hut
      rw [Function.update_of_ne hut] at hu
      exact hno u hu
  · rw [if_neg hid]
    have hp : γ t ≠ .dette id := by
      rw [hg]
      rintro ⟨⟩
    exact (hi.inscrite id).update hp (by rintro ⟨⟩; exact hid rfl)

/-- A commit makes the invoice appear, and its call owes the entry. -/
theorem Inv.commit {data : InvoiceCreate} {e : Env} (hi : Inv requests γ x) (hg : γ t = .cree data) :
    Inv requests (Function.update γ t (.dette data.bookingId))
      (((backend.tx locks).noted (note requests)).exec (.commit t) e x).2 := by
  have ht := hi.session t
  rw [hg] at ht
  obtain ⟨hfree, e', hview⟩ := ht.view
  have hdb : (((backend.tx locks).noted (note requests)).exec (.commit t) e x).2.1.db =
      { x.1.db with invoices := x.1.db.invoices ++ [data.row e'.now] } := hview
  refine ⟨fun u => ?_, fun id => ?_, fun id => ?_⟩
  · by_cases hut : u = t
    · subst hut
      rw [Function.update_self]
      trivial
    · rw [Function.update_of_ne hut]
      exact ht.commit hut (hi.session u)
  · show (note requests (.commit t) x.1 x.2 id).isSome = facturee _ id
    rw [note_commit ht, hdb, facturee_append]
    by_cases hid : id = data.bookingId
    · subst hid
      simp [InvoiceCreate.row]
    · rw [if_neg hid, hi.cree, decide_eq_false (fun h => hid h.symm), Bool.or_false]
  · have hins := Inscrite.commit hi hg (facturee_of_free hfree) (note_commit ht) id
    unfold Inscrite at hins ⊢
    rw [hdb]
    exact hins

/-- The entry of an invoice. -/
def entree (userId : UserId) (role : Role) (bookingId : BookingId) : AuditLog :=
  { actorId := userId, actorRole := role, action := "invoice.issue", entityType := "booking"
    entityId := bookingId }

theorem issues_append (s : Db) (userId : UserId) (role : Role) (bookingId : BookingId) :
    issues { s with auditLogs := s.auditLogs ++ [entree userId role bookingId] } id =
      issues s id ++ if bookingId = id then [entree userId role bookingId] else [] := by
  unfold issues
  rw [List.filter_append]
  by_cases hid : bookingId = id
  · simp [entree, hid]
  · simp [entree, hid]

/-- The call that owes the entry writes it. -/
theorem Inv.audit {role : Role} {e : Env} (hi : Inv requests γ x) (hg : γ t = .dette id) :
    Inv requests (Function.update γ t .dehors)
      (((backend.tx locks).noted (note requests)).exec
        (.auto (.inl (.auditLogCreate (entree (requests t).auteur role id)))) e x).2 := by
  refine ⟨fun u => ?_, hi.cree, fun i => ?_⟩
  · by_cases hut : u = t
    · subst hut
      rw [Function.update_self]
      trivial
    · rw [Function.update_of_ne hut]
      have hu := hi.session u
      rcases hgu : γ u with _ | _ | data | id' <;> rw [hgu] at hu
      · trivial
      · exact hu
      · exact hu
      · trivial
  · show Inscrite requests _
      { x.1.db with auditLogs := x.1.db.auditLogs ++ [entree (requests t).auteur role id] } x.2 i
    unfold Inscrite
    rw [issues_append]
    by_cases hid : id = i
    · subst hid
      rcases hi.inscrite id with ⟨u, hu, huniq, hiss, hc⟩ | ⟨hno, -⟩
      · obtain rfl := huniq t hg
        rw [if_pos rfl, hiss, hc]
        refine .inr ⟨fun v hv => ?_, rfl⟩
        by_cases hvt : v = t
        · subst hvt
          rw [Function.update_self] at hv
          cases hv
        · rw [Function.update_of_ne hvt] at hv
          exact hvt (huniq v hv)
      · exact absurd hg (hno t)
    · rw [if_neg hid, List.append_nil]
      have hp : γ t ≠ .dette i := by
        rw [hg]
        rintro ⟨⟩
        exact hid rfl
      exact (hi.inscrite i).update hp (by rintro ⟨⟩)

/-! ## The handlers -/

/-- Thread `t` keeps the protocol of the audit entries and ends with `Q`. -/
abbrev Tient (requests : ι → InvoiceRequest) {α : Type} (t : ι) (p : Prog (sig.tx ι) Erreur α)
    (Q : Except Erreur α → Point → Prop) (g : Point) : Prop :=
  (emission requests).Safe ((backend.tx locks).noted (note requests)) (attend Neuve) t p Q g

/-- A statement that leaves the invoices and the audit entries as they are. -/
def Neutre (c : sig.Stmt) : Prop := ∀ e s,
  (backend.exec c e s).2.invoices = s.invoices ∧ (backend.exec c e s).2.auditLogs = s.auditLogs

/-- A statement of a call on its own leaves what the sessions know. -/
theorem Inv.auto {c : sig.Stmt} {e : Env} (hc : Neutre c) (hi : Inv requests γ x)
    (hg : γ t = .dehors) :
    Inv requests γ (((backend.tx locks).noted (note requests)).exec (.auto c) e x).2 := by
  obtain ⟨hinv, haudit⟩ := hc e x.1.db
  have hkept := hi.step (t := t) (q := .dehors) (y := { x.1 with db := (backend.exec c e x.1.db).2 })
    hinv haudit trivial (fun u _ => ?_) (by rw [hg]; rintro id ⟨⟩) (by rintro id ⟨⟩)
  · rwa [← hg, Function.update_eq_self] at hkept
  · have hu := hi.session u
    rcases hgu : γ u with _ | _ | data | id' <;> rw [hgu] at hu
    · trivial
    · exact hu
    · obtain ⟨log, e', hl, hreplay, hkeys, hfree⟩ := hu
      exact ⟨log, e', hl, hreplay, hkeys, by rwa [hinv]⟩
    · trivial

/-- Statements on their own that leave the invoices and the entries. -/
theorem auto_tient {α : Type} {p : Req α} (hp : p.Uses Neutre)
    {Q : Except Erreur α → Point → Prop} (hQ : ∀ r, Q r .dehors) :
    Tient requests t p.auto Q .dehors := by
  induction p with
  | ret a => exact hQ _
  | fail x => exact hQ _
  | call c k ih =>
    exact Proto.safe_call trivial (fun γ s e hi hg => hi.auto hp.1 hg) fun γ s e _ _ => ih _ (hp.2 _)

/-- The dossier that is read is the one of the booking. -/
theorem dossierAutorise_tient (userId : UserId) (role : Role) (bookingId : BookingId) :
    Tient requests t (Prog.left (BillingService.dossierAutorise userId role bookingId) : Req _).auto
      (fun r g => g = .dehors ∧ ∀ d, r = .ok d → d.id = bookingId) .dehors := by
  refine Proto.safe_call trivial (fun γ s e hi hg => hi.auto (fun _ _ => ⟨rfl, rfl⟩) hg)
    fun γ s e _ _ => ?_
  rcases hd : s.1.db.dossier bookingId with _ | d
  · have hans : (((backend.tx locks).noted (note requests)).exec
      (.auto (.inl (.bookingFindDossier bookingId))) e s).1 = none := hd
    rw [hans]
    exact ⟨rfl, by rintro d ⟨⟩⟩
  · have hans : (((backend.tx locks).noted (note requests)).exec
      (.auto (.inl (.bookingFindDossier bookingId))) e s).1 = some d := hd
    rw [hans]
    dsimp only [Prog.ret_bind]
    split
    · refine ⟨rfl, ?_⟩
      rintro _ ⟨⟩
      exact (dossier_lu hd).2.id
    · exact ⟨rfl, by rintro d ⟨⟩⟩

/-- A statement within the transaction that only reads. -/
theorem within_tient {α : Type} {c : sig.Stmt} {k : sig.Resp c → Prog (sig.tx ι) Erreur α}
    {Q : Except Erreur α → Point → Prop} (hc : ∀ e s, (backend.exec c e s).2 = s)
    (hk : ∀ r, Tient requests t (k r) Q .ouvert) :
    Tient requests t (.call (.within t c) k) Q .ouvert := by
  refine ⟨trivial, fun γ next x e hi hg _ hn hok => ⟨.ouvert, ?_, hk _⟩⟩
  have ht := hi.session t
  rw [hg] at ht
  obtain ⟨log, hl, hsilent⟩ := ht
  obtain ⟨hfree, -⟩ := hok (some t, c) (by rw [hn]; rfl)
  refine hi.step (y := ((backend.tx locks).exec (.within t c) e x.1).2) rfl rfl ?_ (fun u hu => ?_)
    (by rw [hg]; rintro id ⟨⟩) (by rintro id ⟨⟩)
  · refine ⟨log ++ [(c, e)], ?_, Backend.replay_append_silent hsilent fun s => hc e s⟩
    refine (Function.update_self ..).trans ?_
    rw [hl]
    rfl
  · exact (hi.session u).other rfl (Function.update_of_ne hu _ _) (Discipline.take_owner hfree hu)

/-- The transaction creates the invoice, and its commit leaves a debt. -/
theorem create_tient {data : InvoiceCreate}
    {k : Except String Unit → Prog (sig.tx ι) Erreur Unit}
    (hk : k (.ok ()) = .call (.commit t) fun _ => .ret ()) :
    Tient requests t (.call (.within t (.inr (.invoiceCreate data))) k)
      (fun r g => r = .ok () ∧ g = .dette data.bookingId) .ouvert := by
  refine ⟨trivial, fun γ next x e hi hg _ hn hok => ⟨.cree data, ?_, ?_⟩⟩
  · have ht := hi.session t
    rw [hg] at ht
    obtain ⟨log, hl, hsilent⟩ := ht
    obtain ⟨hfree, hfit⟩ := hok (some t, .inr (.invoiceCreate data)) (by rw [hn]; rfl)
    refine hi.step (y := ((backend.tx locks).exec (.within t (.inr (.invoiceCreate data))) e x.1).2)
      rfl rfl ⟨log ++ [(.inr (.invoiceCreate data), e)], e, ?_, fun s => ?_, fun k hk => ?_, hfit⟩
      (fun u hu => ?_) (by rw [hg]; rintro id ⟨⟩) (by rintro id ⟨⟩)
    · refine (Function.update_self ..).trans ?_
      rw [hl]
      rfl
    · rw [Backend.replay_append, hsilent]
      rfl
    · exact if_pos hk
    · exact (hi.session u).other rfl (Function.update_of_ne hu _ _) (Discipline.take_owner hfree hu)
  · have ht := hi.session t
    rw [hg] at ht
    obtain ⟨log, hl, hsilent⟩ := ht
    obtain ⟨-, hfit⟩ := hok (some t, .inr (.invoiceCreate data)) (by rw [hn]; rfl)
    have hans : (exec (.invoiceCreate data) e (x.1.view backend (some t))).1 = .ok () := by
      have hfit : x.1.db.invoices.any (conflit data) = false := hfit
      rw [view_some hl, hsilent]
      simp only [exec, hfit]
      rfl
    show Tient requests t (k (exec (.invoiceCreate data) e (x.1.view backend (some t))).1) _ _
    rw [hans, hk]
    exact ⟨trivial, fun γ next x e hi hg _ _ _ => ⟨.dette data.bookingId, hi.commit hg, rfl, rfl⟩⟩

/-- The transaction of `emettre` ends with a debt. -/
theorem numeroter_tient (d : Dossier) (annee : Int) :
    Tient requests t ((BillingService.numeroter d annee).transaction t)
      (fun r g => r = .ok () ∧ g = .dette d.id) .dehors := by
  refine ⟨trivial, fun γ next x e hi hg _ hn hok => ⟨.ouvert, ?_, ?_⟩⟩
  · refine hi.step (y := ((backend.tx locks).exec (.begin t) e x.1).2) rfl rfl
      ⟨[], Function.update_self _ _ _, fun _ => rfl⟩ (fun u hu => ?_) (by rw [hg]; rintro id ⟨⟩)
      (by rintro id ⟨⟩)
    exact (hi.session u).other rfl (Function.update_of_ne hu _ _) fun _ => Iff.rfl
  refine within_tient (fun _ _ => rfl) fun _ => within_tient (fun _ _ => rfl) fun derniere => ?_
  exact create_tient rfl

/-- `emettre` ends with a debt. -/
theorem emettre_tient (d : Dossier) :
    Tient requests t (BillingService.emettre t d) (fun r g => r = .ok () ∧ g = .dette d.id)
      .dehors := by
  refine Proto.safe_call trivial (fun γ s e hi hg => hi.auto (fun _ _ => ⟨rfl, rfl⟩) hg)
    fun γ s e _ _ => ?_
  refine Proto.safe_tryCatch.mpr (Proto.safe_mono ?_ (numeroter_tient d _))
  rintro _ _ ⟨rfl, rfl⟩
  exact ⟨rfl, rfl⟩

theorem facturer_tient (d : Dossier) :
    Tient requests t (Prog.left (BillingService.facturer d) : Req _).auto (fun _ g => g = .dehors)
      .dehors := by
  have hneutre : (BillingService.facturer d).Uses fun c => Neutre (.inl c) := by
    unfold BillingService.facturer
    split <;> trivial
  exact auto_tient (hneutre.left fun _ h => h) fun _ => rfl

/-- The end of `getInvoice`: the dossier is read again. -/
theorem relire_tient (userId : UserId) (role : Role) (bookingId : BookingId) :
    Tient requests t
      ((Prog.left (BillingService.dossierAutorise userId role bookingId) : Req _).auto >>= fun d =>
        (Prog.left (BillingService.facturer d) : Req _).auto)
      (fun _ g => g = .dehors) .dehors := by
  refine Proto.safe_bind.mpr (Proto.safe_mono ?_ (dossierAutorise_tient userId role bookingId))
  rintro (x | d) g ⟨rfl, -⟩
  · rfl
  · exact facturer_tient d

theorem getInvoice_tient (role : Role) (bookingId : BookingId) :
    Tient requests t (BillingService.getInvoice t (requests t).auteur role bookingId)
      (fun _ g => g = .dehors) .dehors := by
  refine Proto.safe_bind.mpr (Proto.safe_mono ?_ (dossierAutorise_tient _ role bookingId))
  rintro (x | dossier) g ⟨rfl, hid⟩
  · rfl
  obtain rfl := hid dossier rfl
  dsimp only
  split
  · refine Proto.safe_bind.mpr (Proto.safe_mono ?_ (emettre_tient dossier))
    rintro _ _ ⟨rfl, rfl⟩
    exact ⟨trivial, fun γ next x e hi hg _ _ _ =>
      ⟨.dehors, hi.audit hg, relire_tient (requests t).auteur role dossier.id⟩⟩
  · exact facturer_tient dossier

theorem update_neutre (ownerId : UserId) (packageId : PackageId) (dto : UpdatePackageDto) :
    (PackagesService.update ownerId packageId dto).Uses Neutre := by
  refine update_uses (fun _ _ _ => ⟨rfl, rfl⟩) (fun _ _ _ => ⟨rfl, rfl⟩) (fun id dto e s => ?_) _ _ _
  simp only [backend, exec]
  split <;> exact ⟨rfl, rfl⟩

/-- Every call keeps the protocol, and owes nothing at its end. -/
theorem handler_tient (requests : ι → InvoiceRequest) (t : ι) :
    Tient requests t (handler t (requests t)) (fun _ g => g = .dehors) .dehors := by
  rcases hq : requests t with ⟨userId, role, bookingId⟩ | ⟨ownerId, packageId, dto⟩
  · have hauteur : (requests t).auteur = userId := by
      rw [hq]
      rfl
    subst hauteur
    refine Proto.safe_bind.mpr (Proto.safe_mono ?_ (getInvoice_tient role bookingId))
    rintro (x | f) g rfl
    · rfl
    · rfl
  · refine Proto.safe_bind.mpr (Proto.safe_mono ?_
      (auto_tient (update_neutre ownerId packageId dto) (Q := fun _ g => g = .dehors) fun _ => rfl))
    rintro (x | f) g rfl
    · rfl
    · rfl

/-- The sessions, with their history. -/
def suivis (requests : ι → InvoiceRequest) (s : Db) (h : Createurs) :
    Pool (sig.tx ι) ι (Suivi ι) Erreur (Option InvoiceShape) :=
  ⟨(poolOf requests s).procs, ((poolOf requests s).st, h)⟩

/-- **One issue, one entry.** If the database rejects no creation of an invoice, then once all calls have
ended each booking with an invoice has one `invoice.issue` entry, of the user whose call has created the
invoice. -/
theorem issued_once (requests : ι → InvoiceRequest) {s : Db} {h : Createurs} (h₀ : Emise s h)
    {c : Pool (sig.tx ι) ι (Suivi ι) Erreur (Option InvoiceShape)}
    (hr : Pool.Reach ((backend.tx locks).noted (note requests)) (attend Neuve) (suivis requests s h) c)
    (hend : c.Finished) : UneFois c.st.1.db c.st.2 := by
  have hstart : (emission requests).Keeps ((backend.tx locks).noted (note requests)) (attend Neuve)
      (fun _ _ g => g = .dehors) (suivis requests s h) := by
    refine ⟨fun _ => .dehors, ⟨fun _ => trivial, fun id => (h₀ id).1, fun id => .inr ⟨?_, (h₀ id).2⟩⟩,
      handler_tient requests⟩
    rintro t ⟨⟩
  obtain ⟨γ, hi, hs⟩ := Proto.reach (fun _ _ _ _ => trivial) hstart hr
  have hdehors : ∀ t, γ t = .dehors := by
    intro t
    have ht := hs t
    have hnext := hend t
    unfold Pool.next at hnext
    rcases hp : c.procs t with a | x | ⟨q, k⟩ <;> rw [hp] at ht hnext
    · exact ht
    · exact ht
    · cases hnext
  intro id hf
  rw [← hi.cree id] at hf
  obtain ⟨u, hu⟩ := Option.isSome_iff_exists.mp hf
  refine ⟨u, hu, ?_⟩
  rcases hi.inscrite id with ⟨t, ht, -⟩ | ⟨-, hiss⟩
  · rw [hdehors t] at ht
    cases ht
  · rw [hiss, hu]
    rfl

end Protocol

/-! ## Runs on fixed inputs -/

/-- The pilgrim and the agency ask for the invoice. -/
private def appels : Fin 2 → InvoiceRequest
  | 0 => .getInvoice 0 .pilgrim 0
  | 1 => .getInvoice 1 .agency 0

private def reserve : Db := { Db.exemple with bookings := [Booking.exemple] }

private theorem reserve_emise : Emise reserve fun _ => none := fun _ => ⟨rfl, rfl⟩

/-- One after the other. -/
private def aTour : List (Fin 2 × Env) := turns [0, 0, 0, 0, 0, 0, 0, 0, 0, 1, 1]

/-- The agency reads the dossier before the invoice of the pilgrim is committed. -/
private def croises : List (Fin 2 × Env) :=
  turns [0, 1, 0, 1, 0, 1, 0, 0, 0, 0, 0, 0, 1, 1, 1, 1, 1, 1, 1]

private def facturation (sched : List (Fin 2 × Env)) :
    Pool (sig.tx (Fin 2)) (Fin 2) (Suivi (Fin 2)) Erreur (Option InvoiceShape) :=
  Pool.run ((backend.tx locks).noted (note appels)) sched (suivis appels reserve fun _ => none)

theorem issued_once_exemple :
    UneFois (facturation aTour).st.1.db (facturation aTour).st.2 := by
  have hallowed : Pool.Allowed ((backend.tx locks).noted (note appels)) (attend Neuve)
      (suivis appels reserve fun _ => none) aTour := by decide +kernel
  exact issued_once appels reserve_emise (hallowed.reach .refl) (by decide +kernel)

/-- The agency loses the race and writes an entry as well. -/
theorem issued_twice :
    ¬ ∀ (requests : Fin 2 → InvoiceRequest) (s : Db) (h : Createurs)
      (c : Pool (sig.tx (Fin 2)) (Fin 2) (Suivi (Fin 2)) Erreur (Option InvoiceShape)), Emise s h →
      Pool.Reach ((backend.tx locks).noted (note requests)) (attend fun _ _ => True)
        (suivis requests s h) c → c.Finished → UneFois c.st.1.db c.st.2 := by
  intro hall
  have hallowed : Pool.Allowed ((backend.tx locks).noted (note appels)) (attend fun _ _ => True)
      (suivis appels reserve fun _ => none) croises := by decide +kernel
  obtain ⟨u, -, hu⟩ := hall appels reserve _ (facturation croises) reserve_emise
    (hallowed.reach .refl) (by decide +kernel) 0 (by decide +kernel)
  have hdeux : ((issues (facturation croises).st.1.db 0).map (·.actorId)).length = 2 := by
    decide +kernel
  rw [hu] at hdeux
  cases hdeux

end OumraHajj.Invoices
