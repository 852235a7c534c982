import Mathlib.Data.List.Basic
import OumraHajj.Async.Pool

/-!
# Transactions at READ COMMITTED

Sessions over the statements of a signature `S`: `S.tx ι` has, for each session of `ι`, the begin,
the commit and the rollback of a transaction, the statements of `S` within it, and the statements
of `S` outside of a transaction.

* `TxState`: the committed state, the statements that each open transaction has executed, and the
  owner of each lock. A statement within a transaction sees the committed state of that moment
  with the transaction's own writes (`TxState.view`); other transactions see them after the commit.
* `locks c s`: the keys that the statement `c` locks in the state `s` that it sees (a row that it
  updates or reads `FOR UPDATE`, an entry of a unique index). A lock taken within a transaction is
  kept to its end. A statement that needs a lock of another session waits: `ready` is the condition
  of the schedules in which it does.
* `transaction t p`: the handler `p` as one transaction of the session `t`, rolled back if it
  throws an error. `auto p`: each statement of `p` on its own. When the requests follow each other,
  they run like `p` (`runs_transaction`, `runs_auto`).

`Discipline` is the proof rule. An invariant of the committed state, an assertion for each point of
an open transaction, over the locks that it holds, and a guarantee: what the holder of given locks
may do to the committed state. The assertions are stable under what the holders of other locks do
(`holds_stable`), so each transaction is checked alone (`Body`), and the invariant holds in every
interleaving (`safe_auto`, `safe_transaction`).
-/

namespace Async

/-- The statements of sessions (module doc). -/
inductive TxStmt (S : Sig) (ι : Type) where
  | auto (c : S.Stmt)
  | begin (t : ι)
  | within (t : ι) (c : S.Stmt)
  | commit (t : ι)
  | rollback (t : ι)

def TxStmt.Resp {S : Sig} {ι : Type} : TxStmt S ι → Type
  | .auto c => S.Resp c
  | .begin _ => Unit
  | .within _ c => S.Resp c
  | .commit _ => Unit
  | .rollback _ => Unit

/-- The signature of sessions. -/
abbrev Sig.tx (S : Sig) (ι : Type) : Sig := ⟨TxStmt S ι, TxStmt.Resp⟩

/-- The state of sessions (module doc). -/
structure TxState (S : Sig) (ι St Env K : Type) where
  db : St
  log : ι → Option (List (S.Stmt × Env)) := fun _ => none
  owner : K → Option ι := fun _ => none

namespace Prog

variable {S : Sig} {ι ε α β : Type}

/-- Each statement on its own. -/
def auto : Prog S ε α → Prog (S.tx ι) ε α
  | .ret a => .ret a
  | .fail e => .fail e
  | .call c k => .call (.auto c) fun r => (k r).auto

theorem auto_bind (p : Prog S ε α) (f : α → Prog S ε β) :
    (p >>= f).auto (ι := ι) = p.auto >>= fun a => (f a).auto := by
  induction p with
  | ret a => rfl
  | fail e => rfl
  | call c k ih => exact congrArg _ (funext ih)

/-- The rest of a transaction. -/
def inTx (t : ι) : Prog S ε α → Prog (S.tx ι) ε α
  | .ret a => .call (.commit t) fun _ => .ret a
  | .fail e => .call (.rollback t) fun _ => .fail e
  | .call c k => .call (.within t c) fun r => (k r).inTx t

/-- The handler as one transaction. -/
def transaction (t : ι) (p : Prog S ε α) : Prog (S.tx ι) ε α := .call (.begin t) fun _ => p.inTx t

end Prog

namespace Backend

variable {S : Sig} {ι St Env K : Type} (B : Backend S St Env)

/-- The state after the statements of a transaction. -/
def replay (log : List (S.Stmt × Env)) (s : St) : St :=
  log.foldl (fun s x => (B.exec x.1 x.2 s).2) s

variable {B}

@[simp] theorem replay_nil (s : St) : B.replay [] s = s := rfl

@[simp] theorem replay_append (log : List (S.Stmt × Env)) (c : S.Stmt) (e : Env) (s : St) :
    B.replay (log ++ [(c, e)]) s = (B.exec c e (B.replay log s)).2 := by
  rw [replay, List.foldl_append]
  rfl

/-- A log that writes nothing still writes nothing after a statement that only reads. -/
theorem replay_append_silent {log : List (S.Stmt × Env)} {c : S.Stmt} {e : Env}
    (hlog : ∀ s, B.replay log s = s) (hc : ∀ s, (B.exec c e s).2 = s) (s : St) :
    B.replay (log ++ [(c, e)]) s = s := by
  rw [replay_append, hlog, hc]

end Backend

namespace TxState

variable {S : Sig} {ι St Env K : Type} (B : Backend S St Env)

/-- What a statement of the session sees; without a session, the committed state. -/
def view (s : TxState S ι St Env K) : Option ι → St
  | some t => B.replay ((s.log t).getD []) s.db
  | none => s.db

variable [DecidableEq ι]

/-- The session takes the locks of `keys`. -/
def take [DecidableEq K] (t : ι) (keys : List K) (s : TxState S ι St Env K) :
    TxState S ι St Env K :=
  { s with owner := fun k => if k ∈ keys then some t else s.owner k }

/-- The end of the session's transaction: its locks are free. -/
def release (t : ι) (s : TxState S ι St Env K) : TxState S ι St Env K :=
  { s with
    log := Function.update s.log t none
    owner := fun k => if s.owner k = some t then none else s.owner k }

end TxState

section Backend

variable {S : Sig} {ι St Env K : Type} [DecidableEq ι] [DecidableEq K] (B : Backend S St Env)
  (locks : S.Stmt → St → List K)

/-- The backend of sessions. -/
def Backend.tx : Backend (S.tx ι) (TxState S ι St Env K) Env where
  exec
    | .auto c, e, s => ((B.exec c e s.db).1, { s with db := (B.exec c e s.db).2 })
    | .begin t, _, s => ((), { s with log := Function.update s.log t (some []) })
    | .within t c, e, s =>
      ((B.exec c e (s.view B (some t))).1,
        { s.take t (locks c (s.view B (some t))) with
          log := Function.update s.log t (some ((s.log t).getD [] ++ [(c, e)])) })
    | .commit t, _, s => ((), { s.release t with db := s.view B (some t) })
    | .rollback t, _, s => ((), s.release t)

/-- The statement of `S` that a session executes, and its transaction if it is in one. -/
def TxStmt.inner : TxStmt S ι → Option (Option ι × S.Stmt)
  | .auto c => some (none, c)
  | .within t c => some (some t, c)
  | _ => none

/-- The locks that the next statement needs are free or its own, and it satisfies `fits` in the
committed state. -/
def ready (fits : S.Stmt → St → Prop) : Pool.Cond (S.tx ι) ι (TxState S ι St Env K) Env :=
  fun next s t _ => ∀ x ∈ (next t).bind TxStmt.inner,
    (∀ k ∈ locks x.2 (s.view B x.1), s.owner k = none ∨ s.owner k = x.1) ∧ fits x.2 s.db

instance {fits : S.Stmt → St → Prop} [∀ c s, Decidable (fits c s)]
    (next : ι → Option (S.tx ι).Stmt) (s : TxState S ι St Env K) (t : ι) (e : Env) :
    Decidable (ready B locks fits next s t e) :=
  inferInstanceAs (Decidable (∀ _ ∈ _, _))

end Backend

/-! ## Sequential runs -/

section Sequential

variable {S : Sig} {ι St Env K ε α : Type} [DecidableEq ι] [DecidableEq K] {B : Backend S St Env}
  {locks : S.Stmt → St → List K} {x y : TxState S ι St Env K} {r : Except ε α}

/-- Statements on their own run on the committed state. -/
theorem runs_auto {p : Prog S ε α} (h : (B.tx locks).Runs p.auto x r y) : B.Runs p x.db r y.db := by
  induction p generalizing x with
  | ret a =>
    obtain ⟨rfl, rfl⟩ := h
    exact ⟨rfl, rfl⟩
  | fail e =>
    obtain ⟨rfl, rfl⟩ := h
    exact ⟨rfl, rfl⟩
  | call c k ih =>
    obtain ⟨e, h⟩ := h
    exact ⟨e, ih _ h⟩

omit [DecidableEq ι] [DecidableEq K] in
theorem view_some {t : ι} {log : List (S.Stmt × Env)} (hlog : x.log t = some log) :
    x.view B (some t) = B.replay log x.db := by
  rw [TxState.view, hlog]
  rfl

/-- The rest of a transaction runs after the statements that it has executed; an error leaves the
committed state as it is. -/
theorem runs_inTx {t : ι} {p : Prog S ε α} {log : List (S.Stmt × Env)} (hlog : x.log t = some log)
    (h : (B.tx locks).Runs (p.inTx t) x r y) :
    ∃ s, B.Runs p (B.replay log x.db) r s ∧
      ((∃ a, r = .ok a ∧ y.db = s) ∨ ∃ e, r = .error e ∧ y.db = x.db) := by
  induction p generalizing x log with
  | ret a =>
    obtain ⟨-, rfl, rfl⟩ := h
    exact ⟨_, ⟨rfl, rfl⟩, .inl ⟨a, rfl, view_some hlog⟩⟩
  | fail e =>
    obtain ⟨-, rfl, rfl⟩ := h
    exact ⟨_, ⟨rfl, rfl⟩, .inr ⟨e, rfl, rfl⟩⟩
  | call c k ih =>
    obtain ⟨e, h⟩ := h
    have hk : (B.tx locks).Runs ((k (B.exec c e (x.view B (some t))).1).inTx t)
      ((B.tx locks).exec (.within t c) e x).2 r y := h
    rw [view_some hlog] at hk
    have hlog' : ((B.tx locks).exec (.within t c) e x).2.log t = some (log ++ [(c, e)]) := by
      refine (Function.update_self ..).trans ?_
      rw [hlog]
      rfl
    have hdb : ((B.tx locks).exec (.within t c) e x).2.db = x.db := rfl
    obtain ⟨s, hs, hy⟩ := ih _ hlog' hk
    rw [hdb, Backend.replay_append] at hs
    rw [hdb] at hy
    exact ⟨s, ⟨e, hs⟩, hy⟩

/-- A transaction runs on the committed state, and leaves it as it is when it throws an error. -/
theorem runs_transaction {t : ι} {p : Prog S ε α} (h : (B.tx locks).Runs (p.transaction t) x r y) :
    ∃ s, B.Runs p x.db r s ∧
      ((∃ a, r = .ok a ∧ y.db = s) ∨ ∃ e, r = .error e ∧ y.db = x.db) := by
  obtain ⟨e, h⟩ := h
  have hlog : Function.update x.log t (some []) t = some ([] : List (S.Stmt × Env)) :=
    Function.update_self ..
  exact runs_inTx hlog h

end Sequential

/-- A proof rule for transactions (module doc). -/
structure Discipline (S : Sig) (St Env K : Type) where
  /-- The point that an open transaction has reached. -/
  Ph : Type
  /-- What a handler has learned. -/
  Kn : Type
  inv : St → Prop
  knows : Kn → St → Prop
  /-- The assertion at a point, over the locks held, the statements executed and the committed
  state. -/
  holds : Ph → (K → Prop) → List (S.Stmt × Env) → St → Prop
  /-- What the holder of locks may do to the committed state. -/
  guar : (K → Prop) → St → St → Prop
  knows_stable : ∀ {n h s s'}, inv s → knows n s → guar h s s' → knows n s'
  holds_stable : ∀ {p h h' log s s'}, inv s → holds p h log s → guar h' s s' →
    (∀ k, h k → ¬ h' k) → holds p h log s'

namespace Discipline

open Pool

variable {S : Sig} {ι St Env K ε α β : Type} [DecidableEq ι] [DecidableEq K]
  (D : Discipline S St Env K) (B : Backend S St Env) (locks : S.Stmt → St → List K)
  (fits : S.Stmt → St → Prop)

/-- The part of the invariant for a session: outside of a transaction it holds no lock. -/
def Session (s : TxState S ι St Env K) (t : ι) (g : D.Kn × Option D.Ph) : Prop :=
  D.knows g.1 s.db ∧
    match g.2 with
    | none => s.log t = none ∧ ∀ k, s.owner k ≠ some t
    | some p => ∃ log, s.log t = some log ∧ D.holds p (fun k => s.owner k = some t) log s.db

/-- The protocol of a discipline. -/
abbrev proto (ι : Type) [DecidableEq ι] : Proto (S.tx ι) ι (TxState S ι St Env K) where
  Gh := D.Kn × Option D.Ph
  inv γ s := D.inv s.db ∧ ∀ t, D.Session s t (γ t)
  place _ _ := True

/-- Thread `t` keeps the discipline and ends with `Q`. -/
abbrev Safe (t : ι) (p : Prog (S.tx ι) ε α) (Q : Except ε α → D.Kn → Prop) (n : D.Kn) : Prop :=
  (D.proto ι).Safe (B.tx locks) (ready B locks fits) t p (fun r g => g.2 = none ∧ Q r g.1) (n, none)

/-- A transaction that has reached the point `p` may commit at its end, and each of its statements
reaches a next point. -/
def Body (R : Except ε α → D.Kn → Prop) (n : D.Kn) : Prog S ε α → D.Ph → Prop
  | .ret a, p => ∀ h log s, D.inv s → D.knows n s → D.holds p h log s →
    D.inv (B.replay log s) ∧ D.guar h s (B.replay log s) ∧
      ∃ n', D.knows n' (B.replay log s) ∧ R (.ok a) n'
  | .fail e, _ => R (.error e) n
  | .call c k, p => ∀ h log s e, D.inv s → D.knows n s → D.holds p h log s → fits c s →
    ∃ p', D.holds p' (fun key => h key ∨ key ∈ locks c (B.replay log s)) (log ++ [(c, e)]) s ∧
      Body R n (k (B.exec c e (B.replay log s)).1) p'

variable {D B locks fits} {t : ι}

omit [DecidableEq ι] [DecidableEq K] in
/-- A statement of a transaction, and the rest with its answer. -/
theorem body_exec {c : S.Stmt} {f : S.Resp c → Prog S ε α} {R : Except ε α → D.Kn → Prop}
    {n : D.Kn} {p : D.Ph}
    (hc : ∀ h log s e, D.inv s → D.knows n s → D.holds p h log s → fits c s →
      ∃ p', D.holds p' (fun key => h key ∨ key ∈ locks c (B.replay log s)) (log ++ [(c, e)]) s ∧
        D.Body B locks fits R n (f (B.exec c e (B.replay log s)).1) p') :
    D.Body B locks fits R n (Prog.exec c >>= f) p := hc

omit [DecidableEq ι] [DecidableEq K] in
/-- Another session keeps its assertion when the committed state changes within the guarantee of
locks that it does not hold. -/
theorem Session.stable {s s' : TxState S ι St Env K} {u : ι} {g : D.Kn × Option D.Ph}
    {h : K → Prop} (hi : D.inv s.db) (hs : D.Session s u g) (hg : D.guar h s.db s'.db)
    (hlog : s'.log u = s.log u) (hown : ∀ k, s'.owner k = some u ↔ s.owner k = some u)
    (hfree : ∀ k, s.owner k = some u → ¬ h k) : D.Session s' u g := by
  obtain ⟨n, p⟩ := g
  refine ⟨D.knows_stable hi hs.1 hg, ?_⟩
  cases p with
  | none => exact ⟨by rw [hlog]; exact hs.2.1, fun k hk => hs.2.2 k ((hown k).mp hk)⟩
  | some p =>
    obtain ⟨log, hl, hh⟩ := hs.2
    refine ⟨log, by rw [hlog]; exact hl, ?_⟩
    have heq : (fun k => s'.owner k = some u) = fun k => s.owner k = some u :=
      funext fun k => propext (hown k)
    show D.holds p (fun k => s'.owner k = some u) log s'.db
    rw [heq]
    exact D.holds_stable hi hh hg hfree

omit [DecidableEq ι] [DecidableEq K] in
/-- A session keeps its assertion when only the locks and the transaction of another one change. -/
theorem Session.other {s s' : TxState S ι St Env K} {u : ι} {g : D.Kn × Option D.Ph}
    (hs : D.Session s u g) (hdb : s'.db = s.db) (hlog : s'.log u = s.log u)
    (hown : ∀ k, s'.owner k = some u ↔ s.owner k = some u) : D.Session s' u g := by
  obtain ⟨n, p⟩ := g
  have heq : (fun k => s'.owner k = some u) = fun k => s.owner k = some u :=
    funext fun k => propext (hown k)
  refine ⟨by rw [hdb]; exact hs.1, ?_⟩
  cases p with
  | none => exact ⟨by rw [hlog]; exact hs.2.1, fun k hk => hs.2.2 k ((hown k).mp hk)⟩
  | some p =>
    obtain ⟨log, hl, hh⟩ := hs.2
    refine ⟨log, by rw [hlog]; exact hl, ?_⟩
    show D.holds p (fun k => s'.owner k = some u) log s'.db
    rw [heq, hdb]
    exact hh

omit [DecidableEq K] in
/-- The invariant after a step of session `t`. -/
theorem proto_inv {γ : ι → D.Kn × Option D.Ph} {s : TxState S ι St Env K} {g : D.Kn × Option D.Ph}
    (hi : D.inv s.db) (ht : D.Session s t g) (hu : ∀ u, u ≠ t → D.Session s u (γ u)) :
    (D.proto ι).inv (Function.update γ t g) s := by
  refine ⟨hi, fun u => ?_⟩
  by_cases h : u = t
  · subst h
    rw [Function.update_self]
    exact ht
  · rw [Function.update_of_ne h]
    exact hu u h

omit [DecidableEq K] in
/-- The locks of a session that has ended are free, and those of the others are as they were. -/
theorem release_owner {s : TxState S ι St Env K} {t u : ι} (hu : u ≠ t) (k : K) :
    (s.release t).owner k = some u ↔ s.owner k = some u := by
  show (if s.owner k = some t then none else s.owner k) = some u ↔ _
  split
  · rename_i hk
    rw [hk]
    simp [Ne.symm hu]
  · exact Iff.rfl

omit [DecidableEq K] in
theorem release_none (s : TxState S ι St Env K) (t : ι) (k : K) :
    (s.release t).owner k ≠ some t := by
  show (if s.owner k = some t then none else s.owner k) ≠ some t
  split
  · simp
  · assumption

omit [DecidableEq ι] in
/-- The locks that a session takes are its own, and were not those of another one. -/
theorem take_owner {s : TxState S ι St Env K} {keys : List K}
    (hfree : ∀ k ∈ keys, s.owner k = none ∨ s.owner k = some t) {u : ι} (hu : u ≠ t) (k : K) :
    (s.take t keys).owner k = some u ↔ s.owner k = some u := by
  show (if k ∈ keys then some t else s.owner k) = some u ↔ _
  split
  · rename_i hk
    rcases hfree k hk with hnone | hown
    · rw [hnone]; simp [Ne.symm hu]
    · rw [hown]
  · exact Iff.rfl

omit [DecidableEq ι] in
theorem take_own (s : TxState S ι St Env K) (t : ι) (keys : List K) :
    (fun k => (s.take t keys).owner k = some t) = fun k => s.owner k = some t ∨ k ∈ keys := by
  funext k
  show ((if k ∈ keys then some t else s.owner k) = some t) = _
  by_cases hk : k ∈ keys <;> simp [hk]

/-- A statement on its own. -/
theorem safe_auto {c : S.Stmt} {k : S.Resp c → Prog (S.tx ι) ε α} {Q : Except ε α → D.Kn → Prop}
    {n : D.Kn}
    (h : ∀ s e, D.inv s → D.knows n s → fits c s →
      D.inv (B.exec c e s).2 ∧ D.guar (· ∈ locks c s) s (B.exec c e s).2 ∧
        ∃ n', D.knows n' (B.exec c e s).2 ∧ D.Safe B locks fits t (k (B.exec c e s).1) Q n') :
    D.Safe B locks fits t (.call (.auto c) k) Q n := by
  refine ⟨trivial, fun γ next s e hi hg _ hn hok => ?_⟩
  obtain ⟨hinv, hses⟩ := hi
  have ht := hses t
  rw [hg] at ht
  obtain ⟨hfree, hfit⟩ := hok (none, c) (by rw [hn]; rfl)
  obtain ⟨hinv', hguar, n', hn', hsafe⟩ := h s.db e hinv ht.1 hfit
  refine ⟨(n', none), proto_inv hinv' ⟨hn', ht.2⟩ fun u _ => ?_, hsafe⟩
  refine (hses u).stable hinv hguar rfl (fun _ => Iff.rfl) fun key hk hmem => ?_
  have hnone : s.owner key = none := by simpa using hfree key hmem
  rw [hnone] at hk
  cases hk

/-- A statement of a handler whose statements are each on their own. -/
theorem safe_auto_exec {c : S.Stmt} {f : S.Resp c → Prog S ε α} {Q : Except ε α → D.Kn → Prop}
    {n : D.Kn}
    (h : ∀ s e, D.inv s → D.knows n s → fits c s →
      D.inv (B.exec c e s).2 ∧ D.guar (· ∈ locks c s) s (B.exec c e s).2 ∧
        ∃ n', D.knows n' (B.exec c e s).2 ∧
          D.Safe B locks fits t (f (B.exec c e s).1).auto Q n') :
    D.Safe B locks fits t (Prog.exec c >>= f).auto Q n := safe_auto h

/-- Statements that keep the invariant within the guarantee, on their own. -/
theorem safe_uses {A : S.Stmt → Prop} {p : Prog S ε α} (hp : p.Uses A)
    (hA : ∀ c, A c → ∀ s e, D.inv s → fits c s →
      D.inv (B.exec c e s).2 ∧ D.guar (· ∈ locks c s) s (B.exec c e s).2)
    {Q : Except ε α → D.Kn → Prop} {n : D.Kn} (hQ : ∀ r, Q r n) :
    D.Safe B locks fits t p.auto Q n := by
  induction p with
  | ret a => exact ⟨rfl, hQ _⟩
  | fail e => exact ⟨rfl, hQ _⟩
  | call c k ih =>
    refine safe_auto fun s e hi hn hfit => ?_
    obtain ⟨hi', hg⟩ := hA c hp.1 s e hi hfit
    exact ⟨hi', hg, n, D.knows_stable hi hn hg, ih _ (hp.2 _)⟩

theorem safe_inTx {p : Prog S ε α} {R : Except ε α → D.Kn → Prop} {n : D.Kn} {ph : D.Ph}
    (hb : D.Body B locks fits R n p ph) :
    (D.proto ι).Safe (B.tx locks) (ready B locks fits) t (p.inTx t)
      (fun r g => g.2 = none ∧ R r g.1) (n, some ph) := by
  induction p generalizing ph with
  | ret a =>
    refine ⟨trivial, fun γ next s e hi hg _ hn hok => ?_⟩
    obtain ⟨hinv, hses⟩ := hi
    have ht := hses t
    rw [hg] at ht
    obtain ⟨hkn, log, hlog, hh⟩ := ht
    have hc := hb _ _ _ hinv hkn hh
    rw [show B.replay log s.db = s.view B (some t) by rw [TxState.view, hlog]; rfl] at hc
    obtain ⟨hinv', hguar, n', hn', hr⟩ := hc
    refine ⟨(n', none), proto_inv hinv' ⟨hn', Function.update_self _ _ _, release_none s t⟩
      fun u hu => ?_, rfl, hr⟩
    exact (hses u).stable hinv hguar (Function.update_of_ne hu _ _) (release_owner hu)
      fun k hk hk' => hu (Option.some.inj (hk.symm.trans hk'))
  | fail x =>
    refine ⟨trivial, fun γ next s e hi hg _ hn hok => ?_⟩
    obtain ⟨hinv, hses⟩ := hi
    have ht := hses t
    rw [hg] at ht
    refine ⟨(n, none), proto_inv hinv ⟨ht.1, Function.update_self _ _ _, release_none s t⟩
      fun u hu => ?_, rfl, hb⟩
    exact (hses u).other rfl (Function.update_of_ne hu _ _) (release_owner hu)
  | call c k ih =>
    refine ⟨trivial, fun γ next s e hi hg _ hn hok => ?_⟩
    obtain ⟨hinv, hses⟩ := hi
    have ht := hses t
    rw [hg] at ht
    obtain ⟨hkn, log, hlog, hh⟩ := ht
    obtain ⟨hfree, hfit⟩ := hok (some t, c) (by rw [hn]; rfl)
    obtain ⟨ph', hh', hbody⟩ := hb _ _ _ e hinv hkn hh hfit
    rw [show B.replay log s.db = s.view B (some t) by rw [TxState.view, hlog]; rfl] at hh' hbody
    refine ⟨(n, some ph'), proto_inv hinv ⟨hkn, log ++ [(c, e)], ?_, ?_⟩ fun u hu => ?_, ih _ hbody⟩
    · show Function.update s.log t (some ((s.log t).getD [] ++ [(c, e)])) t = _
      rw [Function.update_self, hlog]
      rfl
    · show D.holds ph' (fun k => (s.take t (locks c (s.view B (some t)))).owner k = some t)
        (log ++ [(c, e)]) s.db
      rw [take_own]
      exact hh'
    · exact (hses u).other rfl (Function.update_of_ne hu _ _) (take_owner hfree hu)

/-- A transaction, from its first point. -/
theorem safe_transaction {p : Prog S ε α} {Q : Except ε α → D.Kn → Prop} {n : D.Kn} (ph : D.Ph)
    (h₀ : ∀ s, D.inv s → D.knows n s → D.holds ph (fun _ => False) [] s)
    (hb : D.Body B locks fits Q n p ph) : D.Safe B locks fits t (p.transaction t) Q n := by
  refine ⟨trivial, fun γ next s e hi hg _ hn hok => ?_⟩
  obtain ⟨hinv, hses⟩ := hi
  have ht := hses t
  rw [hg] at ht
  refine ⟨(n, some ph), proto_inv hinv ⟨ht.1, [], Function.update_self _ _ _, ?_⟩ fun u hu => ?_,
    safe_inTx hb⟩
  · have hnone : (fun k => s.owner k = some t) = fun _ : K => False :=
      funext fun k => propext ⟨ht.2.2 k, False.elim⟩
    show D.holds ph (fun k => s.owner k = some t) [] s.db
    rw [hnone]
    exact h₀ s.db hinv ht.1
  · exact (hses u).other rfl (Function.update_of_ne hu _ _) fun _ => Iff.rfl

/-- The rest of a handler goes on from what its first part has learned. -/
theorem safe_bind {p : Prog (S.tx ι) ε α} {f : α → Prog (S.tx ι) ε β}
    {R : Except ε α → D.Kn → Prop} {Q : Except ε β → D.Kn → Prop} {n : D.Kn}
    (hp : D.Safe B locks fits t p R n)
    (hok : ∀ a n', R (.ok a) n' → D.Safe B locks fits t (f a) Q n')
    (herr : ∀ e n', R (.error e) n' → Q (.error e) n') : D.Safe B locks fits t (p >>= f) Q n := by
  refine Proto.safe_bind.mpr (Proto.safe_mono ?_ hp)
  rintro (e | a) ⟨n', o⟩ ⟨rfl, hr⟩
  · exact ⟨rfl, herr e n' hr⟩
  · exact hok a n' hr

/-- A handler that goes on after an error. -/
theorem safe_tryCatch {p : Prog (S.tx ι) ε α} {h : ε → Prog (S.tx ι) ε α}
    {R Q : Except ε α → D.Kn → Prop} {n : D.Kn} (hp : D.Safe B locks fits t p R n)
    (hok : ∀ a n', R (.ok a) n' → Q (.ok a) n')
    (herr : ∀ e n', R (.error e) n' → D.Safe B locks fits t (h e) Q n') :
    D.Safe B locks fits t (p.tryCatch h) Q n := by
  refine Proto.safe_tryCatch.mpr (Proto.safe_mono ?_ hp)
  rintro (e | a) ⟨n', o⟩ ⟨rfl, hr⟩
  · exact herr e n' hr
  · exact ⟨rfl, hok a n' hr⟩

/-- **Soundness.** If every handler keeps the discipline, the invariant holds in every state that a
schedule reaches, and what a handler that has ended has learned still holds. -/
theorem reach {Q : ι → Except ε α → D.Kn → Prop} {n : ι → D.Kn} {s : St}
    {procs : ι → Prog (S.tx ι) ε α} (hi : D.inv s) (hn : ∀ t, D.knows (n t) s)
    (hsafe : ∀ t, D.Safe B locks fits t (procs t) (Q t) (n t))
    {c : Pool (S.tx ι) ι (TxState S ι St Env K) ε α}
    (hr : Reach (B.tx locks) (ready B locks fits) ⟨procs, { db := s }⟩ c) :
    D.inv c.st.db ∧ ∀ t a, c.procs t = .ret a → ∃ n', Q t (.ok a) n' ∧ D.knows n' c.st.db := by
  have hstart : (D.proto ι).Keeps (B.tx locks) (ready B locks fits)
      (fun t r g => g.2 = none ∧ Q t r g.1) ⟨procs, { db := s }⟩ :=
    ⟨fun t => (n t, none), ⟨hi, fun t => ⟨hn t, rfl, fun _ => Option.some_ne_none _ ∘ Eq.symm⟩⟩, hsafe⟩
  obtain ⟨γ, ⟨hinv, hses⟩, hs⟩ := Proto.reach (fun _ _ _ _ => trivial) hstart hr
  refine ⟨hinv, fun t a ha => ?_⟩
  have ht := hs t
  rw [ha] at ht
  exact ⟨(γ t).1, ht.2, (hses t).1⟩

end Discipline

end Async
