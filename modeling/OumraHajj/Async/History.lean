import OumraHajj.Async.Pool

/-!
# Histories

A history variable records what has happened in a run and does not influence it.

* `RunWith h note x tr`: the requests of `tr` run one after the other, and `note` makes the history
  after a request from the history and the state before it, the request and its result.
* `RunAt h s tr`: the requests run one after the other, each with the environment that the trace gives.
* `Backend.noted note`: the backend whose state has a history of the statements; `Backend.logged note`: of the
  statements and their answers. An interleaved run with it is an interleaved run (`Pool.logged_run`).
* `Sig.tagged`, `Prog.tag t`: each statement with the handler that executes it, and `recorded note`:
  the backend of these statements whose state has a history. An interleaved run with a history is an
  interleaved run (`Pool.tagged_run`).
-/

namespace Async

variable {S : Sig} {ι Req St Env H ε α β : Type}

/-! ## Sequential runs -/

/-- A property of each step, proved from an invariant. -/
theorem Trace.Steps.of_inv {R D : St → Req → St → Prop} {I : St → Prop}
    (hI : ∀ s q s', I s → R s q s' → I s') (hD : ∀ s q s', I s → R s q s' → D s q s') {s : St}
    {tr : Trace Req St} (hr : Trace.Steps R s tr) (hs : I s) : Trace.Steps D s tr := by
  induction tr generalizing s with
  | nil => trivial
  | cons x tr ih => exact ⟨hD _ _ _ hs hr.1, ih hr.2 (hI _ _ _ hs hr.1)⟩

/-- What every step keeps holds of the last state. -/
theorem Trace.Steps.last {R : St → Req → St → Prop} {I : St → Prop}
    (hI : ∀ s q s', I s → R s q s' → I s') {s : St} {tr : Trace Req St}
    (hr : Trace.Steps R s tr) (hs : I s) : I (Trace.last s tr) := by
  induction tr generalizing s with
  | nil => exact hs
  | cons x tr ih => exact ih hr.2 (hI _ _ _ hs hr.1)

/-- Two properties that are equivalent at each step. -/
theorem Trace.Steps.iff {C D : St → Req → St → Prop} {s : St} {tr : Trace Req St}
    (h : Trace.Steps (fun s q s' => D s q s' ↔ C s q s') s tr) :
    Trace.Steps D s tr ↔ Trace.Steps C s tr := by
  induction tr generalizing s with
  | nil => exact Iff.rfl
  | cons x tr ih => exact and_congr h.1 (ih h.2)

/-- A trace in two parts. -/
theorem Trace.steps_append {R : St → Req → St → Prop} {s : St} {tr₁ tr₂ : Trace Req St} :
    Trace.Steps R s (tr₁ ++ tr₂) ↔ Trace.Steps R s tr₁ ∧ Trace.Steps R (Trace.last s tr₁) tr₂ := by
  induction tr₁ generalizing s with
  | nil => exact (and_iff_right trivial).symm
  | cons x tr₁ ih =>
    rw [List.cons_append, Trace.Steps, ih, Trace.Steps, and_assoc]
    rfl

namespace Backend

variable (B : Backend S St Env) (h : Req → Prog S ε α) (note : H → St → Req → Except ε α → H)

/-- The requests run one after the other, with a history (module doc). -/
def RunWith : St × H → Trace Req (St × H) → Prop :=
  Trace.Steps fun x q y => ∃ r, B.Runs (h q) x.1 r y.1 ∧ y.2 = note x.2 x.1 q r

/-- The run of the requests `qs` with its history, each request with an environment. -/
def evalWith : St × H → List (Req × Env) → Trace Req (St × H)
  | _, [] => []
  | x, (q, e) :: qs =>
    let r := B.eval e (h q) x.1
    (q, (r.2, note x.2 x.1 q r.1)) :: evalWith (r.2, note x.2 x.1 q r.1) qs

/-- The requests run one after the other, each in its environment (module doc). -/
def RunAt : St → Trace (Req × Env) St → Prop :=
  Trace.Steps fun s q s' => s' = (B.eval q.2 (h q.1) s).2

/-- The run of the requests `qs`, each in its environment. -/
def evalAt : St → List (Req × Env) → Trace (Req × Env) St
  | _, [] => []
  | s, q :: qs => (q, (B.eval q.2 (h q.1) s).2) :: evalAt (B.eval q.2 (h q.1) s).2 qs

variable {B h note}

theorem evalAt_run (s : St) (qs : List (Req × Env)) : B.RunAt h s (B.evalAt h s qs) := by
  induction qs generalizing s with
  | nil => trivial
  | cons q qs ih => exact ⟨rfl, ih _⟩

theorem evalWith_run (x : St × H) (qs : List (Req × Env)) :
    B.RunWith h note x (B.evalWith h note x qs) := by
  induction qs generalizing x with
  | nil => trivial
  | cons q qs ih => exact ⟨⟨_, eval_runs q.2 (h q.1) x.1, rfl⟩, ih _⟩

/-- Without its history, the run is a run. -/
theorem RunWith.run {x : St × H} {tr : Trace Req (St × H)} (hr : B.RunWith h note x tr) :
    B.Run h x.1 (tr.map fun y => (y.1, y.2.1)) := by
  induction tr generalizing x with
  | nil => trivial
  | cons y tr ih =>
    obtain ⟨⟨r, hy, -⟩, hr⟩ := hr
    exact ⟨⟨r, hy⟩, ih hr⟩

/-- Every run has a history. -/
theorem Run.withHistory {s : St} {tr : Trace Req St} (hr : B.Run h s tr) (a : H) :
    ∃ tr', B.RunWith h note (s, a) tr' ∧ tr'.map (fun y => (y.1, y.2.1)) = tr := by
  induction tr generalizing s a with
  | nil => exact ⟨[], trivial, rfl⟩
  | cons y tr ih =>
    obtain ⟨⟨r, hy⟩, hr⟩ := hr
    obtain ⟨tr', hr', rfl⟩ := ih hr (note a s y.1 r)
    exact ⟨(y.1, y.2, note a s y.1 r) :: tr', ⟨⟨r, hy, rfl⟩, hr'⟩, rfl⟩

end Backend

/-! ## Interleaved runs -/

/-- The backend with a history: `note` makes it from the statement and the state before it. -/
def Backend.noted (B : Backend S St Env) (note : S.Stmt → St → H → H) : Backend S (St × H) Env where
  exec c e x := ((B.exec c e x.1).1, ((B.exec c e x.1).2, note c x.1 x.2))

/-- The backend with a history of the statements and their answers (module doc). -/
def Backend.logged (B : Backend S St Env) (note : (c : S.Stmt) → S.Resp c → H → H) :
    Backend S (St × H) Env where
  exec c e x :=
    let r := B.exec c e x.1
    (r.1, (r.2, note c r.1 x.2))

namespace Pool

variable [DecidableEq ι] {B : Backend S St Env} {note : (c : S.Stmt) → S.Resp c → H → H}

/-- Without its history, a run is a run, and every run has a history. -/
theorem logged_run (sched : List (ι × Env)) (procs : ι → Prog S ε α) (s : St) (a : H) :
    ∃ a', run (B.logged note) sched ⟨procs, (s, a)⟩ =
      ⟨(run B sched ⟨procs, s⟩).procs, ((run B sched ⟨procs, s⟩).st, a')⟩ := by
  induction sched generalizing procs s a with
  | nil => exact ⟨a, rfl⟩
  | cons x sched ih =>
    simp only [run, List.foldl_cons, step]
    rcases procs x.1 with v | v | ⟨q, k⟩
    · exact ih procs s a
    · exact ih procs s a
    · exact ih _ _ _

end Pool

/-- The statements of `S`, each with the handler that executes it. -/
abbrev Sig.tagged (S : Sig) (ι : Type) : Sig := ⟨ι × S.Stmt, fun c => S.Resp c.2⟩

/-- The statements of the handler `t`. -/
def Prog.tag (t : ι) : Prog S ε α → Prog (S.tagged ι) ε α
  | .ret a => .ret a
  | .fail e => .fail e
  | .call c k => .call (t, c) fun r => (k r).tag t

theorem Prog.tag_bind (t : ι) (p : Prog S ε α) (f : α → Prog S ε β) :
    (p.bind f).tag t = (p.tag t).bind fun a => (f a).tag t := by
  induction p with
  | ret a => rfl
  | fail e => rfl
  | call c k ih => exact congrArg _ (funext ih)

theorem Prog.Uses.tag {A : S.Stmt → Prop} {p : Prog S ε α} (hp : p.Uses A) (t : ι) :
    (p.tag t).Uses fun c : ι × S.Stmt => A c.2 := by
  induction p with
  | ret a => trivial
  | fail e => trivial
  | call c k ih => exact ⟨hp.1, fun r => ih r (hp.2 r)⟩

/-- What a statement of a handler notes, from its answer and the state before it. -/
abbrev Note (S : Sig) (ι St H : Type) := ι → (c : S.Stmt) → S.Resp c → St → H → H

/-- The backend with a history (module doc). -/
def Backend.recorded (B : Backend S St Env) (note : Note S ι St H) :
    Backend (S.tagged ι) (St × H) Env where
  exec c e x :=
    let r := B.exec c.2 e x.1
    (r.1, (r.2, note c.1 c.2 r.1 x.1 x.2))

namespace Pool

variable [DecidableEq ι] {B : Backend S St Env} {note : Note S ι St H}

/-- The pool with a history. -/
def tagged (c : Pool S ι St ε α) (a : H) : Pool (S.tagged ι) ι (St × H) ε α :=
  ⟨fun t => (c.procs t).tag t, (c.st, a)⟩

theorem tagged_step (c : Pool S ι St ε α) (a : H) (t : ι) (e : Env) :
    ∃ a', step (B.recorded note) t e (c.tagged a) = (step B t e c).tagged a' := by
  rcases hq : c.procs t with x | x | ⟨q, k⟩
  · refine ⟨a, ?_⟩
    simp only [step, tagged, hq, Prog.tag]
  · refine ⟨a, ?_⟩
    simp only [step, tagged, hq, Prog.tag]
  · refine ⟨note t q (B.exec q e c.st).1 c.st a, ?_⟩
    simp only [step, tagged, hq, Prog.tag]
    refine congrArg₂ Pool.mk (funext fun u => ?_) rfl
    by_cases hu : u = t
    · subst hu
      simp only [Function.update_self]
      rfl
    · simp only [Function.update_of_ne hu]

/-- A run with a history is a run, and every run is one with a history. -/
theorem tagged_run (sched : List (ι × Env)) (c : Pool S ι St ε α) (a : H) :
    ∃ a', run (B.recorded note) sched (c.tagged a) = (run B sched c).tagged a' := by
  induction sched generalizing c a with
  | nil => exact ⟨a, rfl⟩
  | cons x sched ih =>
    obtain ⟨a', ha⟩ : ∃ a', step (B.recorded note) x.1 x.2 (c.tagged a) =
        (step B x.1 x.2 c).tagged a' := tagged_step c a x.1 x.2
    obtain ⟨a'', ha'⟩ := ih (step B x.1 x.2 c) a'
    refine ⟨a'', ?_⟩
    rw [run, List.foldl_cons, ha]
    exact ha'

end Pool

end Async
