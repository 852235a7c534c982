import OumraHajj.Async.Prog

/-!
# Sequential runs

Each request runs to completion before the next one starts.

* `B.Runs p s r s'`: from the state `s`, the handler `p` ends with `r` (a value or an error) in
  `s'`. Each statement gets an environment of its own, so nothing is assumed about the outside
  world. An error does not undo the statements executed before it.
* `B.restrict ok`: the backend whose environments satisfy `ok`.
* `B.Run h s tr`: the requests of the trace `tr`, each with the state after it, run one after
  the other from `s`, request `q` by the handler `h q`.
* `Trace.Steps R s tr`: every step of the trace, from `s` to `s'` by `q`, satisfies `R s q s'`.
  `Run.steps` proves such a property from an invariant, and `Run.steps_iff` characterises it by a
  condition on the state and the request before each step, when the invariant shows that a step
  that fails the condition fails the property.
-/

namespace Async

namespace Backend

variable {S : Sig} {St Env ε α β : Type} (B : Backend S St Env)

/-- The handler ends with `r` in `s'` (module doc). -/
def Runs : Prog S ε α → St → Except ε α → St → Prop
  | .ret a, s, r, s' => r = .ok a ∧ s' = s
  | .fail e, s, r, s' => r = .error e ∧ s' = s
  | .call c k, s, r, s' => ∃ e, Runs (k (B.exec c e s).1) (B.exec c e s).2 r s'

/-- The run in which the statement `c` gets the environment `env c`. -/
def evalBy (env : S.Stmt → Env) : Prog S ε α → St → Except ε α × St
  | .ret a, s => (.ok a, s)
  | .fail x, s => (.error x, s)
  | .call c k, s => evalBy env (k (B.exec c (env c) s).1) (B.exec c (env c) s).2

/-- The run in which every statement gets the environment `e`. -/
def eval (e : Env) (p : Prog S ε α) (s : St) : Except ε α × St := B.evalBy (fun _ => e) p s

variable {B}

@[simp] theorem runs_ret {a : α} {s s' : St} {r : Except ε α} :
    B.Runs (.ret a) s r s' ↔ r = .ok a ∧ s' = s := Iff.rfl

@[simp] theorem runs_fail {e : ε} {s s' : St} {r : Except ε α} :
    B.Runs (.fail e) s r s' ↔ r = .error e ∧ s' = s := Iff.rfl

theorem runs_call {c : S.Stmt} {k : S.Resp c → Prog S ε α} {s s' : St} {r : Except ε α} :
    B.Runs (.call c k) s r s' ↔ ∃ e, B.Runs (k (B.exec c e s).1) (B.exec c e s).2 r s' := Iff.rfl

/-- What holds of the rest, whatever the answer, holds of a statement and the rest. -/
theorem Runs.rest {c : S.Stmt} {k : S.Resp c → Prog S ε α} {s s' : St} {r : Except ε α} {P : Prop}
    (h : B.Runs (.call c k) s r s') (hk : ∀ a s₁, B.Runs (k a) s₁ r s' → P) : P := by
  obtain ⟨e, h⟩ := h
  exact hk _ _ h

/-- A statement, and the rest with its answer. -/
theorem runs_exec {c : S.Stmt} {f : S.Resp c → Prog S ε α} {s s' : St} {r : Except ε α} :
    B.Runs (Prog.exec c >>= f) s r s' ↔ ∃ e, B.Runs (f (B.exec c e s).1) (B.exec c e s).2 r s' :=
  Iff.rfl

theorem evalBy_runs (env : S.Stmt → Env) (p : Prog S ε α) (s : St) :
    B.Runs p s (B.evalBy env p s).1 (B.evalBy env p s).2 := by
  induction p generalizing s with
  | ret a => exact ⟨rfl, rfl⟩
  | fail x => exact ⟨rfl, rfl⟩
  | call c k ih => exact ⟨env c, ih _ _⟩

theorem eval_runs (e : Env) (p : Prog S ε α) (s : St) :
    B.Runs p s (B.eval e p s).1 (B.eval e p s).2 := evalBy_runs _ p s

/-- A run that is evaluated to a value. -/
theorem eval_runs_ok {e : Env} {p : Prog S ε α} {s : St}
    (h : (B.eval e p s).1.toOption.isSome = true) :
    B.Runs p s (.ok ((B.eval e p s).1.toOption.get h)) (B.eval e p s).2 := by
  have hr : (B.eval e p s).1 = .ok ((B.eval e p s).1.toOption.get h) := by
    revert h
    cases (B.eval e p s).1 <;> simp [Except.toOption]
  exact hr ▸ eval_runs e p s

/-- A run that is evaluated to a result. -/
theorem runs_of_eval {e : Env} {p : Prog S ε α} {s : St} {r : Except ε α}
    (h : (B.eval e p s).1 = r) : B.Runs p s r (B.eval e p s).2 := h ▸ eval_runs e p s

section EvalBy

variable {env : S.Stmt → Env}

@[simp] theorem evalBy_ret (a : α) (s : St) :
    B.evalBy env (.ret a : Prog S ε α) s = (.ok a, s) := rfl

@[simp] theorem evalBy_fail (x : ε) (s : St) :
    B.evalBy env (.fail x : Prog S ε α) s = (.error x, s) := rfl

@[simp] theorem evalBy_call (c : S.Stmt) (k : S.Resp c → Prog S ε α) (s : St) :
    B.evalBy env (.call c k) s = B.evalBy env (k (B.exec c (env c) s).1) (B.exec c (env c) s).2 :=
  rfl

/-- A statement that is answered. -/
theorem evalBy_answer {c : S.Stmt} {k : S.Resp c → Prog S ε α} {s s' : St} {a : S.Resp c}
    (h : B.exec c (env c) s = (a, s')) : B.evalBy env (.call c k) s = B.evalBy env (k a) s' := by
  rw [evalBy_call, h]

theorem evalBy_bind (p : Prog S ε α) (f : α → Prog S ε β) (s : St) :
    B.evalBy env (p.bind f) s =
      match B.evalBy env p s with
      | (.ok a, s₁) => B.evalBy env (f a) s₁
      | (.error x, s₁) => (.error x, s₁) := by
  induction p generalizing s with
  | ret a => rfl
  | fail x => rfl
  | call c k ih => exact ih _ _

/-- A first part that evaluates to a value. -/
theorem evalBy_bind_ok {p : Prog S ε α} {s s₁ : St} {a : α}
    (h : B.evalBy env p s = (.ok a, s₁)) (f : α → Prog S ε β) :
    B.evalBy env (p.bind f) s = B.evalBy env (f a) s₁ := by
  rw [evalBy_bind, h]

/-- What only makes the value leaves the state of the first part. -/
theorem evalBy_bind_ret (p : Prog S ε α) (f : α → β) (s : St) :
    (B.evalBy env (p.bind fun a => .ret (f a)) s).2 = (B.evalBy env p s).2 := by
  rw [evalBy_bind]
  rcases B.evalBy env p s with ⟨a | x, s₁⟩ <;> rfl

end EvalBy

/-- A sequence either runs both handlers or ends with the error of the first. -/
theorem runs_bind {p : Prog S ε α} {f : α → Prog S ε β} {s s' : St} {r : Except ε β} :
    B.Runs (p.bind f) s r s' ↔
      (∃ a s₁, B.Runs p s (.ok a) s₁ ∧ B.Runs (f a) s₁ r s') ∨
      (∃ e, B.Runs p s (.error e) s' ∧ r = .error e) := by
  induction p generalizing s with
  | ret a =>
    constructor
    · exact fun h => .inl ⟨a, s, ⟨rfl, rfl⟩, h⟩
    · rintro (⟨a', s₁, ⟨h, rfl⟩, h'⟩ | ⟨e, ⟨h, -⟩, -⟩) <;> cases h
      exact h'
  | fail e =>
    simp only [Prog.fail_bind, runs_fail]
    constructor
    · rintro ⟨rfl, rfl⟩; exact .inr ⟨e, ⟨rfl, rfl⟩, rfl⟩
    · rintro (⟨a, s₁, ⟨h, -⟩, -⟩ | ⟨e', ⟨h, rfl⟩, rfl⟩)
      · cases h
      · cases h; exact ⟨rfl, rfl⟩
  | call c k ih =>
    simp only [Prog.call_bind, runs_call, ih]
    constructor
    · rintro ⟨e, ⟨a, s₁, h, h'⟩ | ⟨x, h, h'⟩⟩
      · exact .inl ⟨a, s₁, ⟨e, h⟩, h'⟩
      · exact .inr ⟨x, ⟨e, h⟩, h'⟩
    · rintro (⟨a, s₁, ⟨e, h⟩, h'⟩ | ⟨x, ⟨e, h⟩, h'⟩)
      · exact ⟨e, .inl ⟨a, s₁, h, h'⟩⟩
      · exact ⟨e, .inr ⟨x, h, h'⟩⟩

theorem runs_void {p : Prog S ε α} {s s' : St} {r : Except ε Unit} (h : B.Runs p.void s r s') :
    ∃ r', B.Runs p s r' s' := by
  rcases runs_bind.mp h with ⟨a, s₁, hp, -, rfl⟩ | ⟨e, hp, -⟩
  · exact ⟨_, hp⟩
  · exact ⟨_, hp⟩

/-- A handler whose value is dropped refuses what it refuses. -/
theorem refuses_void {p : Prog S ε α} {s : St}
    (h : ∀ r s', B.Runs p s r s' → ∃ x, r = .error x) {r : Except ε Unit} {s' : St}
    (hr : B.Runs p.void s r s') : ∃ x, r = .error x := by
  rcases runs_bind.mp hr with ⟨a, s₁, hp, -⟩ | ⟨x, -, rfl⟩
  · obtain ⟨x, hx⟩ := h _ _ hp
    cases hx
  · exact ⟨x, rfl⟩

/-- **Frame rule.** A handler of statements that keep a reflexive and transitive relation between
the state before and the state after keeps it as a whole. -/
theorem Runs.frame {A : S.Stmt → Prop} {R : St → St → Prop} (refl : ∀ s, R s s)
    (trans : ∀ s₁ s₂ s₃, R s₁ s₂ → R s₂ s₃ → R s₁ s₃)
    (hA : ∀ c, A c → ∀ e s, R s (B.exec c e s).2) {p : Prog S ε α} (hp : p.Uses A) {s s' : St}
    {r : Except ε α} (h : B.Runs p s r s') : R s s' := by
  induction p generalizing s with
  | ret a => obtain ⟨-, rfl⟩ := h; exact refl _
  | fail e => obtain ⟨-, rfl⟩ := h; exact refl _
  | call c k ih =>
    obtain ⟨e, h⟩ := h
    exact trans _ _ _ (hA c hp.1 e s) (ih _ (hp.2 _) h)

/-- The environments are among those that satisfy `ok` (module doc). -/
def restrict (B : Backend S St Env) (ok : Env → Prop) : Backend S St {e // ok e} :=
  ⟨fun c e s => B.exec c e.1 s⟩

@[simp] theorem restrict_exec (ok : Env → Prop) (c : S.Stmt) (e : {e // ok e}) (s : St) :
    (B.restrict ok).exec c e s = B.exec c e.1 s := rfl

theorem restrict_true {p : Prog S ε α} {s s' : St} {r : Except ε α} :
    (B.restrict fun _ => True).Runs p s r s' ↔ B.Runs p s r s' := by
  induction p generalizing s with
  | ret a => rfl
  | fail x => rfl
  | call c k ih =>
    constructor
    · rintro ⟨e, h⟩
      exact ⟨e.1, (ih _).mp h⟩
    · rintro ⟨e, h⟩
      exact ⟨⟨e, trivial⟩, (ih _).mpr h⟩

/-- A run in such environments is a run. -/
theorem Runs.of_restrict {ok : Env → Prop} {p : Prog S ε α} {s s' : St} {r : Except ε α}
    (h : (B.restrict ok).Runs p s r s') : B.Runs p s r s' := by
  induction p generalizing s with
  | ret a => exact h
  | fail x => exact h
  | call c k ih =>
    obtain ⟨e, h⟩ := h
    exact ⟨e.1, ih _ h⟩

end Backend

/-! ## Traces of requests -/

/-- The requests of a run, each with the state after it. -/
abbrev Trace (Req St : Type) := List (Req × St)

variable {Req St : Type}

/-- Every step of the trace satisfies `R` (module doc). -/
def Trace.Steps (R : St → Req → St → Prop) : St → Trace Req St → Prop
  | _, [] => True
  | s, (q, s') :: tr => R s q s' ∧ Trace.Steps R s' tr

instance Trace.decidableSteps {R : St → Req → St → Prop} [∀ s q s', Decidable (R s q s')] :
    (s : St) → (tr : Trace Req St) → Decidable (Trace.Steps R s tr)
  | _, [] => isTrue trivial
  | s, (q, s') :: tr =>
    have := Trace.decidableSteps (R := R) s' tr
    inferInstanceAs (Decidable (R s q s' ∧ Trace.Steps R s' tr))

/-- The state after the trace. -/
def Trace.last : St → Trace Req St → St
  | s, [] => s
  | _, (_, s') :: tr => Trace.last s' tr

theorem Trace.Steps.imp {R R' : St → Req → St → Prop} (h : ∀ s q s', R s q s' → R' s q s') {s : St}
    {tr : Trace Req St} (ht : Trace.Steps R s tr) : Trace.Steps R' s tr := by
  induction tr generalizing s with
  | nil => trivial
  | cons x tr ih => exact ⟨h _ _ _ ht.1, ih ht.2⟩

/-- A property of the state after each step is one of every state in the trace. -/
theorem Trace.steps_after {P : St → Prop} {s : St} {tr : Trace Req St} :
    Trace.Steps (fun _ _ s' => P s') s tr ↔ ∀ x ∈ tr, P x.2 := by
  induction tr generalizing s with
  | nil => simp [Trace.Steps]
  | cons x tr ih => simp [Trace.Steps, ih]

namespace Backend

variable {S : Sig} {Env ε α : Type} (B : Backend S St Env) (h : Req → Prog S ε α)

/-- The requests of the trace run one after the other (module doc). -/
def Run : St → Trace Req St → Prop := Trace.Steps fun s q s' => ∃ r, B.Runs (h q) s r s'

/-- The run of the requests `qs` in which every statement gets the environment `e`. -/
def evalAll (e : Env) : St → List Req → Trace Req St
  | _, [] => []
  | s, q :: qs => (q, (B.eval e (h q) s).2) :: evalAll e (B.eval e (h q) s).2 qs

variable {B h}

theorem evalAll_run (e : Env) (s : St) (qs : List Req) : B.Run h s (B.evalAll h e s qs) := by
  induction qs generalizing s with
  | nil => trivial
  | cons q qs ih => exact ⟨⟨_, eval_runs e (h q) s⟩, ih _⟩

theorem evalAll_requests (e : Env) (s : St) (qs : List Req) :
    (B.evalAll h e s qs).map Prod.fst = qs := by
  induction qs generalizing s with
  | nil => rfl
  | cons q qs ih => exact congrArg _ (ih _)

/-- What an invariant shows of each step holds of every step of a run. -/
theorem Run.steps {I : St → Prop} {A : Req → Prop} {C D : St → Req → St → Prop}
    (hstep : ∀ s q r s', I s → A q → C s q s' → B.Runs (h q) s r s' → I s' ∧ D s q s') {s : St}
    {tr : Trace Req St} (hr : B.Run h s tr) (hA : ∀ x ∈ tr, A x.1) (hs : I s)
    (hC : Trace.Steps C s tr) : Trace.Steps D s tr ∧ I (Trace.last s tr) := by
  induction tr generalizing s with
  | nil => exact ⟨trivial, hs⟩
  | cons x tr ih =>
    obtain ⟨⟨r, hx⟩, hr⟩ := hr
    obtain ⟨hI, hD⟩ := hstep _ _ _ _ hs (hA x List.mem_cons_self) hC.1 hx
    obtain ⟨h₁, h₂⟩ := ih hr (fun y hy => hA y (List.mem_cons_of_mem _ hy)) hI hC.2
    exact ⟨⟨hD, h₁⟩, h₂⟩

/-- **Exact condition.** If the condition `C` keeps the invariant and establishes `D`, and a step
from the invariant that fails `C` fails `D`, then a run has `D` at every step exactly when it has
`C` at every step. -/
theorem Run.steps_iff {I : St → Prop} {A : Req → Prop} {C : St → Req → Prop}
    {D : St → Req → St → Prop}
    (hok : ∀ s q r s', I s → A q → B.Runs (h q) s r s' → C s q → I s' ∧ D s q s')
    (hbad : ∀ s q r s', I s → A q → B.Runs (h q) s r s' → ¬ C s q → ¬ D s q s') {s : St}
    {tr : Trace Req St} (hr : B.Run h s tr) (hA : ∀ x ∈ tr, A x.1) (hs : I s) :
    Trace.Steps D s tr ↔ Trace.Steps (fun s q _ => C s q) s tr := by
  induction tr generalizing s with
  | nil => exact Iff.rfl
  | cons x tr ih =>
    obtain ⟨⟨r, hx⟩, hr⟩ := hr
    have hA' : ∀ y ∈ tr, A y.1 := fun y hy => hA y (List.mem_cons_of_mem _ hy)
    have hAx : A x.1 := hA x List.mem_cons_self
    constructor
    · rintro ⟨hD, hDs⟩
      by_cases hC : C s x.1
      · exact ⟨hC, (ih hr hA' (hok _ _ _ _ hs hAx hx hC).1).mp hDs⟩
      · exact absurd hD (hbad _ _ _ _ hs hAx hx hC)
    · rintro ⟨hC, hCs⟩
      obtain ⟨hI, hD⟩ := hok _ _ _ _ hs hAx hx hC
      exact ⟨hD, (ih hr hA' hI).mpr hCs⟩

end Backend

end Async
