import Mathlib.Logic.Basic

/-!
# Programs of atomic statements

A request handler of an asynchronous backend runs in its own thread of control and touches shared
state only in statements: a database query, a call of an outside service, a read of the clock.
`Prog S ε α` is the tree of one handler. It returns a value of type `α`, throws an error of type
`ε`, or executes a statement of the signature `S` and goes on with its answer. What a statement
does to the state is not part of the tree (`Backend`), so the same handler has a sequential
reading (`Sequential.lean`) and an interleaved one (`Pool.lean`).

* `Prog.bind` is sequencing; an error ends the handler. With it `Prog S ε` is a lawful monad, so
  handlers are written in `do` notation.
* `Prog.tryCatch` goes on after an error.
* `Prog.left` is the handler among those of a larger signature `S.sum T`.
* `Prog.next` is the statement that the handler executes next.
* `Prog.Uses A`: every statement that the handler may execute satisfies `A`.
-/

namespace Async

/-- The statements of a backend, each with the type of its answer. -/
structure Sig where
  Stmt : Type
  Resp : Stmt → Type

/-- The statements of two signatures together. -/
abbrev Sig.sum (S T : Sig) : Sig := ⟨S.Stmt ⊕ T.Stmt, Sum.elim S.Resp T.Resp⟩

/-- A handler (module doc). -/
inductive Prog (S : Sig) (ε α : Type) : Type where
  | ret (a : α)
  | fail (e : ε)
  | call (c : S.Stmt) (k : S.Resp c → Prog S ε α)

/-- What a backend does when it executes a statement in an environment: the environment is what
the outside world contributes to this execution (the time, the answer of a service). -/
structure Backend (S : Sig) (St Env : Type) where
  exec : (c : S.Stmt) → Env → St → S.Resp c × St

namespace Prog

variable {S : Sig} {ε α β γ : Type}

/-- Sequencing: `f` goes on with the value of the first handler; an error ends both. -/
def bind : Prog S ε α → (α → Prog S ε β) → Prog S ε β
  | .ret a, f => f a
  | .fail e, _ => .fail e
  | .call c k, f => .call c fun r => (k r).bind f

instance : Monad (Prog S ε) where
  pure := .ret
  bind := .bind

@[simp] theorem pure_eq (a : α) : (pure a : Prog S ε α) = .ret a := rfl

@[simp] theorem bind_eq (p : Prog S ε α) (f : α → Prog S ε β) : p >>= f = p.bind f := rfl

@[simp] theorem ret_bind (a : α) (f : α → Prog S ε β) : (Prog.ret a).bind f = f a := rfl

@[simp] theorem fail_bind (e : ε) (f : α → Prog S ε β) : (Prog.fail e).bind f = .fail e := rfl

@[simp] theorem call_bind (c : S.Stmt) (k : S.Resp c → Prog S ε α) (f : α → Prog S ε β) :
    (Prog.call c k).bind f = .call c fun r => (k r).bind f := rfl

theorem bind_ret (p : Prog S ε α) : p.bind .ret = p := by
  induction p with
  | ret a => rfl
  | fail e => rfl
  | call c k ih => rw [call_bind]; exact congrArg _ (funext ih)

theorem bind_assoc (p : Prog S ε α) (f : α → Prog S ε β) (g : β → Prog S ε γ) :
    (p.bind f).bind g = p.bind fun a => (f a).bind g := by
  induction p with
  | ret a => rfl
  | fail e => rfl
  | call c k ih => simp only [call_bind]; exact congrArg _ (funext ih)

instance : LawfulMonad (Prog S ε) :=
  LawfulMonad.mk' _ bind_ret (fun _ _ => rfl) bind_assoc

/-- The handler that only executes `c` and returns its answer. -/
def exec (c : S.Stmt) : Prog S ε (S.Resp c) := .call c .ret

@[simp] theorem exec_bind (c : S.Stmt) (f : S.Resp c → Prog S ε α) :
    (Prog.exec c : Prog S ε _).bind f = .call c f := rfl

/-- The same handler, its value dropped. -/
def void (p : Prog S ε α) : Prog S ε Unit := p.bind fun _ => .ret ()

/-- `catch`: `h` goes on after an error. -/
def tryCatch : Prog S ε α → (ε → Prog S ε α) → Prog S ε α
  | .ret a, _ => .ret a
  | .fail e, h => h e
  | .call c k, h => .call c fun r => (k r).tryCatch h

/-- The statement that the handler executes next: none once it has ended. -/
def next : Prog S ε α → Option S.Stmt
  | .call c _ => some c
  | _ => none

/-- The same handler among those that also execute the statements of `T`. -/
def left {T : Sig} : Prog S ε α → Prog (S.sum T) ε α
  | .ret a => .ret a
  | .fail e => .fail e
  | .call c k => .call (.inl c) fun r => (k r).left

@[simp] theorem next_ret (a : α) : (Prog.ret a : Prog S ε α).next = none := rfl

@[simp] theorem next_fail (e : ε) : (Prog.fail e : Prog S ε α).next = none := rfl

@[simp] theorem next_call (c : S.Stmt) (k : S.Resp c → Prog S ε α) :
    (Prog.call c k).next = some c := rfl

/-! ## The statements of a handler -/

/-- Every statement that the handler may execute, whatever the answers, satisfies `A`. -/
def Uses (A : S.Stmt → Prop) : Prog S ε α → Prop
  | .ret _ => True
  | .fail _ => True
  | .call c k => A c ∧ ∀ r, (k r).Uses A

@[simp] theorem uses_ret (A : S.Stmt → Prop) (a : α) : (Prog.ret a : Prog S ε α).Uses A := trivial

@[simp] theorem uses_fail (A : S.Stmt → Prop) (e : ε) : (Prog.fail e : Prog S ε α).Uses A := trivial

theorem uses_exec {A : S.Stmt → Prop} {c : S.Stmt} (h : A c) :
    (Prog.exec c : Prog S ε _).Uses A := ⟨h, fun _ => trivial⟩

theorem uses_exec_bind {A : S.Stmt → Prop} {c : S.Stmt} {f : S.Resp c → Prog S ε α} (h : A c)
    (hf : ∀ r, (f r).Uses A) : (Prog.exec c >>= f).Uses A := ⟨h, hf⟩

theorem uses_true (p : Prog S ε α) : p.Uses fun _ => True := by
  induction p with
  | ret a => trivial
  | fail e => trivial
  | call c k ih => exact ⟨trivial, ih⟩

theorem Uses.mono {A A' : S.Stmt → Prop} {p : Prog S ε α} (hp : p.Uses A) (h : ∀ c, A c → A' c) :
    p.Uses A' := by
  induction p with
  | ret a => trivial
  | fail e => trivial
  | call c k ih => exact ⟨h c hp.1, fun r => ih r (hp.2 r)⟩

theorem Uses.left {T : Sig} {A : S.Stmt → Prop} {A' : (S.sum T).Stmt → Prop}
    (h : ∀ c, A c → A' (.inl c)) {p : Prog S ε α} (hp : p.Uses A) : (p.left (T := T)).Uses A' := by
  induction p with
  | ret a => trivial
  | fail e => trivial
  | call c k ih => exact ⟨h c hp.1, fun r => ih r (hp.2 r)⟩

theorem uses_left_exec_bind {T : Sig} {A : (S.sum T).Stmt → Prop} {c : S.Stmt}
    {f : S.Resp c → Prog (S.sum T) ε α} (h : A (.inl c)) (hf : ∀ r, (f r).Uses A) :
    ((Prog.exec c).left >>= f).Uses A := ⟨h, hf⟩

theorem Uses.bind {A : S.Stmt → Prop} {p : Prog S ε α} {f : α → Prog S ε β} (hp : p.Uses A)
    (hf : ∀ a, (f a).Uses A) : (p.bind f).Uses A := by
  induction p with
  | ret a => exact hf a
  | fail e => trivial
  | call c k ih => exact ⟨hp.1, fun r => ih r (hp.2 r)⟩

theorem uses_left {T : Sig} {A : (S.sum T).Stmt → Prop} (h : ∀ c, A (.inl c)) (p : Prog S ε α) :
    (p.left (T := T)).Uses A := by
  induction p with
  | ret a => trivial
  | fail e => trivial
  | call c k ih => exact ⟨h c, ih⟩

theorem Uses.void {A : S.Stmt → Prop} {p : Prog S ε α} (hp : p.Uses A) : p.void.Uses A :=
  hp.bind fun _ => trivial

/-! ## The statements of a handler that a backend answers -/

section Performs

variable {St Env : Type} (B : Backend S St Env) (A : S.Stmt → Prop)

/-- Every statement that the handler executes satisfies `A`, if the backend answers it, in whatever states;
and the handler ends with `Q`. -/
def Performs : Prog S ε α → (Except ε α → Prop) → Prop
  | .ret a, Q => Q (.ok a)
  | .fail e, Q => Q (.error e)
  | .call c k, Q => A c ∧ ∀ e s, Performs (k (B.exec c e s).1) Q

variable {B A}

theorem Performs.mono {p : Prog S ε α} {Q Q' : Except ε α → Prop} (hQ : ∀ r, Q r → Q' r)
    (hp : p.Performs B A Q) : p.Performs B A Q' := by
  induction p with
  | ret a => exact hQ _ hp
  | fail e => exact hQ _ hp
  | call c k ih => exact ⟨hp.1, fun e s => ih _ (hp.2 e s)⟩

theorem Performs.bind {p : Prog S ε α} {f : α → Prog S ε β} {Q : Except ε β → Prop}
    (hp : p.Performs B A fun r => match r with
      | .ok a => (f a).Performs B A Q
      | .error e => Q (.error e)) : (p.bind f).Performs B A Q := by
  induction p with
  | ret a => exact hp
  | fail e => exact hp
  | call c k ih => exact ⟨hp.1, fun e s => ih _ (hp.2 e s)⟩

theorem Uses.performs {A' : S.Stmt → Prop} {p : Prog S ε α} (hp : p.Uses A') (h : ∀ c, A' c → A c)
    {Q : Except ε α → Prop} (hQ : ∀ r, Q r) : p.Performs B A Q := by
  induction p with
  | ret a => exact hQ _
  | fail e => exact hQ _
  | call c k ih => exact ⟨h c hp.1, fun _ _ => ih _ (hp.2 _)⟩

/-- A first part whatever its value, and the rest. -/
theorem Performs.after {p : Prog S ε α} {f : α → Prog S ε β} {Q : Except ε β → Prop} (hp : p.Uses A)
    (hf : ∀ a, (f a).Performs B A Q) (hx : ∀ e, Q (.error e)) : (p.bind f).Performs B A Q := by
  induction p with
  | ret a => exact hf a
  | fail e => exact hx e
  | call c k ih => exact ⟨hp.1, fun _ _ => ih _ (hp.2 _)⟩

end Performs

end Prog

end Async
