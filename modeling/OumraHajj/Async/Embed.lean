import OumraHajj.Async.Rely

/-!
# Handlers among the statements of a larger backend

* `Sig.Hom`: the statements of a backend as statements of a larger one, with their answers.
  `Prog.via`: a handler of the smaller one as a handler of the larger one.
* `Prog.expand φ`: each statement `c` of a handler replaced by the handler `φ c` of another backend.
* `Backend.Extends`: the larger backend executes the statements `A` of the smaller one on a part `proj`
  of its state. What a handler keeps in the smaller one it keeps in the larger one (`Keeps.left`, and
  `Keeps.extend` for a larger invariant), and it runs there as in the smaller one (`runs_of_left`).
* `Portion St' St`: a part of a state, read and written. Where the statements act on the part alone
  (`Backend.ActsOn`), a handler of the smaller backend leaves the rest of the state (`runs_portion`).
-/

namespace Async

variable {S T : Sig} {St Env ε α β : Type}

/-- Statements as statements of another signature (module doc). -/
structure Sig.Hom (S T : Sig) where
  stmt : S.Stmt → T.Stmt
  resp : ∀ c, T.Resp (stmt c) → S.Resp c

/-- The statements of the second part of a larger signature. -/
def Sig.inr : T.Hom (S.sum T) where
  stmt := .inr
  resp _ := id

namespace Prog

/-- The same handler with the statements of another signature. -/
def via (φ : S.Hom T) : Prog S ε α → Prog T ε α
  | .ret a => .ret a
  | .fail e => .fail e
  | .call c k => .call (φ.stmt c) fun r => (k (φ.resp c r)).via φ

theorem via_bind (φ : S.Hom T) (p : Prog S ε α) (f : α → Prog S ε β) :
    (p.bind f).via φ = (p.via φ).bind fun a => (f a).via φ := by
  induction p with
  | ret a => rfl
  | fail e => rfl
  | call c k ih => exact congrArg _ (funext fun r => ih _)

theorem Uses.via {φ : S.Hom T} {A : S.Stmt → Prop} {A' : T.Stmt → Prop}
    (h : ∀ c, A c → A' (φ.stmt c)) {p : Prog S ε α} (hp : p.Uses A) : (p.via φ).Uses A' := by
  induction p with
  | ret a => trivial
  | fail e => trivial
  | call c k ih => exact ⟨h c hp.1, fun r => ih _ (hp.2 _)⟩

theorem left_bind (p : Prog S ε α) (f : α → Prog S ε β) :
    ((p.bind f).left : Prog (S.sum T) ε β) = p.left.bind fun a => (f a).left := by
  induction p with
  | ret a => rfl
  | fail e => rfl
  | call c k ih => exact congrArg _ (funext fun r => ih _)

end Prog

namespace Prog

/-- Each statement replaced by a handler. -/
def expand (φ : ∀ c : S.Stmt, Prog T ε (S.Resp c)) : Prog S ε α → Prog T ε α
  | .ret a => .ret a
  | .fail e => .fail e
  | .call c k => (φ c).bind fun r => (k r).expand φ

variable {φ : ∀ c : S.Stmt, Prog T ε (S.Resp c)}

theorem expand_bind (p : Prog S ε α) (f : α → Prog S ε β) :
    (p.bind f).expand φ = (p.expand φ).bind fun a => (f a).expand φ := by
  induction p with
  | ret a => rfl
  | fail e => rfl
  | call c k ih =>
    show (φ c).bind _ = ((φ c).bind _).bind _
    rw [bind_assoc]
    exact congrArg _ (funext ih)

/-- A handler none of whose statements is replaced. -/
theorem expand_eq_left {φ : ∀ c : S.Stmt, Prog (S.sum T) ε (S.Resp c)} {A : S.Stmt → Prop}
    (hφ : ∀ c, A c → φ c = Prog.exec (S := S.sum T) (.inl c)) {p : Prog S ε α} (hp : p.Uses A) :
    p.expand φ = p.left := by
  induction p with
  | ret a => rfl
  | fail e => rfl
  | call c k ih =>
    show (φ c).bind _ = _
    rw [hφ c hp.1]
    exact congrArg _ (funext fun r => ih r (hp.2 r))

end Prog

section Extends

variable {St' Env' : Type} {A : S.Stmt → Prop} {B : Backend S St Env}
  {B' : Backend (S.sum T) St' Env'} {proj : St' → St} {env : Env' → Env}

/-- The statements of the smaller backend act on a part of the state (module doc). -/
def Backend.Extends (A : S.Stmt → Prop) (B : Backend S St Env) (B' : Backend (S.sum T) St' Env')
    (proj : St' → St) (env : Env' → Env) : Prop :=
  ∀ c, A c → ∀ e s, B.exec c (env e) (proj s) = ((B'.exec (.inl c) e s).1, proj (B'.exec (.inl c) e s).2)

/-- An invariant of a part of the state. -/
def Rely.comap (D : Rely St) (proj : St' → St) : Rely St' where
  inv s := D.inv (proj s)
  le s s' := D.le (proj s) (proj s')
  refl _ := D.refl _
  trans _ _ _ := D.trans _ _ _

theorem Rely.Keeps.left {D : Rely St} (hB : Backend.Extends A B B' proj env)
    {ok : S.Stmt → St → Env → Prop} {ok' : (S.sum T).Stmt → St' → Env' → Prop}
    (hok : ∀ c s e, ok' (.inl c) s e → ok c (proj s) (env e)) {p : Prog S ε α} (hp : p.Uses A) {s : St'}
    {Q : Except ε α → St → Prop} (h : D.Keeps B ok p (proj s) Q) :
    (D.comap proj).Keeps B' ok' p.left s fun r s' => Q r (proj s') := by
  induction p generalizing s with
  | ret a => exact h
  | fail x => exact h
  | call c k ih =>
    intro s' e hi hle ho
    obtain ⟨hi', hle', hk⟩ := h (proj s') (env e) hi hle (hok c s' e ho)
    rw [hB c hp.1 e s'] at hi' hle' hk
    exact ⟨hi', hle', ih _ (hp.2 _) hk⟩

/-- A larger invariant: the handler keeps it where its statements do. -/
theorem Rely.Keeps.extend {D : Rely St} {D' : Rely St'} (hB : Backend.Extends A B B' proj env)
    {ok : S.Stmt → St → Env → Prop} {ok' : (S.sum T).Stmt → St' → Env' → Prop}
    (hok : ∀ c s e, ok' (.inl c) s e → ok c (proj s) (env e)) (hinv : ∀ s, D'.inv s → D.inv (proj s))
    (hle : ∀ s s', D'.le s s' → D.le (proj s) (proj s'))
    (hstep : ∀ c e s, D'.inv s → D.inv (proj (B'.exec (.inl c) e s).2) →
      D.le (proj s) (proj (B'.exec (.inl c) e s).2) →
      D'.inv (B'.exec (.inl c) e s).2 ∧ D'.le s (B'.exec (.inl c) e s).2)
    {p : Prog S ε α} (hp : p.Uses A) {s : St'} {Q : Except ε α → St → Prop}
    (h : D.Keeps B ok p (proj s) Q) : D'.Keeps B' ok' p.left s fun r s' => D'.le s s' ∧ Q r (proj s') := by
  suffices hk : ∀ s₀, D'.le s₀ s → D'.Keeps B' ok' p.left s fun r s' => D'.le s₀ s' ∧ Q r (proj s') from
    hk s (D'.refl s)
  induction p generalizing s with
  | ret a => exact fun s₀ hs₀ => ⟨hs₀, h⟩
  | fail x => exact fun s₀ hs₀ => ⟨hs₀, h⟩
  | call c k ih =>
    intro s₀ hs₀ s' e hi hle' ho
    obtain ⟨hi', hle₁, hk⟩ := h (proj s') (env e) (hinv s' hi) (hle s s' hle') (hok c s' e ho)
    rw [hB c hp.1 e s'] at hi' hle₁ hk
    obtain ⟨hinv', hle₂⟩ := hstep c e s' hi hi' hle₁
    exact ⟨hinv', hle₂, ih _ (hp.2 _) hk s₀ (D'.trans _ _ _ hs₀ (D'.trans _ _ _ hle' hle₂))⟩

theorem runs_of_left (hB : Backend.Extends A B B' proj env) {p : Prog S ε α} (hp : p.Uses A)
    {s s' : St'} {r : Except ε α} (h : B'.Runs p.left s r s') : B.Runs p (proj s) r (proj s') := by
  induction p generalizing s with
  | ret a =>
    obtain ⟨rfl, rfl⟩ := h
    exact ⟨rfl, rfl⟩
  | fail x =>
    obtain ⟨rfl, rfl⟩ := h
    exact ⟨rfl, rfl⟩
  | call c k ih =>
    obtain ⟨e, h⟩ := h
    have hk := ih _ (hp.2 _) h
    refine ⟨env e, ?_⟩
    rw [hB c hp.1 e s]
    exact hk

end Extends

section Portion

variable {St' Env' : Type}

/-- A part of a state (module doc). -/
structure Portion (St' St : Type) where
  get : St' → St
  set : St' → St → St'
  get_set : ∀ s x, get (set s x) = x
  set_get : ∀ s, set s (get s) = s
  set_set : ∀ s x y, set (set s x) y = set s y

/-- The statements of the smaller backend act on the part alone. -/
def Backend.ActsOn (B : Backend S St Env) (P : Portion St' St) (B' : Backend (S.sum T) St' Env')
    (env : Env' → Env) : Prop :=
  ∀ c e s, B'.exec (.inl c) e s =
    ((B.exec c (env e) (P.get s)).1, P.set s (B.exec c (env e) (P.get s)).2)

/-- **A handler of the smaller backend** runs on the part, and leaves the rest. -/
theorem runs_portion {B : Backend S St Env} {P : Portion St' St} {B' : Backend (S.sum T) St' Env'}
    {env : Env' → Env} (hB : B.ActsOn P B' env) {p : Prog S ε α} {s s' : St'} {r : Except ε α}
    (h : B'.Runs p.left s r s') : B.Runs p (P.get s) r (P.get s') ∧ s' = P.set s (P.get s') := by
  induction p generalizing s with
  | ret a =>
    obtain ⟨rfl, rfl⟩ := h
    exact ⟨⟨rfl, rfl⟩, (P.set_get s').symm⟩
  | fail x =>
    obtain ⟨rfl, rfl⟩ := h
    exact ⟨⟨rfl, rfl⟩, (P.set_get s').symm⟩
  | call c k ih =>
    obtain ⟨e, h⟩ := h
    obtain ⟨hrun, hs'⟩ := ih _ h
    rw [hB c e s, P.get_set] at hrun
    rw [hB c e s, P.set_set] at hs'
    exact ⟨⟨env e, hrun⟩, hs'⟩

end Portion

end Async
