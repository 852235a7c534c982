import OumraHajj.Async.Pool

/-!
# Invariants and what a handler has read

A handler reads the state in one statement and writes in a later one, and other handlers may have
moved in between. What it has read is still true if it is stable: it stays true along every change
that the handlers make. `Rely` is an invariant of the states with the order of these changes.

* `D.Keeps B ok p s Q`: the handler `p`, which last saw the state `s`, keeps the invariant with each
  statement, whatever later state it is executed in, and ends with `Q`. `ok` is a condition on the
  statements that are executed.
* `Keeps.bind`, `Keeps.of_uses`: sequencing, and handlers of statements that keep the invariant.
* `Rely.reach`: the invariant holds in every pool that a schedule reaches; `KeepsAll.step` is one step of
  it, and `reach_of_step` the case that every statement keeps the invariant. `reach_done` keeps what the
  handlers end with. `Keeps.runs`: the invariant holds after a handler that runs alone.
* `D.KeepsOwn B ok own t p s Q`: handler `t` may also rely on its own part of the state, `own t`, which
  the other handlers leave. `KeepsOwn.of_keeps` and `KeepsOwn.of_uses` are the rules for handlers whose
  statements leave every such part, `Rely.reachOwn` is its soundness.
-/

namespace Async

/-- An invariant and the order of the states (module doc). -/
structure Rely (St : Type) where
  inv : St → Prop
  le : St → St → Prop
  refl : ∀ s, le s s
  trans : ∀ s₁ s₂ s₃, le s₁ s₂ → le s₂ s₃ → le s₁ s₃

namespace Rely

variable {S : Sig} {ι St Env ε α β : Type} (D : Rely St) (B : Backend S St Env)
  (ok : S.Stmt → St → Env → Prop)

/-- The handler keeps the invariant (module doc). -/
def Keeps : Prog S ε α → St → (Except ε α → St → Prop) → Prop
  | .ret a, s, Q => Q (.ok a) s
  | .fail x, s, Q => Q (.error x) s
  | .call c k, s, Q => ∀ s' e, D.inv s' → D.le s s' → ok c s' e →
    D.inv (B.exec c e s').2 ∧ D.le s' (B.exec c e s').2 ∧
      Keeps (k (B.exec c e s').1) (B.exec c e s').2 Q

/-- The statement keeps the invariant and the order. -/
def Step (c : S.Stmt) : Prop :=
  ∀ s e, D.inv s → ok c s e → D.inv (B.exec c e s).2 ∧ D.le s (B.exec c e s).2

variable {D B ok} {s s' : St}

theorem Keeps.mono {p : Prog S ε α} {Q Q' : Except ε α → St → Prop} (hQ : ∀ r s, Q r s → Q' r s)
    (h : D.Keeps B ok p s Q) : D.Keeps B ok p s Q' := by
  induction p generalizing s with
  | ret a => exact hQ _ _ h
  | fail x => exact hQ _ _ h
  | call c k ih =>
    intro s' e hi hle ho
    obtain ⟨hi', hle', hk⟩ := h s' e hi hle ho
    exact ⟨hi', hle', ih _ hk⟩

/-- What a handler may rely on, it may rely on later. -/
theorem Keeps.later {p : Prog S ε α} {Q : Except ε α → St → Prop}
    (hQ : ∀ r s s', D.le s s' → Q r s → Q r s') (h : D.Keeps B ok p s Q) (hle : D.le s s') :
    D.Keeps B ok p s' Q := by
  cases p with
  | ret a => exact hQ _ _ _ hle h
  | fail x => exact hQ _ _ _ hle h
  | call c k => exact fun s₁ e hi hle₁ ho => h s₁ e hi (D.trans _ _ _ hle hle₁) ho

theorem Keeps.bind {p : Prog S ε α} {f : α → Prog S ε β} {Q : Except ε β → St → Prop}
    (h : D.Keeps B ok p s fun r s' => match r with
      | .ok a => D.Keeps B ok (f a) s' Q
      | .error x => Q (.error x) s') : D.Keeps B ok (p.bind f) s Q := by
  induction p generalizing s with
  | ret a => exact h
  | fail x => exact h
  | call c k ih =>
    intro s' e hi hle ho
    obtain ⟨hi', hle', hk⟩ := h s' e hi hle ho
    exact ⟨hi', hle', ih _ hk⟩

/-- A first part with the value that it may return, and the rest. -/
theorem Keeps.seq {p : Prog S ε α} {f : α → Prog S ε β} {Q : Except ε β → St → Prop}
    {P : α → St → Prop}
    (hp : D.Keeps B ok p s fun r s' => D.le s s' ∧ ∀ a, r = .ok a → P a s')
    (hf : ∀ a s', D.le s s' → P a s' → D.Keeps B ok (f a) s' Q)
    (hx : ∀ x s', D.le s s' → Q (.error x) s') : D.Keeps B ok (p.bind f) s Q := by
  refine .bind (hp.mono ?_)
  rintro (x | a) s' ⟨hle, ha⟩
  · exact hx x s' hle
  · exact hf a s' hle (ha a rfl)

theorem Keeps.void {p : Prog S ε α} (h : D.Keeps B ok p s fun _ _ => True) :
    D.Keeps B ok p.void s fun _ _ => True := by
  refine .bind (h.mono ?_)
  rintro (x | a) s' -
  · trivial
  · trivial

/-- A handler of statements that keep the invariant. -/
theorem Keeps.of_uses {A : S.Stmt → Prop} (hA : ∀ c, A c → D.Step B ok c) {p : Prog S ε α}
    (hp : p.Uses A) (s : St) : D.Keeps B ok p s fun _ s' => D.le s s' := by
  suffices h : ∀ s₁, D.le s s₁ → D.Keeps B ok p s₁ fun _ s' => D.le s s' from h s (D.refl s)
  induction p with
  | ret a => exact fun _ hle => hle
  | fail x => exact fun _ hle => hle
  | call c k ih =>
    intro s₁ hs₁ s' e hi hle ho
    obtain ⟨hi', hle'⟩ := hA c hp.1 s' e hi ho
    exact ⟨hi', hle', ih _ (hp.2 _) _ (D.trans _ _ _ hs₁ (D.trans _ _ _ hle hle'))⟩

/-- The handler that goes on after an error. -/
theorem Keeps.tryCatch {p : Prog S ε α} {f : ε → Prog S ε α} {Q : Except ε α → St → Prop}
    (h : D.Keeps B ok p s fun r s' => match r with
      | .ok a => Q (.ok a) s'
      | .error x => D.Keeps B ok (f x) s' Q) : D.Keeps B ok (p.tryCatch f) s Q := by
  induction p generalizing s with
  | ret a => exact h
  | fail x => exact h
  | call c k ih =>
    intro s' e hi hle ho
    obtain ⟨hi', hle', hk⟩ := h s' e hi hle ho
    exact ⟨hi', hle', ih _ hk⟩

/-- A statement that only reads, and the rest with what it has read. -/
theorem Keeps.read {c : S.Stmt} {k : S.Resp c → Prog S ε α} {Q : Except ε α → St → Prop}
    (hc : ∀ e s, (B.exec c e s).2 = s)
    (hk : ∀ s' e, D.inv s' → D.le s s' → D.Keeps B ok (k (B.exec c e s').1) s' Q) :
    D.Keeps B ok (.call c k) s Q := by
  intro s' e hi hle _
  rw [hc]
  exact ⟨hi, D.refl s', hk s' e hi hle⟩

/-- A stronger invariant, which the statements of the handler keep too. -/
theorem Keeps.strengthen {D' : Rely St} {A : S.Stmt → Prop} (hinv : ∀ s, D'.inv s → D.inv s)
    (hle : ∀ s s', D'.le s s' → D.le s s')
    (hA : ∀ c, A c → ∀ s e, D'.inv s → D.inv (B.exec c e s).2 → D.le s (B.exec c e s).2 →
      D'.inv (B.exec c e s).2 ∧ D'.le s (B.exec c e s).2)
    {p : Prog S ε α} (hp : p.Uses A) {Q : Except ε α → St → Prop} (h : D.Keeps B ok p s Q) :
    D'.Keeps B ok p s Q := by
  induction p generalizing s with
  | ret a => exact h
  | fail x => exact h
  | call c k ih =>
    intro s' e hi hle' ho
    obtain ⟨hi', hle₁, hk⟩ := h s' e (hinv s' hi) (hle s s' hle') ho
    obtain ⟨hinv', hle₂⟩ := hA c hp.1 s' e hi hi' hle₁
    exact ⟨hinv', hle₂, ih _ (hp.2 _) hk⟩

/-- A handler that runs alone. -/
theorem Keeps.runs {p : Prog S ε α} {Q : Except ε α → St → Prop} {r : Except ε α}
    (h : D.Keeps B (fun _ _ _ => True) p s Q) (hs : D.inv s) (hr : B.Runs p s r s') :
    D.inv s' ∧ D.le s s' ∧ Q r s' := by
  induction p generalizing s with
  | ret a => obtain ⟨rfl, rfl⟩ := hr; exact ⟨hs, D.refl _, h⟩
  | fail x => obtain ⟨rfl, rfl⟩ := hr; exact ⟨hs, D.refl _, h⟩
  | call c k ih =>
    obtain ⟨e, hr⟩ := hr
    obtain ⟨hi, hle, hk⟩ := h s e hs (D.refl s) trivial
    obtain ⟨hi', hle', hQ⟩ := ih _ hk hi hr
    exact ⟨hi', D.trans _ _ _ hle hle', hQ⟩

/-- The condition on the next statement of the handler that moves. -/
def cond (ok : S.Stmt → St → Env → Prop) : Pool.Cond S ι St Env := fun next s t e =>
  ∀ c ∈ next t, ok c s e

instance [∀ c s e, Decidable (ok c s e)] (next : ι → Option S.Stmt) (s : St) (t : ι) (e : Env) :
    Decidable (cond ok next s t e) :=
  inferInstanceAs (Decidable (∀ c ∈ next t, ok c s e))

section Pool

variable [DecidableEq ι]

/-- The handlers of a pool keep the invariant. -/
def KeepsAll (D : Rely St) (B : Backend S St Env) (ok : S.Stmt → St → Env → Prop)
    (c : Pool S ι St ε α) : Prop :=
  D.inv c.st ∧ ∀ t, D.Keeps B ok (c.procs t) c.st fun _ _ => True

/-- One step of a schedule, where what a handler ends with stays true. -/
theorem step_keeps {Q : ι → Except ε α → St → Prop}
    (hQ : ∀ t r s s', D.le s s' → Q t r s → Q t r s') {c : Pool S ι St ε α} (hi : D.inv c.st)
    (hk : ∀ t, D.Keeps B ok (c.procs t) c.st (Q t)) {t : ι} {e : Env} (hok : cond ok c.next c.st t e) :
    D.inv (Pool.step B t e c).st ∧ D.le c.st (Pool.step B t e c).st ∧
      ∀ u, D.Keeps B ok ((Pool.step B t e c).procs u) (Pool.step B t e c).st (Q u) := by
  unfold Pool.step
  split
  · rename_i q k hq
    have ht := hk t
    rw [hq] at ht
    have hn : c.next t = some q := by rw [Pool.next, hq]; rfl
    obtain ⟨hi', hle', hk'⟩ := ht c.st e hi (D.refl _) (hok q hn)
    refine ⟨hi', hle', fun u => ?_⟩
    by_cases hu : u = t
    · subst hu
      simpa only [Function.update_self] using hk'
    · simpa only [Function.update_of_ne hu] using (hk u).later (hQ u) hle'
  · exact ⟨hi, D.refl _, hk⟩

/-- One step of a schedule. -/
theorem KeepsAll.step {c : Pool S ι St ε α} (h : D.KeepsAll B ok c) {t : ι} {e : Env}
    (hok : cond ok c.next c.st t e) :
    D.KeepsAll B ok (Pool.step B t e c) ∧ D.le c.st (Pool.step B t e c).st := by
  obtain ⟨hi, hle, hk⟩ := step_keeps (fun _ _ _ _ _ => id) h.1 h.2 hok
  exact ⟨⟨hi, hk⟩, hle⟩

/-- **Soundness.** The invariant holds in every pool that a schedule of statements that satisfy the
condition reaches. -/
theorem reach {c₀ c : Pool S ι St ε α} (h₀ : D.inv c₀.st)
    (hp : ∀ t, D.Keeps B ok (c₀.procs t) c₀.st fun _ _ => True) (hr : Pool.Reach B (cond ok) c₀ c) :
    D.inv c.st ∧ D.le c₀.st c.st := by
  suffices h : D.KeepsAll B ok c ∧ D.le c₀.st c.st from ⟨h.1.1, h.2⟩
  induction hr with
  | refl => exact ⟨⟨h₀, hp⟩, D.refl _⟩
  | step t e _ hok ih =>
    obtain ⟨hall, hle⟩ := ih.1.step hok
    exact ⟨hall, D.trans _ _ _ ih.2 hle⟩

/-- **Soundness**, with the results: what a handler ends with stays true. -/
theorem reach_done {Q : ι → Except ε α → St → Prop} (hQ : ∀ t r s s', D.le s s' → Q t r s → Q t r s')
    {c₀ c : Pool S ι St ε α} (h₀ : D.inv c₀.st) (hp : ∀ t, D.Keeps B ok (c₀.procs t) c₀.st (Q t))
    (hr : Pool.Reach B (cond ok) c₀ c) :
    D.inv c.st ∧ D.le c₀.st c.st ∧ ∀ t, D.Keeps B ok (c.procs t) c.st (Q t) := by
  induction hr with
  | refl => exact ⟨h₀, D.refl _, hp⟩
  | step t e _ hok ih =>
    obtain ⟨hi, hle, hk⟩ := step_keeps hQ ih.1 ih.2.2 hok
    exact ⟨hi, D.trans _ _ _ ih.2.1 hle, hk⟩

/-- The handlers may be any, where every statement keeps the invariant. -/
theorem reach_of_step {c₀ c : Pool S ι St ε α} (h₀ : D.inv c₀.st) (hstep : ∀ q, D.Step B ok q)
    (hr : Pool.Reach B (cond ok) c₀ c) : D.inv c.st ∧ D.le c₀.st c.st := by
  refine reach h₀ (fun t => ?_) hr
  have huses : (c₀.procs t).Uses fun _ => True := Prog.uses_true _
  exact (Keeps.of_uses (fun q _ => hstep q) huses c₀.st).mono fun _ _ _ => trivial

/-- A schedule, where every statement is allowed. -/
theorem KeepsAll.run {c : Pool S ι St ε α} (h : D.KeepsAll B (fun _ _ _ => True) c)
    (sched : List (ι × Env)) : D.le c.st (Pool.run B sched c).st := by
  induction sched generalizing c with
  | nil => exact D.refl _
  | cons x sched ih =>
    obtain ⟨hall, hle⟩ := h.step (t := x.1) (e := x.2) fun _ _ => trivial
    exact D.trans _ _ _ hle (ih hall)

end Pool

/-! ## The part of the state that belongs to a handler -/

section Own

variable {O : Type} (D B) (okOf : ι → S.Stmt → St → Env → Prop) (own : ι → St → O) (t : ι)

/-- The handler keeps the invariant and leaves what belongs to the others (module doc). -/
def KeepsOwn : Prog S ε α → St → (Except ε α → St → Prop) → Prop
  | .ret a, s, Q => Q (.ok a) s
  | .fail x, s, Q => Q (.error x) s
  | .call c k, s, Q => ∀ s' e, D.inv s' → D.le s s' → own t s' = own t s → okOf t c s' e →
    D.inv (B.exec c e s').2 ∧ D.le s' (B.exec c e s').2 ∧
      (∀ u, u ≠ t → own u (B.exec c e s').2 = own u s') ∧
      KeepsOwn (k (B.exec c e s').1) (B.exec c e s').2 Q

variable {D B okOf own t}

theorem KeepsOwn.mono {p : Prog S ε α} {Q Q' : Except ε α → St → Prop} (hQ : ∀ r s, Q r s → Q' r s)
    (h : D.KeepsOwn B okOf own t p s Q) : D.KeepsOwn B okOf own t p s Q' := by
  induction p generalizing s with
  | ret a => exact hQ _ _ h
  | fail x => exact hQ _ _ h
  | call c k ih =>
    intro s' e hi hle hown ho
    obtain ⟨hi', hle', hothers, hk⟩ := h s' e hi hle hown ho
    exact ⟨hi', hle', hothers, ih _ hk⟩

theorem KeepsOwn.later {p : Prog S ε α} {Q : Except ε α → St → Prop}
    (hQ : ∀ r s s', D.le s s' → own t s' = own t s → Q r s → Q r s')
    (h : D.KeepsOwn B okOf own t p s Q) (hle : D.le s s') (hown : own t s' = own t s) :
    D.KeepsOwn B okOf own t p s' Q := by
  cases p with
  | ret a => exact hQ _ _ _ hle hown h
  | fail x => exact hQ _ _ _ hle hown h
  | call c k =>
    exact fun s₁ e hi hle₁ hown₁ ho => h s₁ e hi (D.trans _ _ _ hle hle₁) (hown₁.trans hown) ho

theorem KeepsOwn.bind {p : Prog S ε α} {f : α → Prog S ε β} {Q : Except ε β → St → Prop}
    (h : D.KeepsOwn B okOf own t p s fun r s' => match r with
      | .ok a => D.KeepsOwn B okOf own t (f a) s' Q
      | .error x => Q (.error x) s') : D.KeepsOwn B okOf own t (p.bind f) s Q := by
  induction p generalizing s with
  | ret a => exact h
  | fail x => exact h
  | call c k ih =>
    intro s' e hi hle hown ho
    obtain ⟨hi', hle', hothers, hk⟩ := h s' e hi hle hown ho
    exact ⟨hi', hle', hothers, ih _ hk⟩

/-- A handler whose statements leave what belongs to the handlers. -/
theorem KeepsOwn.of_keeps {A : S.Stmt → Prop}
    (hA : ∀ c, A c → ∀ e s u, own u (B.exec c e s).2 = own u s) {p : Prog S ε α} (hp : p.Uses A)
    {Q : Except ε α → St → Prop} (h : D.Keeps B (okOf t) p s Q) : D.KeepsOwn B okOf own t p s Q := by
  induction p generalizing s with
  | ret a => exact h
  | fail x => exact h
  | call c k ih =>
    intro s' e hi hle _ ho
    obtain ⟨hi', hle', hk⟩ := h s' e hi hle ho
    exact ⟨hi', hle', fun u _ => hA c hp.1 e s' u, ih _ (hp.2 _) hk⟩

/-- The condition on the next statement of the handler that moves. -/
def condOf (okOf : ι → S.Stmt → St → Env → Prop) : Pool.Cond S ι St Env := fun next s t e =>
  ∀ c ∈ next t, okOf t c s e

instance [∀ t c s e, Decidable (okOf t c s e)] (next : ι → Option S.Stmt) (s : St) (t : ι) (e : Env) :
    Decidable (condOf okOf next s t e) :=
  inferInstanceAs (Decidable (∀ c ∈ next t, okOf t c s e))

/-- **Soundness**, where a part of the state belongs to each handler. -/
theorem reachOwn [DecidableEq ι] {c₀ c : Pool S ι St ε α} (h₀ : D.inv c₀.st)
    (hp : ∀ t, D.KeepsOwn B okOf own t (c₀.procs t) c₀.st fun _ _ => True)
    (hr : Pool.Reach B (condOf okOf) c₀ c) : D.inv c.st ∧ D.le c₀.st c.st := by
  suffices h : D.inv c.st ∧ D.le c₀.st c.st ∧
      ∀ t, D.KeepsOwn B okOf own t (c.procs t) c.st fun _ _ => True from ⟨h.1, h.2.1⟩
  induction hr with
  | refl => exact ⟨h₀, D.refl _, hp⟩
  | @step c t e _ hok ih =>
    obtain ⟨hi, hle, hk⟩ := ih
    unfold Pool.step
    split
    · rename_i q k hq
      have ht := hk t
      rw [hq] at ht
      have hn : c.next t = some q := by rw [Pool.next, hq]; rfl
      obtain ⟨hi', hle', hothers, hk'⟩ := ht c.st e hi (D.refl _) rfl (hok q hn)
      refine ⟨hi', D.trans _ _ _ hle hle', fun u => ?_⟩
      by_cases hu : u = t
      · subst hu
        simpa only [Function.update_self] using hk'
      · simpa only [Function.update_of_ne hu] using
          (hk u).later (fun _ _ _ _ _ => id) hle' (hothers u hu)
    · exact ⟨hi, hle, hk⟩

end Own

end Rely

end Async
