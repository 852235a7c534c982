import Mathlib.Algebra.BigOperators.Group.Finset.Basic
import Mathlib.Data.Fintype.Basic
import Mathlib.Logic.Function.Basic
import OumraHajj.Async.Sequential

/-!
# Interleaved runs

Several handlers run at once over one state. A scheduler picks a handler and an environment, and
the handler executes its next statement; nothing is assumed about the order. `Pool.Reach ok c₀ c`:
some schedule leads from the pool `c₀` to `c`, each step of which satisfies the condition `ok` on
the statements that the handlers execute next, the state, the handler that moves and its
environment. `Pool.anyStep` (every step allowed) is the interleaving semantics itself.

`Reach.rel` compares two states of a run. Invariants of all schedules are proved thread by thread, in the rely-guarantee form. A protocol
(`Proto`) gives each thread a ghost value, which records how far it has come, and an invariant of
the ghost values and the state. `place g n` says which statement `n` a thread with the ghost value
`g` may execute next, so a condition on the next statements can be read as one on ghost values.
`Proto.Safe t p Q g`: thread `t`, running `p` from the ghost value `g`, keeps the invariant with
each statement, whatever the other threads have done to the state in between (the rely: only that
the invariant holds), and ends with `Q`. `Proto.reach`: if every thread is safe, the invariant
holds in every pool that a schedule reaches.
-/

namespace Async

/-- The handlers that are running, and the state they share. -/
structure Pool (S : Sig) (ι St ε α : Type) where
  procs : ι → Prog S ε α
  st : St

namespace Pool

variable {S : Sig} {ι St Env ε α : Type} [DecidableEq ι] (B : Backend S St Env)

/-- The statement that each handler executes next. -/
def next (c : Pool S ι St ε α) (t : ι) : Option S.Stmt := (c.procs t).next

/-- Every handler has ended. -/
def Finished (c : Pool S ι St ε α) : Prop := ∀ t, c.next t = none

instance [Fintype ι] (c : Pool S ι St ε α) : Decidable c.Finished :=
  inferInstanceAs (Decidable (∀ t, c.next t = none))

/-- Handler `t` executes its next statement; nothing happens if it has ended. -/
def step (t : ι) (e : Env) (c : Pool S ι St ε α) : Pool S ι St ε α :=
  match c.procs t with
  | .call q k => ⟨Function.update c.procs t (k (B.exec q e c.st).1), (B.exec q e c.st).2⟩
  | _ => c

/-- A condition on the steps of a schedule (module doc). -/
abbrev Cond (S : Sig) (ι St Env : Type) := (ι → Option S.Stmt) → St → ι → Env → Prop

/-- A schedule of steps that satisfy `ok` leads from `c₀` to `c`. -/
inductive Reach (ok : Cond S ι St Env) (c₀ : Pool S ι St ε α) : Pool S ι St ε α → Prop
  | refl : Reach ok c₀ c₀
  | step {c : Pool S ι St ε α} (t : ι) (e : Env) :
    Reach ok c₀ c → ok c.next c.st t e → Reach ok c₀ (step B t e c)

/-- The condition that allows every step. -/
def anyStep : Cond S ι St Env := fun _ _ _ _ => True

/-- The pool after a schedule. -/
def run (sched : List (ι × Env)) (c : Pool S ι St ε α) : Pool S ι St ε α :=
  sched.foldl (fun c x => step B x.1 x.2 c) c

variable {B}

/-- A schedule of steps that satisfy a condition is one for a weaker condition. -/
theorem Reach.mono {ok ok' : Cond S ι St Env} (h : ∀ n s t e, ok n s t e → ok' n s t e)
    {c₀ c : Pool S ι St ε α} (hr : Reach B ok c₀ c) : Reach B ok' c₀ c := by
  induction hr with
  | refl => exact .refl
  | step t e _ hok ih => exact ih.step t e (h _ _ _ _ hok)

theorem Reach.trans {ok : Cond S ι St Env} {c₀ c₁ c : Pool S ι St ε α} (h₁ : Reach B ok c₀ c₁)
    (h : Reach B ok c₁ c) : Reach B ok c₀ c := by
  induction h with
  | refl => exact h₁
  | step t e _ hok ih => exact ih.step t e hok

theorem Reach.run {c₀ c : Pool S ι St ε α} (h : Reach B anyStep c₀ c) (sched : List (ι × Env)) :
    Reach B anyStep c₀ (run B sched c) := by
  induction sched generalizing c with
  | nil => exact h
  | cons x sched ih => exact ih (h.step x.1 x.2 trivial)

/-- **Relation between two states of a run.** Handlers whose statements satisfy `A` keep satisfying
it, and a reflexive and transitive relation that holds across every allowed statement of theirs
holds across every schedule. -/
theorem Reach.rel {ok : Cond S ι St Env} {A : ι → S.Stmt → Prop} {R : St → St → Prop}
    (refl : ∀ s, R s s) (trans : ∀ s₁ s₂ s₃, R s₁ s₂ → R s₂ s₃ → R s₁ s₃)
    (hA : ∀ next s t c e, A t c → next t = some c → ok next s t e → R s (B.exec c e s).2)
    {c₀ c : Pool S ι St ε α} (hr : Reach B ok c₀ c) (h₀ : ∀ t, (c₀.procs t).Uses (A t)) :
    R c₀.st c.st ∧ ∀ t, (c.procs t).Uses (A t) := by
  induction hr with
  | refl => exact ⟨refl _, h₀⟩
  | @step c t e _ hok ih =>
    obtain ⟨hR, hu⟩ := ih
    unfold Pool.step
    split
    · rename_i q k hq
      have ht := hu t
      rw [hq] at ht
      have hn : c.next t = some q := by rw [Pool.next, hq]; rfl
      refine ⟨trans _ _ _ hR (hA c.next c.st t q e ht.1 hn hok), fun u => ?_⟩
      by_cases hut : u = t
      · subst hut; simpa only [Function.update_self] using ht.2 _
      · simpa only [Function.update_of_ne hut] using hu u
    · exact ⟨hR, hu⟩

/-- Handlers whose statements satisfy `A`, as the backend answers them, keep satisfying it. -/
theorem Reach.performs {ok : Cond S ι St Env} {A : ι → S.Stmt → Prop} {c₀ c : Pool S ι St ε α}
    (hr : Reach B ok c₀ c) (h₀ : ∀ t, (c₀.procs t).Performs B (A t) fun _ => True) :
    ∀ t, (c.procs t).Performs B (A t) fun _ => True := by
  induction hr with
  | refl => exact h₀
  | @step c t e _ _ ih =>
    unfold Pool.step
    split
    · rename_i q k hq
      have ht := ih t
      rw [hq] at ht
      intro u
      by_cases hut : u = t
      · subst hut
        simpa only [Function.update_self] using ht.2 e c.st
      · simpa only [Function.update_of_ne hut] using ih u
    · exact ih

/-- A handler that has ended stays so. -/
theorem Reach.ended {ok : Cond S ι St Env} {c₀ c : Pool S ι St ε α} (hr : Reach B ok c₀ c) {t : ι}
    (ht : c₀.next t = none) : c.procs t = c₀.procs t := by
  induction hr with
  | refl => rfl
  | @step c u e _ _ ih =>
    have hnext : c.next t = none := by
      rw [Pool.next, ih]
      exact ht
    unfold Pool.step
    split
    · rename_i q k hq
      have hut : t ≠ u := by
        rintro rfl
        rw [Pool.next, hq] at hnext
        cases hnext
      simpa only [Function.update_of_ne hut] using ih
    · exact ih

/-- Every step of the schedule satisfies `ok`. -/
def Allowed (B : Backend S St Env) (ok : Cond S ι St Env) : Pool S ι St ε α → List (ι × Env) → Prop
  | _, [] => True
  | c, (t, e) :: sched => ok c.next c.st t e ∧ Allowed B ok (step B t e c) sched

instance decidableAllowed {ok : Cond S ι St Env} [∀ n s t e, Decidable (ok n s t e)] :
    (sched : List (ι × Env)) → (c : Pool S ι St ε α) → Decidable (Allowed B ok c sched)
  | [], _ => isTrue trivial
  | (t, e) :: sched, c =>
    have : Decidable (Allowed B ok (step B t e c) sched) := decidableAllowed sched (step B t e c)
    inferInstanceAs (Decidable (ok c.next c.st t e ∧ Allowed B ok (step B t e c) sched))

theorem Allowed.reach {ok : Cond S ι St Env} {c₀ c : Pool S ι St ε α} {sched : List (ι × Env)}
    (h : Allowed B ok c sched) (hc : Reach B ok c₀ c) : Reach B ok c₀ (Pool.run B sched c) := by
  induction sched generalizing c with
  | nil => exact hc
  | cons x sched ih => exact ih h.2 (hc.step x.1 x.2 h.1)

end Pool

/-- A protocol (module doc). -/
structure Proto (S : Sig) (ι St : Type) where
  Gh : Type
  inv : (ι → Gh) → St → Prop
  place : Gh → Option S.Stmt → Prop

namespace Proto

open Pool

variable {S : Sig} {ι St Env ε α β : Type} [DecidableEq ι] (P : Proto S ι St)
  (B : Backend S St Env) (ok : Cond S ι St Env)

/-- Thread `t` keeps the protocol and ends with `Q` (module doc). -/
def Safe (t : ι) : Prog S ε α → (Except ε α → P.Gh → Prop) → P.Gh → Prop
  | .ret a, Q, g => Q (.ok a) g
  | .fail x, Q, g => Q (.error x) g
  | .call c k, Q, g => P.place g (some c) ∧
    ∀ γ next s e, P.inv γ s → γ t = g → (∀ u, P.place (γ u) (next u)) → next t = some c →
      ok next s t e → ∃ g', P.inv (Function.update γ t g') (B.exec c e s).2 ∧
        Safe t (k (B.exec c e s).1) Q g'

variable {P B ok} {t : ι} {g : P.Gh}

theorem safe_mono {p : Prog S ε α} {Q Q' : Except ε α → P.Gh → Prop}
    (hQ : ∀ r g, Q r g → Q' r g) (h : P.Safe B ok t p Q g) : P.Safe B ok t p Q' g := by
  induction p generalizing g with
  | ret a => exact hQ _ _ h
  | fail x => exact hQ _ _ h
  | call c k ih =>
    refine ⟨h.1, fun γ next s e hi hg hp hn ho => ?_⟩
    obtain ⟨g', hi', hs⟩ := h.2 γ next s e hi hg hp hn ho
    exact ⟨g', hi', ih _ hs⟩

/-- The thread of a sequence: the rest goes on from the ghost value in which the first part
ended. -/
theorem safe_bind {p : Prog S ε α} {f : α → Prog S ε β} {Q : Except ε β → P.Gh → Prop} :
    P.Safe B ok t (p.bind f) Q g ↔
      P.Safe B ok t p (fun r g' => match r with
        | .ok a => P.Safe B ok t (f a) Q g'
        | .error x => Q (.error x) g') g := by
  induction p generalizing g with
  | ret a => exact Iff.rfl
  | fail x => exact Iff.rfl
  | call c k ih =>
    simp only [Prog.call_bind, Safe, ih]

/-- The thread that goes on after an error. -/
theorem safe_tryCatch {p : Prog S ε α} {h : ε → Prog S ε α} {Q : Except ε α → P.Gh → Prop} :
    P.Safe B ok t (p.tryCatch h) Q g ↔
      P.Safe B ok t p (fun r g' => match r with
        | .ok a => Q (.ok a) g'
        | .error x => P.Safe B ok t (h x) Q g') g := by
  induction p generalizing g with
  | ret a => exact Iff.rfl
  | fail x => exact Iff.rfl
  | call c k ih =>
    simp only [Prog.tryCatch, Safe, ih]

/-- A statement that keeps the invariant and needs no new ghost value. -/
theorem safe_call {c : S.Stmt} {k : S.Resp c → Prog S ε α} {Q : Except ε α → P.Gh → Prop}
    (hp : P.place g (some c))
    (hi : ∀ γ s e, P.inv γ s → γ t = g → P.inv γ (B.exec c e s).2)
    (hk : ∀ γ s e, P.inv γ s → γ t = g → P.Safe B ok t (k (B.exec c e s).1) Q g) :
    P.Safe B ok t (.call c k) Q g := by
  refine ⟨hp, fun γ next s e hi' hg _ _ _ => ⟨g, ?_, hk γ s e hi' hg⟩⟩
  rw [← hg, Function.update_eq_self]
  exact hi γ s e hi' hg

/-- A handler of statements that keep the invariant and fit the ghost value keeps it. -/
theorem safe_uses {A : S.Stmt → Prop} (hA : ∀ c, A c → P.place g (some c))
    (hi : ∀ c, A c → ∀ γ s e, P.inv γ s → γ t = g → P.inv γ (B.exec c e s).2)
    {p : Prog S ε α} (hp : p.Uses A) {Q : Except ε α → P.Gh → Prop} (hQ : ∀ r, Q r g) :
    P.Safe B ok t p Q g := by
  induction p with
  | ret a => exact hQ _
  | fail x => exact hQ _
  | call c k ih =>
    exact safe_call (hA c hp.1) (hi c hp.1) fun γ s e _ _ => ih _ (hp.2 _)

/-- Only the value is dropped. -/
theorem safe_void {p : Prog S ε α} {Q : Except ε Unit → P.Gh → Prop}
    (h : P.Safe B ok t p (fun r g' => match r with
      | .ok _ => Q (.ok ()) g'
      | .error x => Q (.error x) g') g) : P.Safe B ok t p.void Q g :=
  safe_bind.mpr h

/-- The threads of a pool keep the protocol. -/
def Keeps (P : Proto S ι St) (B : Backend S St Env) (ok : Cond S ι St Env)
    (Q : ι → Except ε α → P.Gh → Prop) (c : Pool S ι St ε α) : Prop :=
  ∃ γ, P.inv γ c.st ∧ ∀ u, P.Safe B ok u (c.procs u) (Q u) (γ u)

/-- The ghost value of a safe thread fits the statement that it executes next. -/
theorem Safe.place {p : Prog S ε α} {Q : Except ε α → P.Gh → Prop}
    (hQ : ∀ r g, Q r g → P.place g none) (h : P.Safe B ok t p Q g) : P.place g p.next := by
  cases p with
  | ret a => exact hQ _ _ h
  | fail x => exact hQ _ _ h
  | call c k => exact h.1

/-- **Soundness.** The invariant holds in every pool that a schedule of allowed steps reaches, with
ghost values that fit the statements that the handlers execute next. -/
theorem reach {Q : ι → Except ε α → P.Gh → Prop} (hQ : ∀ u r g, Q u r g → P.place g none)
    {c₀ c : Pool S ι St ε α} (h₀ : P.Keeps B ok Q c₀) (hr : Reach B ok c₀ c) :
    P.Keeps B ok Q c := by
  induction hr with
  | refl => exact h₀
  | @step c t e _ hok ih =>
    obtain ⟨γ, hi, hs⟩ := ih
    unfold Pool.step
    split
    · rename_i q k hq
      have ht := hs t
      rw [hq] at ht
      have hn : c.next t = some q := by rw [Pool.next, hq]; rfl
      obtain ⟨g', hi', hs'⟩ := ht.2 γ c.next c.st e hi rfl (fun u => (hs u).place (hQ u)) hn hok
      refine ⟨Function.update γ t g', hi', fun u => ?_⟩
      by_cases hu : u = t
      · subst hu; simpa only [Function.update_self] using hs'
      · simpa only [Function.update_of_ne hu] using hs u
    · exact ⟨γ, hi, hs⟩

/-- A sum over the ghost values of all threads, when one of them changes. -/
theorem sum_update [Fintype ι] {G : Type} (f : G → ℕ) (γ : ι → G) (t : ι) (g : G) :
    ∑ u, f (Function.update γ t g u) + f (γ t) = ∑ u, f (γ u) + f g := by
  have hnew : ∑ u, f (Function.update γ t g u) = f g + ∑ u ∈ Finset.univ.erase t, f (γ u) := by
    rw [← Finset.add_sum_erase _ _ (Finset.mem_univ t), Function.update_self]
    refine congrArg _ (Finset.sum_congr rfl fun u hu => ?_)
    rw [Function.update_of_ne (Finset.ne_of_mem_erase hu)]
  have hold : ∑ u, f (γ u) = f (γ t) + ∑ u ∈ Finset.univ.erase t, f (γ u) :=
    (Finset.add_sum_erase _ _ (Finset.mem_univ t)).symm
  omega

theorem Keeps.place {Q : ι → Except ε α → P.Gh → Prop} (hQ : ∀ u r g, Q u r g → P.place g none)
    {c : Pool S ι St ε α} (h : P.Keeps B ok Q c) :
    ∃ γ, P.inv γ c.st ∧ (∀ u, P.Safe B ok u (c.procs u) (Q u) (γ u)) ∧
      ∀ u, P.place (γ u) (c.next u) := by
  obtain ⟨γ, hi, hs⟩ := h
  exact ⟨γ, hi, hs, fun u => (hs u).place (hQ u)⟩

end Proto

end Async
