import OumraHajj.Async.Pool

/-!
# Resources that are won once

Threads compete for resources of type `R`. `used r s` says that the resource `r` is gone in the state
`s`. `Winners used w s`: no two threads have won the same resource, and a resource that was won is
used. A statement that uses no resource up keeps the winners, and a thread may win one that is not
used yet by using it (`Winners.win`).

`Proto.once used` is the protocol in which the ghost value of a thread is what it has won. A
statement that never frees a resource keeps it (`safe_keeps`), one that takes a free resource wins it
(`safe_wins`), and threads that end with a value only after they have won end so once (`once_reach`).
-/

namespace Async

variable {S : Sig} {ι St Env R ε α : Type}

structure Winners (used : R → St → Prop) (w : ι → Option R) (s : St) : Prop where
  unique : ∀ u v r, w u = some r → w v = some r → u = v
  used : ∀ u r, w u = some r → used r s

namespace Winners

variable {used : R → St → Prop} {w : ι → Option R} {s s' : St}

theorem nobody (used : R → St → Prop) (s : St) :
    Winners used (fun _ : ι => none) s where
  unique _ _ _ h := by cases h
  used _ _ h := by cases h

/-- A used resource stays used. -/
theorem keep (h : Winners used w s) (hs : ∀ r, used r s → used r s') : Winners used w s' :=
  ⟨h.unique, fun u r hu => hs r (h.used u r hu)⟩

/-- A thread takes a resource that is not used. -/
theorem win [DecidableEq ι] (h : Winners used w s) {u : ι} {r : R} (hr : ¬ used r s)
    (hs : ∀ r, used r s → used r s') (hr' : used r s') :
    Winners used (Function.update w u (some r)) s' := by
  have hfree : ∀ v, w v ≠ some r := fun v hv => hr (h.used v r hv)
  refine ⟨fun v v' q hv hv' => ?_, fun v q hv => ?_⟩
  · by_cases hvu : v = u
    · subst hvu
      rw [Function.update_self] at hv
      cases hv
      by_contra hne
      rw [Function.update_of_ne (Ne.symm hne)] at hv'
      exact hfree v' hv'
    · rw [Function.update_of_ne hvu] at hv
      by_cases hvu' : v' = u
      · subst hvu'
        rw [Function.update_self] at hv'
        cases hv'
        exact absurd hv (hfree v)
      · rw [Function.update_of_ne hvu'] at hv'
        exact h.unique v v' q hv hv'
  · by_cases hvu : v = u
    · subst hvu
      rw [Function.update_self] at hv
      cases hv
      exact hr'
    · rw [Function.update_of_ne hvu] at hv
      exact hs q (h.used v q hv)

end Winners

/-- The value with which a thread has ended. -/
def Pool.result (c : Pool S ι St ε α) (u : ι) : Option α :=
  match c.procs u with
  | .ret a => some a
  | _ => none

theorem Pool.ret_of_result {c : Pool S ι St ε α} {u : ι} {a : α} (h : c.result u = some a) :
    c.procs u = .ret a := by
  unfold Pool.result at h
  split at h
  · cases h
    assumption
  · cases h

namespace Proto

open Pool

variable [DecidableEq ι] {B : Backend S St Env} {ok : Cond S ι St Env} {used : R → St → Prop}

/-- What each thread has won (module doc). -/
def once (used : R → St → Prop) : Proto S ι St where
  Gh := Option R
  inv := Winners used
  place _ _ := True

/-- A statement that frees no resource. -/
theorem safe_keeps {t : ι} {c : S.Stmt} {k : S.Resp c → Prog S ε α}
    {Q : Except ε α → Option R → Prop} {g : Option R}
    (hc : ∀ r e s, used r s → used r (B.exec c e s).2)
    (hk : ∀ s e, (once used).Safe B ok t (k (B.exec c e s).1) Q g) :
    (once used).Safe B ok t (.call c k) Q g :=
  safe_call (P := once used) trivial (fun _ s e hi _ => hi.keep fun r => hc r e s)
    fun _ s e _ _ => hk s e

/-- A statement that takes a free resource, or takes none. -/
theorem safe_wins {t : ι} {c : S.Stmt} {k : S.Resp c → Prog S ε α}
    {Q : Except ε α → Option R → Prop} (hc : ∀ r e s, used r s → used r (B.exec c e s).2)
    (hk : ∀ next s e, next t = some c → ok next s t e →
      (once used).Safe B ok t (k (B.exec c e s).1) Q none ∨
        ∃ r, ¬ used r s ∧ used r (B.exec c e s).2 ∧
          (once used).Safe B ok t (k (B.exec c e s).1) Q (some r)) :
    (once used).Safe B ok t (.call c k) Q (none : Option R) := by
  refine ⟨trivial, fun γ next s e hi hg _ hn hok => ?_⟩
  rcases hk next s e hn hok with hnone | ⟨r, hfree, hr, hsome⟩
  · refine ⟨none, ?_, hnone⟩
    rw [← hg, Function.update_eq_self]
    exact Winners.keep hi fun r => hc r e s
  · exact ⟨some r, Winners.win hi hfree (fun r => hc r e s) hr, hsome⟩

variable (used) in
/-- **Once.** Of the threads that end with a value only after they have won `r`, one at most does. -/
theorem once_reach {c₀ c : Pool S ι St ε α} {r : R}
    (h₀ : ∀ u, (once used).Safe B ok u (c₀.procs u) (fun x g => ∀ a, x = .ok a → g = some r) none)
    (hr : Reach B ok c₀ c) {u v : ι} {a b : α} (hu : c.procs u = .ret a) (hv : c.procs v = .ret b) :
    u = v := by
  obtain ⟨γ, hi, hs⟩ := Proto.reach (P := once used)
    (Q := fun _ (x : Except ε α) (g : Option R) => ∀ a, x = .ok a → g = some r)
    (fun _ _ _ _ => trivial) ⟨fun _ => none, Winners.nobody used c₀.st, h₀⟩ hr
  have hend : ∀ u a, c.procs u = .ret a → γ u = some r := by
    intro u a hu
    have hsafe := hs u
    rw [hu] at hsafe
    exact hsafe a rfl
  exact hi.unique u v r (hend u a hu) (hend v b hv)

end Proto

end Async
