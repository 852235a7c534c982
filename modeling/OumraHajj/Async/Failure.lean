import OumraHajj.Async.Sequential

/-!
# Failing statements

A statement that fails does nothing, and a handler that does not catch the failure ends there.
`W` tells the writes of a signature. `B.FailsAt W n p s s'`: in a run of the handler `p` from `s`
the first `n` writes are executed, the write after them fails, and the state is `s'`. The reads are
executed as in `Runs`, each with an environment of its own.

The first write fails where nothing is written yet (`FailsAt.unchanged`), so a handler that writes at
most once (`Prog.Once`) is atomic: no later write of it fails (`Once.not_failsAt`).
-/

namespace Async

/-- The handler executes at most one write, whatever the answers. -/
def Prog.Once {S : Sig} {ε α : Type} (W : S.Stmt → Bool) : Prog S ε α → Prop
  | .ret _ => True
  | .fail _ => True
  | .call c k => (W c = false ∧ ∀ r, (k r).Once W) ∨ ∀ r, (k r).Uses fun c => W c = false

/-- What only reads, and a handler that writes at most once. -/
theorem Prog.Once.bind {S : Sig} {ε α β : Type} {W : S.Stmt → Bool} {p : Prog S ε α}
    {f : α → Prog S ε β} (hp : p.Uses fun c => W c = false) (hf : ∀ a, (f a).Once W) :
    (p.bind f).Once W := by
  induction p with
  | ret a => exact hf a
  | fail x => trivial
  | call c k ih => exact .inl ⟨hp.1, fun r => ih r (hp.2 r)⟩

/-- A statement, and nothing written after it. -/
theorem Prog.Once.last {S : Sig} {ε α : Type} {W : S.Stmt → Bool} {c : S.Stmt}
    {k : S.Resp c → Prog S ε α} (hk : ∀ r, (k r).Uses fun c => W c = false) :
    (Prog.call c k).Once W := .inr hk

namespace Backend

variable {S : Sig} {St Env ε α β : Type} (B : Backend S St Env) (W : S.Stmt → Bool)

/-- The write number `n`, from 0, fails in `s'` (module doc). -/
def FailsAt : Nat → Prog S ε α → St → St → Prop
  | _, .ret _, _, _ => False
  | _, .fail _, _, _ => False
  | n, .call c k, s, s' =>
    match W c, n with
    | true, 0 => s' = s
    | true, n + 1 => ∃ e, FailsAt n (k (B.exec c e s).1) (B.exec c e s).2 s'
    | false, n => ∃ e, FailsAt n (k (B.exec c e s).1) (B.exec c e s).2 s'

/-- The state in which the write number `n` fails, if every statement gets the environment `e`. -/
def failing (e : Env) : Nat → Prog S ε α → St → Option St
  | _, .ret _, _ => none
  | _, .fail _, _ => none
  | n, .call c k, s =>
    match W c, n with
    | true, 0 => some s
    | true, n + 1 => failing e n (k (B.exec c e s).1) (B.exec c e s).2
    | false, n => failing e n (k (B.exec c e s).1) (B.exec c e s).2

variable {B W}

@[simp] theorem failsAt_ret {n : Nat} {a : α} {s s' : St} :
    ¬ B.FailsAt W n (.ret a : Prog S ε α) s s' := id

@[simp] theorem failsAt_fail {n : Nat} {x : ε} {s s' : St} :
    ¬ B.FailsAt W n (.fail x : Prog S ε α) s s' := id

theorem failsAt_read {n : Nat} {c : S.Stmt} (hc : W c = false) {k : S.Resp c → Prog S ε α}
    {s s' : St} : B.FailsAt W n (.call c k) s s' ↔
      ∃ e, B.FailsAt W n (k (B.exec c e s).1) (B.exec c e s).2 s' := by
  simp only [FailsAt, hc]

theorem failsAt_zero {c : S.Stmt} (hc : W c = true) {k : S.Resp c → Prog S ε α} {s s' : St} :
    B.FailsAt W 0 (.call c k) s s' ↔ s' = s := by
  simp only [FailsAt, hc]

theorem failsAt_succ {n : Nat} {c : S.Stmt} (hc : W c = true) {k : S.Resp c → Prog S ε α}
    {s s' : St} : B.FailsAt W (n + 1) (.call c k) s s' ↔
      ∃ e, B.FailsAt W n (k (B.exec c e s).1) (B.exec c e s).2 s' := by
  simp only [FailsAt, hc]

theorem failsAt_of_failing {e : Env} {n : Nat} {p : Prog S ε α} {s s' : St}
    (h : B.failing W e n p s = some s') : B.FailsAt W n p s s' := by
  induction p generalizing n s with
  | ret a => cases h
  | fail x => cases h
  | call c k ih =>
    rcases hc : W c with _ | _
    · simp only [failing, hc] at h
      exact (failsAt_read hc).mpr ⟨e, ih _ h⟩
    · cases n with
      | zero =>
        simp only [failing, hc, Option.some.injEq] at h
        exact (failsAt_zero hc).mpr h.symm
      | succ n =>
        simp only [failing, hc] at h
        exact (failsAt_succ hc).mpr ⟨e, ih _ h⟩

/-- The first write fails where nothing is written yet. -/
theorem FailsAt.unchanged (hW : ∀ c, W c = false → ∀ e s, (B.exec c e s).2 = s)
    {p : Prog S ε α} {s s' : St} (h : B.FailsAt W 0 p s s') : s' = s := by
  induction p generalizing s with
  | ret a => exact h.elim
  | fail x => exact h.elim
  | call c k ih =>
    rcases hc : W c with _ | _
    · obtain ⟨e, h⟩ := (failsAt_read hc).mp h
      rw [hW c hc] at h
      exact ih _ h
    · exact (failsAt_zero hc).mp h

/-- A sequence fails in its first part, or in the second one after the first has ended. -/
theorem failsAt_bind {n : Nat} {p : Prog S ε α} {f : α → Prog S ε β} {s s' : St}
    (h : B.FailsAt W n (p.bind f) s s') :
    B.FailsAt W n p s s' ∨
      ∃ a s₁ m, B.Runs p s (.ok a) s₁ ∧ B.FailsAt W m (f a) s₁ s' := by
  induction p generalizing n s with
  | ret a => exact .inr ⟨a, s, n, ⟨rfl, rfl⟩, h⟩
  | fail x => exact h.elim
  | call c k ih =>
    rw [Prog.call_bind] at h
    rcases hc : W c with _ | _
    · obtain ⟨e, h⟩ := (failsAt_read hc).mp h
      rcases ih _ h with h | ⟨a, s₁, m, hr, h⟩
      · exact .inl ((failsAt_read hc).mpr ⟨e, h⟩)
      · exact .inr ⟨a, s₁, m, ⟨e, hr⟩, h⟩
    · cases n with
      | zero => exact .inl ((failsAt_zero hc).mpr ((failsAt_zero hc).mp h))
      | succ n =>
        obtain ⟨e, h⟩ := (failsAt_succ hc).mp h
        rcases ih _ h with h | ⟨a, s₁, m, hr, h⟩
        · exact .inl ((failsAt_succ hc).mpr ⟨e, h⟩)
        · exact .inr ⟨a, s₁, m, ⟨e, hr⟩, h⟩

/-- A sequence whose first part only reads. -/
theorem failsAt_reads_bind (hW : ∀ c, W c = false → ∀ e s, (B.exec c e s).2 = s) {n : Nat}
    {p : Prog S ε α} (hp : p.Uses fun c => W c = false) {f : α → Prog S ε β} {s s' : St}
    (h : B.FailsAt W n (p.bind f) s s') :
    ∃ a, B.Runs p s (.ok a) s ∧ B.FailsAt W n (f a) s s' := by
  induction p with
  | ret a => exact ⟨a, ⟨rfl, rfl⟩, h⟩
  | fail x => exact h.elim
  | call c k ih =>
    obtain ⟨e, h⟩ := (failsAt_read hp.1).mp h
    rw [hW c hp.1] at h
    obtain ⟨a, hr, h⟩ := ih _ (hp.2 _) h
    refine ⟨a, ⟨e, ?_⟩, h⟩
    rw [hW c hp.1]
    exact hr

/-- A handler that does not write does not fail. -/
theorem not_failsAt {n : Nat} {p : Prog S ε α} (hp : p.Uses fun c => W c = false) {s s' : St} :
    ¬ B.FailsAt W n p s s' := by
  intro h
  induction p generalizing s with
  | ret a => exact h
  | fail x => exact h
  | call c k ih =>
    obtain ⟨e, h⟩ := (failsAt_read hp.1).mp h
    exact ih _ (hp.2 _) h

/-- After the one write of a handler nothing fails. -/
theorem Once.not_failsAt {n : Nat} {p : Prog S ε α} (hp : p.Once W) {s s' : St} :
    ¬ B.FailsAt W (n + 1) p s s' := by
  intro h
  induction p generalizing s with
  | ret a => exact h
  | fail x => exact h
  | call c k ih =>
    rcases hc : W c with _ | _
    · obtain ⟨e, h⟩ := (failsAt_read hc).mp h
      rcases hp with ⟨-, hk⟩ | hk
      · exact ih _ (hk _) h
      · exact Backend.not_failsAt (hk _) h
    · obtain ⟨e, h⟩ := (failsAt_succ hc).mp h
      rcases hp with ⟨hc', -⟩ | hk
      · rw [hc] at hc'
        cases hc'
      · exact Backend.not_failsAt (hk _) h

/-- A handler of one write at most is atomic. -/
theorem FailsAt.of_once (hW : ∀ c, W c = false → ∀ e s, (B.exec c e s).2 = s) {n : Nat}
    {p : Prog S ε α} (hp : p.Once W) {s s' : St} (h : B.FailsAt W n p s s') : s' = s := by
  cases n with
  | zero => exact h.unchanged hW
  | succ n => exact (Once.not_failsAt hp h).elim

/-- Only the value is dropped. -/
theorem failsAt_void {n : Nat} {p : Prog S ε α} {s s' : St} :
    B.FailsAt W n p.void s s' ↔ B.FailsAt W n p s s' := by
  induction p generalizing n s with
  | ret a => exact Iff.rfl
  | fail x => exact Iff.rfl
  | call c k ih =>
    have hv : (Prog.call c k).void = .call c fun r => (k r).void := rfl
    rw [hv]
    rcases hc : W c with _ | _
    · rw [failsAt_read hc, failsAt_read hc]
      exact exists_congr fun e => ih _
    · cases n with
      | zero => rw [failsAt_zero hc, failsAt_zero hc]
      | succ n =>
        rw [failsAt_succ hc, failsAt_succ hc]
        exact exists_congr fun e => ih _

end Backend

end Async
