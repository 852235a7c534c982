/-!
# While loops

A loop `while (cond) body` over a state of any type.

* `While cond body x y`: the loop that starts in `x` ends in `y`.
* `While.invariant`: what each turn keeps holds at the end, where the condition does not.
* `While.bounded`: a loop ends where it is left after as many turns as a measure allows, if each turn
  decreases the measure.
-/

/-- The loop ends (module doc). -/
inductive While {α : Type} (cond : α → Prop) (body : α → α) : α → α → Prop
  | stop {x : α} : ¬ cond x → While cond body x x
  | turn {x y : α} : cond x → While cond body (body x) y → While cond body x y

namespace While

variable {α : Type} {cond : α → Prop} {body : α → α} {x y : α}

/-- **The rule of the loop.** -/
theorem invariant {I : α → Prop} (h : While cond body x y) (hx : I x)
    (hbody : ∀ x, cond x → I x → I (body x)) : I y ∧ ¬ cond y := by
  induction h with
  | stop hstop => exact ⟨hx, hstop⟩
  | turn hcond _ ih => exact ih (hbody _ hcond hx)

/-- The loop, left after `n` turns if it has not ended. -/
def bound (cond : α → Prop) [DecidablePred cond] (body : α → α) : Nat → α → α
  | 0, x => x
  | n + 1, x => if cond x then bound cond body n (body x) else x

/-- **A loop ends** if each turn decreases a measure. -/
theorem bounded [DecidablePred cond] (f : α → Nat) (hf : ∀ x, cond x → f (body x) < f x) {n : Nat}
    (hn : f x ≤ n) : While cond body x (bound cond body n x) := by
  induction n generalizing x with
  | zero =>
    refine .stop fun hcond => ?_
    have := hf x hcond
    omega
  | succ n ih =>
    unfold bound
    split
    · next hcond => exact .turn hcond (ih (by have := hf x hcond; omega))
    · next hstop => exact .stop hstop

end While
