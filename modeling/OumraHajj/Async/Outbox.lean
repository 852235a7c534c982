import Mathlib.Data.List.Count
import OumraHajj.Async.Pool

/-!
# Created, then published

Handlers create rows and publish each in a later statement. `Outbox` reads the state: how many rows were
created, and which were published. In the protocol `Proto.outbox` the ghost value of a handler is the row that
it has created and not published yet. `safe_other`, `safe_create` and `safe_publish` are the rules of the
statements; a handler that ends has published what it created.

`outbox_reach`: a row that was created in the run is published at most once, and once when the handlers have
ended.
-/

namespace Async

variable {S : Sig} {ι St Env ε α : Type}

/-- The rows that were created, and the ones that were published (module doc). -/
structure Outbox (St : Type) where
  created : St → Nat
  published : St → List Nat

namespace Outbox

/-- The invariant of the rows from `n₀` on; `γ` says which row each handler has to publish. -/
structure Inv (O : Outbox St) (n₀ : Nat) (γ : ι → Option Nat) (s : St) : Prop where
  unique : ∀ t u n, γ t = some n → γ u = some n → t = u
  pending : ∀ t n, γ t = some n → n₀ ≤ n ∧ n < O.created s ∧ n ∉ O.published s
  published : ∀ n, n₀ ≤ n → n < O.created s → (∀ t, γ t ≠ some n) → (O.published s).count n = 1
  bound : ∀ n ∈ O.published s, n < O.created s

variable {O : Outbox St} {n₀ : Nat} {γ : ι → Option Nat} {s s' : St}

/-- Nothing is created yet. -/
theorem Inv.start (hs : ∀ n ∈ O.published s, n < O.created s) :
    O.Inv (O.created s) (fun _ : ι => none) s where
  unique _ _ _ h := by cases h
  pending _ _ h := by cases h
  published n hn hlt _ := absurd hlt (Nat.not_lt.mpr hn)
  bound := hs

/-- A statement that neither creates nor publishes. -/
theorem Inv.other (h : O.Inv n₀ γ s) (hc : O.created s' = O.created s)
    (hp : O.published s' = O.published s) : O.Inv n₀ γ s' where
  unique := h.unique
  pending := by rw [hc, hp]; exact h.pending
  published := by rw [hc, hp]; exact h.published
  bound := by rw [hc, hp]; exact h.bound

theorem Inv.count_le (h : O.Inv n₀ γ s) {n : Nat} (hn : n₀ ≤ n) (hlt : n < O.created s) :
    (O.published s).count n ≤ 1 := by
  by_cases hpending : ∃ t, γ t = some n
  · obtain ⟨t, ht⟩ := hpending
    rw [List.count_eq_zero_of_not_mem (h.pending t n ht).2.2]
    exact Nat.zero_le 1
  · exact (h.published n hn hlt fun t ht => hpending ⟨t, ht⟩).le

variable [DecidableEq ι]

/-- A handler creates a row. -/
theorem Inv.create (h : O.Inv n₀ γ s) (hle : n₀ ≤ O.created s) {t : ι} (ht : γ t = none)
    (hc : O.created s' = O.created s + 1) (hp : O.published s' = O.published s) :
    O.Inv n₀ (Function.update γ t (some (O.created s))) s' := by
  have hold : ∀ u n, γ u = some n → n ≠ O.created s := fun u n hu => (h.pending u n hu).2.1.ne
  have hcases : ∀ u n, Function.update γ t (some (O.created s)) u = some n →
      (u = t ∧ n = O.created s) ∨ γ u = some n := by
    intro u n hu
    by_cases hut : u = t
    · subst hut
      rw [Function.update_self] at hu
      exact .inl ⟨rfl, (Option.some.inj hu).symm⟩
    · rw [Function.update_of_ne hut] at hu
      exact .inr hu
  refine ⟨fun u v n hu hv => ?_, fun u n hu => ?_, fun n hn hlt hnone => ?_, fun n hn => ?_⟩
  · rcases hcases u n hu with ⟨rfl, rfl⟩ | hu
    · rcases hcases v _ hv with ⟨rfl, -⟩ | hv
      · rfl
      · exact absurd rfl (hold v _ hv)
    · rcases hcases v n hv with ⟨-, rfl⟩ | hv
      · exact absurd rfl (hold u _ hu)
      · exact h.unique u v n hu hv
  · rw [hc, hp]
    rcases hcases u n hu with ⟨-, rfl⟩ | hu
    · exact ⟨hle, Nat.lt_succ_self _, fun hmem => (h.bound _ hmem).ne rfl⟩
    · obtain ⟨hn, hlt, hmem⟩ := h.pending u n hu
      exact ⟨hn, Nat.lt_succ_of_lt hlt, hmem⟩
  · rw [hp]
    have hne : n ≠ O.created s := by
      rintro rfl
      exact hnone t (Function.update_self t _ γ)
    refine h.published n hn (by omega) fun u hu => hnone u ?_
    have hut : u ≠ t := by
      rintro rfl
      rw [ht] at hu
      cases hu
    rw [Function.update_of_ne hut, hu]
  · rw [hc]
    rw [hp] at hn
    exact Nat.lt_succ_of_lt (h.bound n hn)

/-- A handler publishes the row that it has created. -/
theorem Inv.publish (h : O.Inv n₀ γ s) {t : ι} {n : Nat} (ht : γ t = some n)
    (hc : O.created s' = O.created s) (hp : O.published s' = O.published s ++ [n]) :
    O.Inv n₀ (Function.update γ t none) s' := by
  have hcases : ∀ u m, Function.update γ t none u = some m → u ≠ t ∧ γ u = some m := by
    intro u m hu
    by_cases hut : u = t
    · subst hut
      rw [Function.update_self] at hu
      cases hu
    · rw [Function.update_of_ne hut] at hu
      exact ⟨hut, hu⟩
  obtain ⟨-, hlt, hfree⟩ := h.pending t n ht
  refine ⟨fun u v m hu hv => ?_, fun u m hu => ?_, fun m hm hltm hnone => ?_, fun m hm => ?_⟩
  · exact h.unique u v m (hcases u m hu).2 (hcases v m hv).2
  · obtain ⟨hut, hu⟩ := hcases u m hu
    obtain ⟨hm, hltm, hmem⟩ := h.pending u m hu
    have hne : m ≠ n := by
      rintro rfl
      exact hut (h.unique u t m hu ht)
    rw [hc, hp]
    exact ⟨hm, hltm, by simp [hmem, hne]⟩
  · rw [hc] at hltm
    rw [hp, List.count_append]
    by_cases hne : m = n
    · subst hne
      rw [List.count_eq_zero_of_not_mem hfree, List.count_singleton_self]
    · rw [List.count_singleton, if_neg (by simpa using Ne.symm hne), Nat.add_zero]
      refine h.published m hm hltm fun u hu => hnone u ?_
      have hut : u ≠ t := by
        rintro rfl
        exact hne (Option.some.inj (hu.symm.trans ht))
      rw [Function.update_of_ne hut, hu]
  · rw [hp] at hm
    rw [hc]
    rcases List.mem_append.mp hm with hm | hm
    · exact h.bound m hm
    · obtain rfl := List.mem_singleton.mp hm
      exact hlt

end Outbox

namespace Proto

open Pool

variable [DecidableEq ι] {B : Backend S St Env} {ok : Cond S ι St Env} {O : Outbox St} {n₀ : Nat}

/-- The protocol (module doc). -/
def outbox (O : Outbox St) (n₀ : Nat) : Proto S ι St where
  Gh := Option Nat
  inv γ s := O.Inv n₀ γ s ∧ n₀ ≤ O.created s
  place _ _ := True

/-- The statement neither creates nor publishes. -/
def Neutral (O : Outbox St) (B : Backend S St Env) (c : S.Stmt) : Prop :=
  ∀ e s, O.created (B.exec c e s).2 = O.created s ∧ O.published (B.exec c e s).2 = O.published s

/-- A handler of statements that neither create nor publish. -/
theorem safe_neutral {t : ι} {p : Prog S ε α} {Q : Except ε α → Option Nat → Prop} {g : Option Nat}
    (hp : p.Uses (Neutral O B)) (hQ : ∀ r, Q r g) :
    (outbox O n₀ : Proto S ι St).Safe B ok t p Q g := by
  refine safe_uses (P := outbox O n₀) (A := Neutral O B) (fun _ _ => trivial) ?_ hp hQ
  rintro c hc γ s e ⟨hi, hle⟩ -
  exact ⟨hi.other (hc e s).1 (hc e s).2, by rw [(hc e s).1]; exact hle⟩

/-- A statement that creates a row, or none. -/
theorem safe_create {t : ι} {c : S.Stmt} {k : S.Resp c → Prog S ε α}
    {Q : Except ε α → Option Nat → Prop}
    (hc : ∀ e s, O.published (B.exec c e s).2 = O.published s ∧
      ((O.created (B.exec c e s).2 = O.created s ∧
          (outbox O n₀ : Proto S ι St).Safe B ok t (k (B.exec c e s).1) Q none) ∨
        (O.created (B.exec c e s).2 = O.created s + 1 ∧
          (outbox O n₀ : Proto S ι St).Safe B ok t (k (B.exec c e s).1) Q (some (O.created s))))) :
    (outbox O n₀ : Proto S ι St).Safe B ok t (.call c k) Q none := by
  refine ⟨trivial, ?_⟩
  rintro γ next s e ⟨hi, hle⟩ hg - - -
  obtain ⟨hp, ⟨hc, hk⟩ | ⟨hc, hk⟩⟩ := hc e s
  · refine ⟨none, ⟨?_, by rw [hc]; exact hle⟩, hk⟩
    rw [← hg, Function.update_eq_self]
    exact hi.other hc hp
  · exact ⟨some (O.created s), ⟨hi.create hle hg hc hp, by rw [hc]; exact Nat.le_succ_of_le hle⟩, hk⟩

/-- The statement that publishes the row that was created. -/
theorem safe_publish {t : ι} {c : S.Stmt} {k : S.Resp c → Prog S ε α}
    {Q : Except ε α → Option Nat → Prop} {n : Nat}
    (hc : ∀ e s, O.created (B.exec c e s).2 = O.created s ∧
      O.published (B.exec c e s).2 = O.published s ++ [n])
    (hk : ∀ e s, (outbox O n₀ : Proto S ι St).Safe B ok t (k (B.exec c e s).1) Q none) :
    (outbox O n₀ : Proto S ι St).Safe B ok t (.call c k) Q (some n) := by
  refine ⟨trivial, ?_⟩
  rintro γ next s e ⟨hi, hle⟩ hg - - -
  exact ⟨none, ⟨hi.publish hg (hc e s).1 (hc e s).2, by rw [(hc e s).1]; exact hle⟩, hk e s⟩

/-- **Created, then published.** In every pool that the handlers reach, a row of the run is published at most
once; once they have all ended, it is published once. Nothing is published that was not created. -/
theorem outbox_reach {c₀ c : Pool S ι St ε α} (h₀ : ∀ n ∈ O.published c₀.st, n < O.created c₀.st)
    (hp : ∀ t, (outbox O (O.created c₀.st) : Proto S ι St).Safe B ok t (c₀.procs t)
      (fun _ g => g = none) none) (hr : Reach B ok c₀ c) :
    (∀ n, O.created c₀.st ≤ n → n < O.created c.st → (O.published c.st).count n ≤ 1 ∧
      (c.Finished → (O.published c.st).count n = 1)) ∧ ∀ n ∈ O.published c.st, n < O.created c.st := by
  obtain ⟨γ, ⟨hi, -⟩, hs⟩ := Proto.reach (P := outbox O (O.created c₀.st))
    (Q := fun _ (_ : Except ε α) (g : Option Nat) => g = none) (fun _ _ _ _ => trivial)
    ⟨fun _ => none, ⟨.start h₀, Nat.le_refl _⟩, hp⟩ hr
  refine ⟨fun n hn hlt => ⟨hi.count_le hn hlt, fun hfin => hi.published n hn hlt fun t ht => ?_⟩, hi.bound⟩
  -- the handler has ended, so it has nothing to publish
  have hnone : γ t = none := by
    have hsafe := hs t
    have hnext : (c.procs t).next = none := hfin t
    cases hprog : c.procs t with
    | ret a => rw [hprog] at hsafe; exact hsafe
    | fail x => rw [hprog] at hsafe; exact hsafe
    | call q k => rw [hprog] at hnext; cases hnext
  rw [hnone] at ht
  cases ht

end Proto

end Async
