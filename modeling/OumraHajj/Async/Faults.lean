import OumraHajj.Async.Rely

/-!
# Faults that a handler catches

* `S.faulty`: the statements of `S`, each of which may fail. `B.faulty`: its backend, where a statement
  without an environment fails and does nothing. `Prog.faulty x`: a handler that throws `x` when one of
  its statements fails. What catches the error is written over `S.faulty`, so that it catches these.
* `Prog.attempt`: the handler with its result as a value. `bind_tryCatch`: a `try` around a sequence is a
  first part, attempted, and a `try` around the rest.
* `B.RunsIf ok p s r s'`: a run of `p` as in `Runs`, each statement of which satisfies the condition `ok`
  with the state that it is executed in and its environment.
-/

namespace Async

variable {S : Sig} {St Env ε α β : Type}

/-- The statements of a signature, each of which may fail (module doc). -/
abbrev Sig.faulty (S : Sig) : Sig := ⟨S.Stmt, fun c => Option (S.Resp c)⟩

/-- A statement without an environment fails and does nothing. -/
def Backend.faulty (B : Backend S St Env) : Backend S.faulty St (Option Env) where
  exec
    | c, some e, s => (some (B.exec c e s).1, (B.exec c e s).2)
    | _, none, s => (none, s)

namespace Prog

/-- The handler that throws `x` when a statement fails. -/
def faulty (x : ε) : Prog S ε α → Prog S.faulty ε α
  | .ret a => .ret a
  | .fail e => .fail e
  | .call c k => .call c fun o => o.elim (.fail x) fun r => (k r).faulty x

/-- The handler with its result as a value. -/
def attempt : Prog S ε α → Prog S ε (Except ε α)
  | .ret a => .ret (.ok a)
  | .fail e => .ret (.error e)
  | .call c k => .call c fun r => (k r).attempt

theorem bind_tryCatch (p : Prog S ε α) (f : α → Prog S ε β) (h : ε → Prog S ε β) :
    (p.bind f).tryCatch h = p.attempt.bind fun r => match r with
      | .ok a => (f a).tryCatch h
      | .error e => h e := by
  induction p with
  | ret a => rfl
  | fail e => rfl
  | call c k ih => exact congrArg _ (funext ih)

/-- What only catches the error is the handler without its result. -/
theorem tryCatch_ret (p : Prog S ε Unit) : (p.tryCatch fun _ => .ret ()) = p.attempt.void := by
  induction p with
  | ret a => rfl
  | fail e => rfl
  | call c k ih => exact congrArg _ (funext ih)

theorem Uses.tryCatch {A : S.Stmt → Prop} {p : Prog S ε α} {h : ε → Prog S ε α} (hp : p.Uses A)
    (hh : ∀ e, (h e).Uses A) : (p.tryCatch h).Uses A := by
  induction p with
  | ret a => trivial
  | fail e => exact hh e
  | call c k ih => exact ⟨hp.1, fun r => ih r (hp.2 r)⟩

theorem Uses.faulty {A : S.Stmt → Prop} {x : ε} {p : Prog S ε α} (hp : p.Uses A) :
    Uses (S := S.faulty) A (p.faulty x) := by
  induction p with
  | ret a => trivial
  | fail e => trivial
  | call c k ih =>
    refine ⟨hp.1, fun r => ?_⟩
    cases r with
    | none => trivial
    | some r => exact ih r (hp.2 r)

end Prog

namespace Backend

variable (B : Backend S St Env) (ok : S.Stmt → St → Env → Prop)

/-- A run whose statements satisfy the condition (module doc). -/
def RunsIf : Prog S ε α → St → Except ε α → St → Prop
  | .ret a, s, r, s' => r = .ok a ∧ s' = s
  | .fail e, s, r, s' => r = .error e ∧ s' = s
  | .call c k, s, r, s' => ∃ e, ok c s e ∧ RunsIf (k (B.exec c e s).1) (B.exec c e s).2 r s'

variable {B ok} {s s' : St} {p : Prog S ε α}

theorem RunsIf.runs {r : Except ε α} (h : B.RunsIf ok p s r s') : B.Runs p s r s' := by
  induction p generalizing s with
  | ret a => exact h
  | fail e => exact h
  | call c k ih =>
    obtain ⟨e, -, h⟩ := h
    exact ⟨e, ih _ h⟩

theorem runsIf_bind {f : α → Prog S ε β} {r : Except ε β} :
    B.RunsIf ok (p.bind f) s r s' ↔
      (∃ a s₁, B.RunsIf ok p s (.ok a) s₁ ∧ B.RunsIf ok (f a) s₁ r s') ∨
      (∃ e, B.RunsIf ok p s (.error e) s' ∧ r = .error e) := by
  induction p generalizing s with
  | ret a =>
    constructor
    · exact fun h => .inl ⟨a, s, ⟨rfl, rfl⟩, h⟩
    · rintro (⟨a', s₁, ⟨h, rfl⟩, h'⟩ | ⟨e, ⟨h, -⟩, -⟩)
      · cases h
        exact h'
      · cases h
  | fail x =>
    constructor
    · rintro ⟨rfl, rfl⟩
      exact .inr ⟨x, ⟨rfl, rfl⟩, rfl⟩
    · rintro (⟨a, s₁, ⟨h, -⟩, -⟩ | ⟨e, ⟨h, rfl⟩, rfl⟩)
      · cases h
      · cases h
        exact ⟨rfl, rfl⟩
  | call c k ih =>
    constructor
    · rintro ⟨e, ho, h⟩
      rcases (ih _).mp h with ⟨a, s₁, hp, hf⟩ | ⟨x, hp, hr⟩
      · exact .inl ⟨a, s₁, ⟨e, ho, hp⟩, hf⟩
      · exact .inr ⟨x, ⟨e, ho, hp⟩, hr⟩
    · rintro (⟨a, s₁, ⟨e, ho, hp⟩, hf⟩ | ⟨x, ⟨e, ho, hp⟩, hr⟩)
      · exact ⟨e, ho, (ih _).mpr (.inl ⟨a, s₁, hp, hf⟩)⟩
      · exact ⟨e, ho, (ih _).mpr (.inr ⟨x, hp, hr⟩)⟩

theorem runsIf_attempt {r : Except ε (Except ε α)} :
    B.RunsIf ok p.attempt s r s' ↔ ∃ x, r = .ok x ∧ B.RunsIf ok p s x s' := by
  induction p generalizing s with
  | ret a =>
    constructor
    · rintro ⟨rfl, rfl⟩
      exact ⟨_, rfl, rfl, rfl⟩
    · rintro ⟨_, rfl, rfl, rfl⟩
      exact ⟨rfl, rfl⟩
  | fail e =>
    constructor
    · rintro ⟨rfl, rfl⟩
      exact ⟨_, rfl, rfl, rfl⟩
    · rintro ⟨_, rfl, rfl, rfl⟩
      exact ⟨rfl, rfl⟩
  | call c k ih =>
    constructor
    · rintro ⟨e, ho, h⟩
      obtain ⟨x, rfl, hx⟩ := (ih _).mp h
      exact ⟨x, rfl, e, ho, hx⟩
    · rintro ⟨x, rfl, e, ho, hx⟩
      exact ⟨e, ho, (ih _).mpr ⟨x, rfl, hx⟩⟩

theorem runsIf_tryCatch {h : ε → Prog S ε α} {r : Except ε α} :
    B.RunsIf ok (p.tryCatch h) s r s' ↔
      (∃ a, r = .ok a ∧ B.RunsIf ok p s (.ok a) s') ∨
      (∃ e s₁, B.RunsIf ok p s (.error e) s₁ ∧ B.RunsIf ok (h e) s₁ r s') := by
  induction p generalizing s with
  | ret a =>
    constructor
    · rintro ⟨rfl, rfl⟩
      exact .inl ⟨a, rfl, rfl, rfl⟩
    · rintro (⟨a', rfl, h', rfl⟩ | ⟨e, s₁, ⟨h', -⟩, -⟩)
      · exact ⟨h', rfl⟩
      · cases h'
  | fail x =>
    constructor
    · exact fun hx => .inr ⟨x, s, ⟨rfl, rfl⟩, hx⟩
    · rintro (⟨a, -, h', -⟩ | ⟨e, s₁, ⟨h', rfl⟩, hx⟩)
      · cases h'
      · cases h'
        exact hx
  | call c k ih =>
    constructor
    · rintro ⟨e, ho, hx⟩
      rcases (ih _).mp hx with ⟨a, rfl, hp⟩ | ⟨y, s₁, hp, hy⟩
      · exact .inl ⟨a, rfl, e, ho, hp⟩
      · exact .inr ⟨y, s₁, ⟨e, ho, hp⟩, hy⟩
    · rintro (⟨a, rfl, e, ho, hp⟩ | ⟨y, s₁, ⟨e, ho, hp⟩, hy⟩)
      · exact ⟨e, ho, (ih _).mpr (.inl ⟨a, rfl, hp⟩)⟩
      · exact ⟨e, ho, (ih _).mpr (.inr ⟨y, s₁, hp, hy⟩)⟩

theorem runsIf_true {r : Except ε α} : B.RunsIf (fun _ _ _ => True) p s r s' ↔ B.Runs p s r s' := by
  induction p generalizing s with
  | ret a => exact Iff.rfl
  | fail e => exact Iff.rfl
  | call c k ih => exact exists_congr fun e => (and_iff_right trivial).trans (ih _)

/-- A statement that may fail: it is executed, or it fails and does nothing. -/
theorem runsIf_faulty_exec {ok : S.faulty.Stmt → St → Option Env → Prop} {x : ε} {c : S.Stmt}
    {r : Except ε (S.Resp c)} (h : B.faulty.RunsIf ok ((Prog.exec c).faulty x) s r s') :
    (∃ e, ok c s (some e) ∧ r = .ok (B.exec c e s).1 ∧ s' = (B.exec c e s).2) ∨
      (ok c s none ∧ r = .error x ∧ s' = s) := by
  obtain ⟨_ | e, hok, hr, hs⟩ := h
  · exact .inr ⟨hok, hr, hs⟩
  · exact .inl ⟨e, hok, hr, hs⟩

/-- The run in which the statement `c` gets the environment `env c`. -/
theorem runsIf_evalBy {env : S.Stmt → Env} (hok : ∀ c s, ok c s (env c)) (p : Prog S ε α) (s : St) :
    B.RunsIf ok p s (B.evalBy env p s).1 (B.evalBy env p s).2 := by
  induction p generalizing s with
  | ret a => exact ⟨rfl, rfl⟩
  | fail x => exact ⟨rfl, rfl⟩
  | call c k ih => exact ⟨env c, hok c s, ih _ _⟩

/-- Where the condition can always be met, a handler has a run. -/
theorem exists_runsIf (hok : ∀ c s, ∃ e, ok c s e) (p : Prog S ε α) (s : St) :
    ∃ r s', B.RunsIf ok p s r s' := by
  induction p generalizing s with
  | ret a => exact ⟨_, _, rfl, rfl⟩
  | fail e => exact ⟨_, _, rfl, rfl⟩
  | call c k ih =>
    obtain ⟨e, he⟩ := hok c s
    obtain ⟨r, s', h⟩ := ih (B.exec c e s).1 (B.exec c e s).2
    exact ⟨r, s', e, he, h⟩

end Backend

/-- What a handler keeps, it keeps where its statements may fail. -/
theorem Rely.Keeps.faulty {D : Rely St} {B : Backend S St Env} {ok : S.Stmt → St → Env → Prop}
    {ok' : S.faulty.Stmt → St → Option Env → Prop} (hok : ∀ c s e, ok' c s (some e) → ok c s e) {x : ε}
    {p : Prog S ε α} {s : St} {Q : Except ε α → St → Prop} (hx : ∀ s', D.le s s' → Q (.error x) s')
    (h : D.Keeps B ok p s Q) : D.Keeps B.faulty ok' (p.faulty x) s Q := by
  induction p generalizing s with
  | ret a => exact h
  | fail y => exact h
  | call c k ih =>
    intro s' e hi hle ho
    cases e with
    | none => exact ⟨hi, D.refl s', hx s' hle⟩
    | some e =>
      obtain ⟨hi', hle', hk⟩ := h s' e hi hle (hok c s' e ho)
      refine ⟨hi', hle', ih _ (fun s₁ h₁ => hx s₁ ?_) hk⟩
      exact D.trans _ _ _ hle (D.trans _ _ _ hle' h₁)

end Async
