import OumraHajj.Async.Pool

/-!
# Handlers whose results are recorded

An interceptor records what a handler returns in a trail, once it has returned. A record that fails is lost, and
the handler returns what it would have returned.

* `traced S R`: the statements of a service, and the record of an entry.
* `intercept entry p`: the handler `p`, and then the record of the entry of its value (`none`: no record).
* `Follows`: a pool with the interceptor beside one without it. `Follows.step`: each of its steps is a step of the
  other pool or a record.
* `trail_reach`: the handlers run as they do without the interceptor, and beside what it had the trail has one row
  for each of some of the handlers that have returned a value, made from its value; for each one that is recorded,
  where no record fails.
-/

namespace Async.Trail

variable {S : Sig} {ι St Env ε α R X : Type}

/-- The statements of a service, and the record of an entry. -/
abbrev traced (S : Sig) (R : Type) : Sig := S.sum ⟨R, fun _ => Unit⟩

/-- The state of the service, and the trail. The environment says whether the record succeeds. -/
def backend (B : Backend S St Env) (row : R → Env → X) :
    Backend (traced S R) (St × List X) (Env × Bool) where
  exec
    | .inl c, e, x => ((B.exec c e.1 x.1).1, ((B.exec c e.1 x.1).2, x.2))
    | .inr r, e, x => ((), (x.1, if e.2 then x.2 ++ [row r e.1] else x.2))

/-- The record of the entry of a value. -/
def record (entry : Option (α → R)) (a : α) : Prog (traced S R) ε α :=
  match entry with
  | none => .ret a
  | some f => .call (.inr (f a)) fun _ => .ret a

/-- A handler with the interceptor (module doc). -/
def intercept (entry : Option (α → R)) (p : Prog S ε α) : Prog (traced S R) ε α :=
  p.left.bind (record entry)

/-- The handlers with the interceptor, over a trail. -/
def Pool.intercept (entry : ι → Option (α → R)) (d : Pool S ι St ε α) (l : List X) :
    Pool (traced S R) ι (St × List X) ε α :=
  ⟨fun t => Trail.intercept (entry t) (d.procs t), (d.st, l)⟩

/-- The handlers that have a row of the trail, each with its row. -/
abbrev Written (ι X : Type) := List (ι × X)

variable {B : Backend S St Env} {row : R → Env → X} {entry : ι → Option (α → R)} {l : List X}

/-- The row is made from the value of the handler. -/
def Made (row : R → Env → X) (entry : ι → Option (α → R)) (d : Pool S ι St ε α) (y : ι × X) : Prop :=
  ∃ f a e, entry y.1 = some f ∧ d.procs y.1 = .ret a ∧ y.2 = row (f a) e

/-- A pool with the interceptor beside one without it; `all` says that no record has failed. -/
structure Follows (row : R → Env → X) (entry : ι → Option (α → R)) (l : List X) (all : Prop)
    (d : Pool S ι St ε α) (w : Written ι X) (c : Pool (traced S R) ι (St × List X) ε α) : Prop where
  state : c.st = (d.st, l ++ w.map Prod.snd)
  procs : ∀ t, (c.procs t = Trail.intercept (entry t) (d.procs t) ∧ t ∉ w.map Prod.fst) ∨
    ∃ f a, entry t = some f ∧ d.procs t = .ret a ∧ c.procs t = .ret a ∧ (all → t ∈ w.map Prod.fst)
  once : (w.map Prod.fst).Nodup
  made : ∀ y ∈ w, Made row entry d y

variable {all : Prop} {d : Pool S ι St ε α} {w : Written ι X}
  {c : Pool (traced S R) ι (St × List X) ε α}

theorem Follows.start (d : Pool S ι St ε α) (l : List X) :
    Follows row entry l all d [] (Pool.intercept entry d l) where
  state := by rw [List.map_nil, List.append_nil]; rfl
  procs t := .inl ⟨rfl, List.not_mem_nil⟩
  once := .nil
  made y hy := by cases hy

/-- A handler that has ended has ended without the interceptor. -/
theorem Follows.ended (h : Follows row entry l all d w c) (t : ι) :
    (∀ a, c.procs t = .ret a → d.procs t = .ret a ∧
      (all → (entry t).isSome → t ∈ w.map Prod.fst)) ∧
    ∀ x, c.procs t = .fail x → d.procs t = .fail x := by
  rcases h.procs t with ⟨hc, hw⟩ | ⟨f, a, hf, hd, hc, hin⟩
  · rw [hc]
    rcases hd : d.procs t with a | x | ⟨q, k⟩
    · rcases hf : entry t with _ | f
      · refine ⟨?_, ?_⟩
        · rintro a' ⟨⟩
          exact ⟨rfl, fun _ h => by cases h⟩
        · rintro x ⟨⟩
      · exact ⟨by rintro a' ⟨⟩, by rintro x ⟨⟩⟩
    · refine ⟨by rintro a' ⟨⟩, ?_⟩
      rintro x' ⟨⟩
      rfl
    · exact ⟨by rintro a' ⟨⟩, by rintro x ⟨⟩⟩
  · rw [hc]
    refine ⟨?_, by rintro x ⟨⟩⟩
    rintro a' ⟨⟩
    exact ⟨hd, fun hall _ => hin hall⟩

/-- A row of the trail is that of a handler that has ended. -/
theorem Follows.line (h : Follows row entry l all d w c) {y : ι × X} (hy : y ∈ w) :
    ∃ f a e, entry y.1 = some f ∧ c.procs y.1 = .ret a ∧ y.2 = row (f a) e := by
  obtain ⟨f, a, e, hf, hd, hrow⟩ := h.made y hy
  rcases h.procs y.1 with ⟨-, hw⟩ | ⟨f', a', -, hd', hc, -⟩
  · exact absurd (List.mem_map_of_mem hy) hw
  · obtain rfl : a = a' := by simpa [hd] using hd'
    exact ⟨f, a, e, hf, hc, hrow⟩

variable [DecidableEq ι]

/-- A statement of the service. -/
theorem Follows.call (h : Follows row entry l all d w c) {t : ι} {q : S.Stmt} {k : S.Resp q → Prog S ε α}
    (hd : d.procs t = .call q k) (hc : c.procs t = Trail.intercept (entry t) (d.procs t))
    (hw : t ∉ w.map Prod.fst) (e : Env × Bool) :
    Follows row entry l all (Pool.step B t e.1 d) w (Pool.step (backend B row) t e c) := by
  have hc' : c.procs t = .call (.inl q) fun r => Trail.intercept (entry t) (k r) := by rw [hc, hd]; rfl
  have hstep : Pool.step (backend B row) t e c =
      ⟨Function.update c.procs t (Trail.intercept (entry t) (k (B.exec q e.1 d.st).1)),
        ((B.exec q e.1 d.st).2, l ++ w.map Prod.snd)⟩ := by
    simp only [Pool.step, hc', backend, h.state]
  have hstep' : Pool.step B t e.1 d =
      ⟨Function.update d.procs t (k (B.exec q e.1 d.st).1), (B.exec q e.1 d.st).2⟩ := by
    simp only [Pool.step, hd]
  rw [hstep, hstep']
  refine ⟨rfl, fun u => ?_, h.once, fun y hy => ?_⟩
  · by_cases hu : u = t
    · subst hu
      exact .inl ⟨by simp only [Function.update_self], hw⟩
    · simp only [Function.update_of_ne hu]
      exact h.procs u
  · have hy' : y.1 ≠ t := fun heq => hw (heq ▸ List.mem_map_of_mem hy)
    obtain ⟨f, a, e', hf, ha, hrow⟩ := h.made y hy
    exact ⟨f, a, e', hf, by simpa only [Function.update_of_ne hy'] using ha, hrow⟩

/-- The record of a handler that has returned `a`. -/
theorem Follows.record (h : Follows row entry l all d w c) {t : ι} {f : α → R} {a : α}
    (hf : entry t = some f) (hd : d.procs t = .ret a)
    (hc : c.procs t = Trail.intercept (entry t) (d.procs t)) (hw : t ∉ w.map Prod.fst) {e : Env × Bool}
    (hall : all → e.2 = true) :
    Follows row entry l all d (if e.2 then w ++ [(t, row (f a) e.1)] else w)
      (Pool.step (backend B row) t e c) := by
  have hc' : c.procs t = .call (.inr (f a)) fun _ => .ret a := by rw [hc, hd, hf]; rfl
  have hstep : Pool.step (backend B row) t e c =
      ⟨Function.update c.procs t (.ret a),
        (d.st, if e.2 then l ++ w.map Prod.snd ++ [row (f a) e.1] else l ++ w.map Prod.snd)⟩ := by
    simp only [Pool.step, hc', backend, h.state]
  have hprocs : ∀ w' : Written ι X, (∀ u, u ≠ t → (u ∈ w'.map Prod.fst ↔ u ∈ w.map Prod.fst)) →
      (all → t ∈ w'.map Prod.fst) → ∀ u,
      (Function.update c.procs t (.ret a) u = Trail.intercept (entry u) (d.procs u) ∧
          u ∉ w'.map Prod.fst) ∨
        ∃ f a', entry u = some f ∧ d.procs u = .ret a' ∧
          Function.update c.procs t (.ret a) u = .ret a' ∧ (all → u ∈ w'.map Prod.fst) := by
    intro w' hw' ht u
    by_cases hu : u = t
    · subst hu
      exact .inr ⟨f, a, hf, hd, Function.update_self .., ht⟩
    · simp only [Function.update_of_ne hu, hw' u hu]
      exact h.procs u
  rw [hstep]
  cases he : e.2 with
  | false =>
    have hfalse : ¬ all := fun hall' => Bool.false_ne_true (he.symm.trans (hall hall'))
    exact ⟨rfl, hprocs w (fun _ _ => Iff.rfl) fun h => absurd h hfalse, h.once, h.made⟩
  | true =>
    refine ⟨?_, hprocs _ (fun u hu => ?_) (fun _ => ?_), ?_, fun y hy => ?_⟩
    · simp only [if_true, List.map_append, List.map_cons, List.map_nil, List.append_assoc]
    · simp [hu]
    · simp
    · simp only [if_true, List.map_append, List.map_cons, List.map_nil]
      exact List.nodup_append.mpr ⟨h.once, List.nodup_singleton t, fun u hu v hv =>
        fun heq => hw (List.mem_singleton.mp hv ▸ heq ▸ hu)⟩
    · rcases List.mem_append.mp hy with hy | hy
      · exact h.made y hy
      · obtain rfl := List.mem_singleton.mp hy
        exact ⟨f, a, e.1, hf, hd, rfl⟩

/-- One step: a step without the interceptor, or a record, or nothing. -/
theorem Follows.step (h : Follows row entry l all d w c) (t : ι) {e : Env × Bool}
    (hall : all → e.2 = true) :
    ∃ d' w', (d' = d ∨ d' = Pool.step B t e.1 d) ∧
      Follows row entry l all d' w' (Pool.step (backend B row) t e c) := by
  have hended : (∃ a, c.procs t = .ret a) ∨ (∃ x, c.procs t = .fail x) →
      Pool.step (backend B row) t e c = c := by
    rintro (⟨a, ha⟩ | ⟨x, hx⟩)
    · simp only [Pool.step, ha]
    · simp only [Pool.step, hx]
  rcases h.procs t with ⟨hc, hw⟩ | ⟨f, a, -, -, hc, -⟩
  · rcases hd : d.procs t with a | x | ⟨q, k⟩
    · rcases hf : entry t with _ | f
      · rw [hended (.inl ⟨a, by rw [hc, hd, hf]; rfl⟩)]
        exact ⟨d, w, .inl rfl, h⟩
      · exact ⟨d, _, .inl rfl, h.record hf hd hc hw hall⟩
    · rw [hended (.inr ⟨x, by rw [hc, hd]; rfl⟩)]
      exact ⟨d, w, .inl rfl, h⟩
    · exact ⟨_, w, .inr rfl, h.call hd hc hw e⟩
  · rw [hended (.inl ⟨a, hc⟩)]
    exact ⟨d, w, .inl rfl, h⟩

/-- **The trail of a run** (module doc). -/
theorem trail_reach {ok : Pool.Cond (traced S R) ι (St × List X) (Env × Bool)} (d : Pool S ι St ε α)
    (l : List X) {c : Pool (traced S R) ι (St × List X) ε α}
    (hr : Pool.Reach (backend B row) ok (Pool.intercept entry d l) c) :
    ∃ d' w, Pool.Reach B Pool.anyStep d d' ∧
      Follows row entry l (∀ n s t e, ok n s t e → e.2 = true) d' w c := by
  induction hr with
  | refl => exact ⟨d, [], .refl, .start d l⟩
  | step t e _ hok ih =>
    obtain ⟨d₁, w, hr₁, h⟩ := ih
    obtain ⟨d₂, w', hd, h'⟩ := h.step (B := B) t fun hall => hall _ _ _ _ hok
    rcases hd with rfl | rfl
    · exact ⟨d₂, w', hr₁, h'⟩
    · exact ⟨_, w', hr₁.step t e.1 trivial, h'⟩

/-! ## The values of the handlers -/

/-- The pool whose handlers end with the image of what they end with. -/
def Pool.map {β : Type} (g : α → β) (d : Pool S ι St ε α) : Pool S ι St ε β :=
  ⟨fun t => (d.procs t).bind fun a => .ret (g a), d.st⟩

theorem Pool.map_step {β : Type} (g : α → β) (d : Pool S ι St ε α) (t : ι) (e : Env) :
    Pool.step B t e (Pool.map g d) = Pool.map g (Pool.step B t e d) := by
  rcases hd : d.procs t with a | x | ⟨q, k⟩
  · simp only [Pool.step, Pool.map, hd, Prog.ret_bind]
  · simp only [Pool.step, Pool.map, hd, Prog.fail_bind]
  · simp only [Pool.step, Pool.map, hd, Prog.call_bind]
    refine congrArg₂ Pool.mk (funext fun u => ?_) rfl
    by_cases hu : u = t
    · subst hu
      simp only [Function.update_self]
    · simp only [Function.update_of_ne hu]

/-- They execute the same statements. -/
theorem Pool.map_reach {β : Type} (g : α → β) {d d' : Pool S ι St ε α}
    (hr : Pool.Reach B Pool.anyStep d d') : Pool.Reach B Pool.anyStep (Pool.map g d) (Pool.map g d') := by
  induction hr with
  | refl => exact .refl
  | step t e _ _ ih =>
    rw [← Pool.map_step]
    exact ih.step t e trivial

end Async.Trail
