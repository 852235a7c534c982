import OumraHajj.Async.Embed
import OumraHajj.Async.History

/-!
# Links that are taken back

Whoever shows the link of a row, a random token, gets the row. A row has at most one link, and a new one takes
the old one back.

* `Column K T`: a unique column that may be null, as the rows that have a token. `Column.get` reads it, `find`
  searches it, and `assign` gives a row a token unless another row has it.
* `linked S Q K T`: the statements of a service, and those of the links of its rows. `Rows` says which row a
  query finds. The token of `assign` is drawn when the statement is executed.
* `getOrCreate`, `regenerate`: the link that the row has or else a new one, and a new one.
* `note`: the links that were drawn, the last one first. `Follows c₀ c h`: the column, once the links `h` have been
  drawn from the column `c₀` and no token was drawn twice. A token then opens a row exactly as long as it is the
  last one that was drawn for it (`Follows.find_iff`), and one that was taken back opens nothing
  (`Follows.revoked`).
* `Keeps`: what a handler keeps, in the rely-guarantee form, with the rules for the two handlers.
-/

namespace Async

/-- A unique column (module doc). -/
structure Column (K T : Type) where
  rows : List (K × T) := []
  keys : (rows.map Prod.fst).Nodup
  tokens : (rows.map Prod.snd).Nodup

namespace Column

variable {K T : Type}

instance : Inhabited (Column K T) := ⟨⟨[], .nil, .nil⟩⟩

theorem eq_of_mem {c : Column K T} {x y : K × T} (hx : x ∈ c.rows) (hy : y ∈ c.rows)
    (h : x.1 = y.1 ∨ x.2 = y.2) : x = y := by
  rcases h with h | h
  · exact List.inj_on_of_nodup_map c.keys hx hy h
  · exact List.inj_on_of_nodup_map c.tokens hx hy h

variable [DecidableEq K]

def get (c : Column K T) (k : K) : Option T := (c.rows.find? (·.1 = k)).map Prod.snd

/-- The rows but `k`. -/
def others (c : Column K T) (k : K) : List (K × T) := c.rows.filter (·.1 ≠ k)

theorem others_sublist (c : Column K T) (k : K) : (c.others k).Sublist c.rows := List.filter_sublist

theorem not_mem_others (c : Column K T) (k : K) : k ∉ (c.others k).map Prod.fst := by
  rintro h
  obtain ⟨x, hx, rfl⟩ := List.mem_map.mp h
  simpa using (List.mem_filter.mp hx).2

variable [DecidableEq T]

def find (c : Column K T) (t : T) : Option K := (c.rows.find? (·.2 = t)).map Prod.fst

/-- The row `k` gets the token, unless another row has it. -/
def assign (c : Column K T) (k : K) (t : T) : Option (Column K T) :=
  if h : t ∈ (c.others k).map Prod.snd then none
  else some
    { rows := (k, t) :: c.others k
      keys := List.nodup_cons.mpr ⟨c.not_mem_others k, c.keys.sublist ((c.others_sublist k).map _)⟩
      tokens := List.nodup_cons.mpr ⟨h, c.tokens.sublist ((c.others_sublist k).map _)⟩ }

omit [DecidableEq T] in
theorem get_eq_some {c : Column K T} {k : K} {t : T} : c.get k = some t ↔ (k, t) ∈ c.rows := by
  rw [get, Option.map_eq_some_iff]
  constructor
  · rintro ⟨⟨k', t'⟩, hfind, rfl⟩
    obtain rfl : k' = k := by simpa using List.find?_some hfind
    exact List.mem_of_find?_eq_some hfind
  · intro hmem
    obtain ⟨x, hx⟩ := Option.isSome_iff_exists.mp
      (List.find?_isSome.mpr ⟨(k, t), hmem, by simp⟩ : (c.rows.find? (·.1 = k)).isSome)
    have hk : x.1 = k := by simpa using List.find?_some hx
    rw [hx]
    exact ⟨x, rfl, congrArg Prod.snd (eq_of_mem (List.mem_of_find?_eq_some hx) hmem (.inl hk))⟩

omit [DecidableEq K] in
theorem find_eq_some {c : Column K T} {k : K} {t : T} : c.find t = some k ↔ (k, t) ∈ c.rows := by
  rw [find, Option.map_eq_some_iff]
  constructor
  · rintro ⟨⟨k', t'⟩, hfind, rfl⟩
    obtain rfl : t' = t := by simpa using List.find?_some hfind
    exact List.mem_of_find?_eq_some hfind
  · intro hmem
    obtain ⟨x, hx⟩ := Option.isSome_iff_exists.mp
      (List.find?_isSome.mpr ⟨(k, t), hmem, by simp⟩ : (c.rows.find? (·.2 = t)).isSome)
    have ht : x.2 = t := by simpa using List.find?_some hx
    rw [hx]
    exact ⟨x, rfl, congrArg Prod.fst (eq_of_mem (List.mem_of_find?_eq_some hx) hmem (.inr ht))⟩

/-- A token opens the row that has it. -/
theorem find_iff_get {c : Column K T} {k : K} {t : T} : c.find t = some k ↔ c.get k = some t :=
  find_eq_some.trans get_eq_some.symm

theorem get_assign {c c' : Column K T} {k : K} {t : T} (h : c.assign k t = some c') (j : K) :
    c'.get j = if k = j then some t else c.get j := by
  unfold assign at h
  split at h
  · cases h
  obtain rfl := Option.some.inj h
  by_cases hkj : k = j
  · rw [get, List.find?_cons_of_pos (by simpa using hkj), if_pos hkj]
    rfl
  · have hsame : (fun x : K × T => decide (decide (x.1 ≠ k) = true ∧ decide (x.1 = j) = true)) =
        fun x => decide (x.1 = j) := by
      funext x
      by_cases hx : x.1 = j
      · simp [hx, Ne.symm hkj]
      · simp [hx]
    rw [get, List.find?_cons_of_neg (by simpa using hkj), if_neg hkj, get, others, List.find?_filter, hsame]

end Column

namespace Links

variable {S : Sig} {St Env Env' ε Q K T R : Type}

/-- The rows of the service: the one that a query finds, and what the row with a key holds. -/
structure Rows (St Q K R : Type) where
  row : St → Q → Option K
  record : St → K → Option R

inductive Stmt (Q K T : Type) where
  /-- The row that a query finds, with its token. -/
  | read (q : Q)
  /-- A new token for a row. -/
  | assign (k : K)
  /-- The row of a token. -/
  | opens (t : T)

/-- The answer of each statement; an error is a rejected call. -/
def Resp (R : Type) : Stmt Q K T → Type
  | .read _ => Option (K × Option T)
  | .assign _ => Except String T
  | .opens _ => Option (K × R)

/-- The statements of a service and of the links of its rows. -/
abbrev linked (S : Sig) (Q K T R : Type) : Sig := S.sum ⟨Stmt Q K T, Resp R⟩

/-- The links that were drawn, the last one first. -/
abbrev Drawn (K T : Type) := List (K × T)

section Handlers

/-- A new link. -/
def regenerate (verify : Prog S ε K) (err : String → ε) : Prog (linked S Q K T R) ε T :=
  verify.left.bind fun k => .call (.inr (.assign k)) fun
    | .ok t => .ret t
    | .error code => .fail (err code)

/-- The link that the row has, or else a new one; `truthy` is the test of the token. -/
def getOrCreate (check : Prog S ε Unit) (q : Q) (absent : ε) (truthy : T → Bool) (verify : Prog S ε K)
    (err : String → ε) : Prog (linked S Q K T R) ε T :=
  check.left.bind fun _ => .call (.inr (.read q)) fun
    | none => .fail absent
    | some (_, some t) => if truthy t then .ret t else regenerate verify err
    | some (_, none) => regenerate verify err

end Handlers

/-- What is noted of a statement. -/
def note : (c : (linked S Q K T R).Stmt) → (linked S Q K T R).Resp c → Drawn K T → Drawn K T
  | .inr (.assign k), .ok t, h => (k, t) :: h
  | _, _, h => h

variable [DecidableEq K] [DecidableEq T]

def exec (rows : Rows St Q K R) (t : T) (x : St × Column K T) :
    (c : Stmt Q K T) → Resp R c × (St × Column K T)
  | .read q => ((rows.row x.1 q).map fun k => (k, x.2.get k), x)
  | .assign k =>
    match rows.record x.1 k, x.2.assign k t with
    | none, _ => (.error "P2025", x)
    | some _, none => (.error "P2002", x)
    | some _, some c => (.ok t, (x.1, c))
  | .opens t => ((x.2.find t).bind fun k => (rows.record x.1 k).map (k, ·), x)

/-- The service with its links; `draw` is the token that is drawn. -/
def backend (B : Backend S St Env) (rows : Rows St Q K R) (env : Env' → Env) (draw : Env' → T) :
    Backend (linked S Q K T R) (St × Column K T) Env' where
  exec
    | .inl c, e, x => ((B.exec c (env e) x.1).1, ((B.exec c (env e) x.1).2, x.2))
    | .inr c, e, x => exec rows (draw e) x c

/-! ## The links that were drawn -/

/-- The last link that was drawn for a row, or else the one that it had. -/
def last (c₀ : Column K T) (h : Drawn K T) (k : K) : Option T :=
  ((h.find? (·.1 = k)).map Prod.snd).or (c₀.get k)

omit [DecidableEq T] in
theorem mem_of_last {c₀ : Column K T} {h : Drawn K T} {k : K} {t : T} (hlast : last c₀ h k = some t) :
    (k, t) ∈ h ++ c₀.rows := by
  rcases Option.or_eq_some_iff.mp hlast with hdrawn | ⟨-, hget⟩
  · obtain ⟨⟨k', t'⟩, hfind, rfl⟩ := Option.map_eq_some_iff.mp hdrawn
    obtain rfl : k' = k := by simpa using List.find?_some hfind
    exact List.mem_append_left _ (List.mem_of_find?_eq_some hfind)
  · exact List.mem_append_right _ (Column.get_eq_some.mp hget)

/-- The column after the links (module doc). -/
structure Follows (c₀ c : Column K T) (h : Drawn K T) : Prop where
  get : ∀ k, c.get k = last c₀ h k
  fresh : ((h ++ c₀.rows).map Prod.snd).Nodup

namespace Follows

variable {c₀ c c' : Column K T} {h : Drawn K T} {k : K} {t : T}

omit [DecidableEq T] in
theorem init (c₀ : Column K T) : Follows c₀ c₀ [] := ⟨fun _ => rfl, c₀.tokens⟩

/-- A token opens a row as long as it is the last one. -/
theorem find_iff (hf : Follows c₀ c h) : c.find t = some k ↔ last c₀ h k = some t := by
  rw [Column.find_iff_get, hf.get]

/-- A token that was taken back opens nothing. -/
theorem revoked (hf : Follows c₀ c h) (hmem : (k, t) ∈ h ++ c₀.rows) (hne : last c₀ h k ≠ some t) :
    c.find t = none := by
  by_contra hsome
  obtain ⟨k', hfind⟩ := Option.ne_none_iff_exists'.mp hsome
  have hlast := hf.find_iff.mp hfind
  obtain ⟨rfl, -⟩ := Prod.mk.inj (List.inj_on_of_nodup_map hf.fresh (mem_of_last hlast) hmem rfl)
  exact hne hlast

theorem assign (hf : Follows c₀ c h) (ht : t ∉ (h ++ c₀.rows).map Prod.snd)
    (hc' : c.assign k t = some c') : Follows c₀ c' ((k, t) :: h) := by
  refine ⟨fun j => ?_, List.nodup_cons.mpr ⟨ht, hf.fresh⟩⟩
  rw [Column.get_assign hc', hf.get, last, last, List.find?_cons]
  by_cases hkj : k = j
  · simp [hkj]
  · simp [hkj]

end Follows

/-! ## The handlers -/

/-- What a row has does not go away. -/
def Stable (D : Rely St) (V : St → K → Prop) : Prop := ∀ s s' k, D.le s s' → V s k → V s' k

/-- The service keeps its invariant, the column follows the links that were drawn, and these were drawn for rows
with `V`. -/
def rely (D : Rely St) (V : St → K → Prop) (c₀ : Column K T) : Rely ((St × Column K T) × Drawn K T) where
  inv x := D.inv x.1.1 ∧ Follows c₀ x.1.2 x.2 ∧ ∀ y ∈ x.2, V x.1.1 y.1
  le x x' := D.le x.1.1 x'.1.1 ∧ x.2 <:+ x'.2
  refl _ := ⟨D.refl _, List.suffix_rfl⟩
  trans _ _ _ h h' := ⟨D.trans _ _ _ h.1 h'.1, h.2.trans h'.2⟩

/-- No token is drawn twice. -/
def Fresh (c₀ : Column K T) (draw : Env' → T) :
    (linked S Q K T R).Stmt → (St × Column K T) × Drawn K T → Env' → Prop
  | .inr (.assign _), x, e => draw e ∉ (x.2 ++ c₀.rows).map Prod.snd
  | _, _, _ => True

instance (c₀ : Column K T) (draw : Env' → T) (c : (linked S Q K T R).Stmt)
    (x : (St × Column K T) × Drawn K T) (e : Env') : Decidable (Fresh c₀ draw c x e) := by
  rcases c with c | c
  · exact isTrue trivial
  · cases c with
    | read q => exact isTrue trivial
    | assign k => exact inferInstanceAs (Decidable (_ ∉ _))
    | opens t => exact isTrue trivial

section Keeps

variable {D : Rely St} {V W : St → K → Prop} {c₀ : Column K T} {B : Backend S St Env}
  {rows : Rows St Q K R} {env : Env' → Env} {draw : Env' → T} {α : Type}
  {x : (St × Column K T) × Drawn K T}

/-- What a handler keeps (module doc). -/
abbrev Keeps (D : Rely St) (V : St → K → Prop) (c₀ : Column K T) (B : Backend S St Env)
    (rows : Rows St Q K R) (env : Env' → Env) (draw : Env' → T) (p : Prog (linked S Q K T R) ε α)
    (x : (St × Column K T) × Drawn K T)
    (P : Except ε α → (St × Column K T) × Drawn K T → Prop) : Prop :=
  (rely D V c₀).Keeps ((backend B rows env draw).logged note) (Fresh c₀ draw) p x P

/-- A handler of the service. -/
theorem left_keeps (hV : Stable D V) {p : Prog S ε α} {P : Except ε α → St → Prop}
    (h : D.Keeps B (fun _ _ _ => True) p x.1.1 P) :
    Keeps D V c₀ B rows env draw p.left x fun r x' => (rely D V c₀).le x x' ∧ P r x'.1.1 := by
  have hB : Backend.Extends (fun _ => True) B ((backend B rows env draw).logged note)
      (fun x : (St × Column K T) × Drawn K T => x.1.1) env := fun _ _ _ _ => rfl
  refine h.extend hB (fun _ _ _ _ => trivial) ?_ ?_ ?_ (Prog.uses_true p)
  · exact fun _ hi => hi.1
  · exact fun _ _ hle => hle.1
  · exact fun c e y hi hinv hle =>
      ⟨⟨hinv, hi.2.1, fun z hz => hV _ _ z.1 hle (hi.2.2 z hz)⟩, hle, List.suffix_rfl⟩

/-- The token was drawn for a row with `W`, or was its token. -/
def Given (W : St → K → Prop) (c₀ : Column K T) (t : T) (x : (St × Column K T) × Drawn K T) : Prop :=
  ∃ k, W x.1.1 k ∧ (k, t) ∈ x.2 ++ c₀.rows

omit [DecidableEq T] in
theorem mem_later {y : K × T} {x x' : (St × Column K T) × Drawn K T} (hle : (rely D V c₀).le x x')
    (h : y ∈ x.2 ++ c₀.rows) : y ∈ x'.2 ++ c₀.rows := by
  rcases List.mem_append.mp h with h | h
  · exact List.mem_append_left _ (hle.2.subset h)
  · exact List.mem_append_right _ h

omit [DecidableEq T] in
theorem Given.later (hW : Stable D W) {t : T} {x x' : (St × Column K T) × Drawn K T}
    (hle : (rely D V c₀).le x x') (h : Given W c₀ t x) : Given W c₀ t x' := by
  obtain ⟨k, hk, hmem⟩ := h
  exact ⟨k, hW _ _ k hle.1 hk, mem_later hle hmem⟩

/-- One token is drawn for a row. -/
theorem assign_step (hx : (rely D V c₀).inv x) {k : K} (hk : V x.1.1 k) {e : Env'}
    (hfresh : draw e ∉ (x.2 ++ c₀.rows).map Prod.snd) :
    let c : (linked S Q K T R).Stmt := .inr (.assign k)
    let y := ((backend B rows env draw).logged note).exec c e x
    (rely D V c₀).inv y.2 ∧ (rely D V c₀).le x y.2 ∧ y.2.1.1 = x.1.1 ∧
      ∀ t, y.1 = .ok t → (k, t) ∈ y.2.2 := by
  simp only [Backend.logged, backend, exec]
  split
  · exact ⟨hx, ⟨D.refl _, List.suffix_rfl⟩, rfl, by rintro t ⟨⟩⟩
  · exact ⟨hx, ⟨D.refl _, List.suffix_rfl⟩, rfl, by rintro t ⟨⟩⟩
  · next c' _ hc' =>
    refine ⟨⟨hx.1, hx.2.1.assign hfresh hc', fun y hy => ?_⟩, ⟨D.refl _, List.suffix_cons _ _⟩, rfl, ?_⟩
    · rcases List.mem_cons.mp hy with rfl | hy
      · exact hk
      · exact hx.2.2 y hy
    · rintro t ⟨⟩
      exact List.mem_cons_self

theorem regenerate_keeps (hV : Stable D V) (hW : Stable D W) (hWV : ∀ s k, W s k → V s k)
    {verify : Prog S ε K}
    (hverify : ∀ s, D.Keeps B (fun _ _ _ => True) verify s fun r s' => ∀ k, r = .ok k → W s' k)
    (err : String → ε) : Keeps D V c₀ B rows env draw (regenerate verify err) x
      fun r x' => ∀ t, r = .ok t → Given W c₀ t x' := by
  refine .bind ((left_keeps hV (hverify x.1.1)).mono ?_)
  rintro (_ | k) x₁ ⟨-, hk⟩
  · rintro t ⟨⟩
  intro x₂ e hx₂ hle hfresh
  have hk₂ : W x₂.1.1 k := hW _ _ k hle.1 (hk k rfl)
  obtain ⟨hinv, hle', hsame, hmem⟩ := assign_step (e := e) hx₂ (hWV _ _ hk₂) hfresh
  refine ⟨hinv, hle', ?_⟩
  rcases hy : (((backend B rows env draw).logged note).exec (.inr (.assign k)) e x₂).1 with code | t
  · rintro t ⟨⟩
  · rintro t' ⟨⟩
    exact ⟨k, hsame ▸ hk₂, List.mem_append_left _ (hmem t hy)⟩

theorem getOrCreate_keeps (hV : Stable D V) (hW : Stable D W) (hWV : ∀ s k, W s k → V s k)
    {check : Prog S ε Unit} {q : Q} {C : St → Prop} (hC : ∀ s s', D.le s s' → C s → C s')
    (hcheck : D.Keeps B (fun _ _ _ => True) check x.1.1 fun r s' => r = .ok () → C s')
    (hrow : ∀ s k, D.inv s → C s → rows.row s q = some k → W s k) {verify : Prog S ε K}
    (hverify : ∀ s, D.Keeps B (fun _ _ _ => True) verify s fun r s' => ∀ k, r = .ok k → W s' k)
    (absent : ε) (truthy : T → Bool) (err : String → ε) :
    Keeps D V c₀ B rows env draw (getOrCreate check q absent truthy verify err) x
      fun r x' => ∀ t, r = .ok t → Given W c₀ t x' := by
  refine .bind ((left_keeps hV hcheck).mono ?_)
  rintro (_ | ⟨⟩) x₁ ⟨-, hc⟩
  · rintro t ⟨⟩
  refine .read (fun _ _ => rfl) fun x₂ e hx₂ hle => ?_
  have hexec : (((backend B rows env draw).logged note).exec (.inr (.read q)) e x₂).1 =
    (rows.row x₂.1.1 q).map fun k => (k, x₂.1.2.get k) := rfl
  rw [hexec]
  rcases hq : rows.row x₂.1.1 q with _ | k
  · rintro t ⟨⟩
  rw [Option.map_some]
  rcases hget : x₂.1.2.get k with _ | t
  · exact regenerate_keeps hV hW hWV hverify err
  · show (rely D V c₀).Keeps _ _ (if truthy t = true then _ else _) _ _
    split
    · rintro t' ⟨⟩
      refine ⟨k, hrow _ k hx₂.1 (hC _ _ hle.1 (hc rfl)) hq, mem_of_last ?_⟩
      rw [← hx₂.2.1.get, hget]
    · exact regenerate_keeps hV hW hWV hverify err

/-- Whoever shows a token gets a row for which it was drawn, or whose token it was. -/
theorem opens_keeps {t : T} {f : Option (K × R) → Prog (linked S Q K T R) ε α}
    {P : Except ε α → (St × Column K T) × Drawn K T → Prop}
    (hnone : ∀ x', (rely D V c₀).inv x' → (rely D V c₀).le x x' → Keeps D V c₀ B rows env draw (f none) x' P)
    (hsome : ∀ x' k a, (rely D V c₀).inv x' → (rely D V c₀).le x x' → (k, t) ∈ x'.2 ++ c₀.rows →
      rows.record x'.1.1 k = some a → Keeps D V c₀ B rows env draw (f (some (k, a))) x' P) :
    Keeps D V c₀ B rows env draw (.call (.inr (.opens t)) f) x P := by
  refine .read (fun _ _ => rfl) fun x' e hx' hle => ?_
  have hexec : (((backend B rows env draw).logged note).exec (.inr (.opens t)) e x').1 =
    (x'.1.2.find t).bind fun k => (rows.record x'.1.1 k).map (k, ·) := rfl
  rw [hexec]
  rcases hfind : x'.1.2.find t with _ | k
  · exact hnone x' hx' hle
  rcases hrecord : rows.record x'.1.1 k with _ | a
  · rw [Option.bind_some, hrecord]
    exact hnone x' hx' hle
  · rw [Option.bind_some, hrecord]
    exact hsome x' k a hx' hle (mem_of_last (hx'.2.1.find_iff.mp hfind)) hrecord

end Keeps

end Links

end Async
