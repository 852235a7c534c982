import OumraHajj.Async.Embed
import OumraHajj.Async.Gateway
import OumraHajj.Async.Outbox

/-!
# A service behind a gateway

The handlers of a service run beside those of a gateway. A socket joins a room if the service gives its user
access; what the service creates is emitted to the room, from a socket (`send`) or from a route (`post`).

* `rely D A M`: the invariant `D` of the service, that a socket is in a room only if `A` holds of its user
  (`Hub.Private`), and that `M` holds of what was emitted. `left_keeps`, `join_keeps`, `send_keeps` and
  `post_keeps` are its rules.
* `outbox rows key`: the rows that the service creates are published by emitting them. `send_safe` and
  `post_safe` are its rules.
* `delivered`: what the service creates reaches the sockets that are in the room, once.
-/

namespace Async.Gateway

variable {S : Sig} {St Env ε ι U R X Y α : Type}

/-- The statements of a service and of its gateway. -/
abbrev served (S : Sig) (U R X : Type) : Sig := S.sum (sig U R X)

abbrev await (c : Stmt U R X) : Prog (served S U R X) ε (Resp c) :=
  @Prog.exec (served S U R X) _ (.inr c)

/-- The user of a socket, once it is accepted. -/
def userOrFail (absent : ε) (k : Nat) : Prog (served S U R X) ε U := do
  match ← await (.user k) with
  | some u => return u
  | none => .fail absent

/-- A socket joins a room. -/
def join (absent : ε) (access : U → R → Prog S ε α) (k : Nat) (room : R) :
    Prog (served S U R X) ε Unit := do
  let u ← userOrFail absent k
  let _ ← (access u room).left
  await (.join k room)

/-- A socket sends what is created to the room. -/
def send (absent : ε) (create : U → R → Y → Prog S ε X) (k : Nat) (room : R) (y : Y) :
    Prog (served S U R X) ε X := do
  let u ← userOrFail absent k
  let x ← (create u room y).left
  await (.emit room x)
  return x

/-- A route sends what is created to its room. -/
def post (create : Prog S ε X) (roomOf : X → R) : Prog (served S U R X) ε X := do
  let x ← create.left
  await (.emit (roomOf x) x)
  return x

variable [DecidableEq R] {B : Backend S St Env}

/-- The state of the service, and the hub. -/
def backend (B : Backend S St Env) : Backend (served S U R X) (St × Hub U R X) Env where
  exec
    | .inl c, e, x => ((B.exec c e x.1).1, ((B.exec c e x.1).2, x.2))
    | .inr c, _, x => ((exec c x.2).1, (x.1, (exec c x.2).2))

/-! ## Who is in a room -/

section Private

/-- What the service gives access to stays, and so does what it has created. -/
structure Stable (D : Rely St) (A : St → U → R → Prop) (M : St → R → X → Prop) : Prop where
  access : ∀ s s' u room, D.le s s' → A s u room → A s' u room
  created : ∀ s s' room x, D.le s s' → M s room x → M s' room x

/-- The invariant (module doc). -/
structure Inv (D : Rely St) (A : St → U → R → Prop) (M : St → R → X → Prop) (x : St × Hub U R X) :
    Prop where
  service : D.inv x.1
  rooms : x.2.Private (A x.1)
  emitted : ∀ y ∈ x.2.emitted, M x.1 y.1 y.2

/-- The invariant, and what stays (module doc). -/
def rely (D : Rely St) (A : St → U → R → Prop) (M : St → R → X → Prop) : Rely (St × Hub U R X) where
  inv := Inv D A M
  le x x' := D.le x.1 x'.1 ∧ x.2.Later x'.2
  refl _ := ⟨D.refl _, .refl _⟩
  trans _ _ _ h h' := ⟨D.trans _ _ _ h.1 h'.1, h.2.trans h'.2⟩

variable {D : Rely St} {A : St → U → R → Prop} {M : St → R → X → Prop} {x : St × Hub U R X}

/-- The handler keeps the invariant, whatever its statements are answered. -/
abbrev Keeps (D : Rely St) (A : St → U → R → Prop) (M : St → R → X → Prop) (B : Backend S St Env)
    (p : Prog (served S U R X) ε α) (x : St × Hub U R X)
    (Q : Except ε α → St × Hub U R X → Prop) : Prop :=
  (rely D A M).Keeps (backend B) (fun _ _ _ => True) p x Q

/-- A handler of the service. -/
theorem left_keeps (hM : Stable D A M) {p : Prog S ε α} {Q : Except ε α → St → Prop}
    (h : D.Keeps B (fun _ _ _ => True) p x.1 Q) :
    Keeps D A M B p.left x fun r x' => (rely D A M).le x x' ∧ Q r x'.1 := by
  have hB : Backend.Extends (fun _ => True) B (backend (U := U) (R := R) (X := X) B) Prod.fst id :=
    fun _ _ _ _ => rfl
  refine h.extend hB (fun _ _ _ _ => trivial) (fun _ (hi : Inv D A M _) => hi.service) ?_ ?_ (Prog.uses_true p)
  · exact fun _ _ hle => hle.1
  intro c e y hi hinv hle
  exact ⟨⟨hinv, hi.rooms.mono fun u room => hM.access _ _ u room hle,
    fun z hz => hM.created _ _ z.1 z.2 hle (hi.emitted z hz)⟩, hle, .refl _⟩

/-- A statement of the gateway that emits nothing. -/
theorem step_keeps {c : Stmt U R X} (hc : c.emits = []) {x : St × Hub U R X} (hx : Inv D A M x)
    (hadmits : c.Admits (A x.1) x.2) (e : Env) :
    Inv D A M ((backend B).exec (.inr c) e x).2 ∧
      (rely D A M).le x ((backend B).exec (.inr c) e x).2 := by
  obtain ⟨hp, hle⟩ := hx.rooms.exec hadmits
  refine ⟨⟨hx.service, hp, ?_⟩, D.refl _, hle⟩
  show ∀ y ∈ (exec c x.2).2.emitted, M x.1 y.1 y.2
  rw [exec_emitted, hc, List.append_nil]
  exact hx.emitted

/-- A socket connects, is answered or is closed. -/
theorem socket_keeps {c : Stmt U R X} (hc : c.emits = []) (hadmits : ∀ s h, c.Admits (A s) h)
    (f : Resp c → α) : Keeps D A M B (Prog.call (.inr c) fun r => (.ret (f r) : Prog _ ε α)) x fun _ _ => True :=
  fun _ e hi _ _ =>
    ⟨(step_keeps (B := B) hc hi (hadmits _ _) e).1, (step_keeps (B := B) hc hi (hadmits _ _) e).2, trivial⟩

/-- The user of a socket stays. -/
theorem user_keeps (absent : ε) (k : Nat) : Keeps D A M B (userOrFail absent k) x
    fun r x' => (rely D A M).le x x' ∧ ∀ u, r = .ok u → x'.2.userOf k = some u := by
  intro x' e hi hle _
  refine ⟨hi, (rely D A M).refl x', ?_⟩
  rcases hu : x'.2.userOf k with _ | u
  · simp only [backend, exec, hu]
    exact ⟨hle, by rintro u ⟨⟩⟩
  · simp only [backend, exec, hu]
    refine ⟨hle, ?_⟩
    rintro _ ⟨⟩
    exact hu

theorem join_keeps (hM : Stable D A M) (absent : ε) {access : U → R → Prog S ε α} {k : Nat} {room : R}
    (ha : ∀ u s, D.Keeps B (fun _ _ _ => True) (access u room) s
      fun r s' => ∀ a, r = .ok a → A s' u room) :
    Keeps D A M B (join absent access k room) x fun _ _ => True := by
  refine .seq (user_keeps absent k) ?_ fun _ _ _ => trivial
  intro u x₁ _ hu
  refine .bind ((left_keeps hM (ha u x₁.1)).mono ?_)
  rintro (_ | a) x₂ ⟨hle₂, hA⟩
  · trivial
  · rintro x₃ e hi hle₃ -
    have hadmits : (Stmt.join k room : Stmt U R X).Admits (A x₃.1) x₃.2 :=
      ⟨u, hle₃.2 k u (hle₂.2 k u hu), hM.access _ _ u room hle₃.1 (hA a rfl)⟩
    obtain ⟨hinv, hle⟩ := step_keeps (B := B) rfl hi hadmits e
    exact ⟨hinv, hle, trivial⟩

/-- What is emitted is what was created. -/
theorem emit_keeps (hM : Stable D A M) {room : R} {y : X} (hy : M x.1 room y) :
    Keeps D A M B (Prog.call (.inr (.emit room y)) fun _ => (.ret y : Prog _ ε X)) x
      fun _ _ => True := by
  rintro x' e hi hle -
  obtain ⟨hp, hlater⟩ := hi.rooms.exec (q := .emit room y) trivial
  refine ⟨⟨hi.service, hp, fun z hz => ?_⟩, ⟨D.refl _, hlater⟩, trivial⟩
  rcases List.mem_append.mp hz with hz | hz
  · exact hi.emitted z hz
  · obtain rfl := List.mem_singleton.mp hz
    exact hM.created _ _ room y hle.1 hy

theorem post_keeps (hM : Stable D A M) {create : Prog S ε X} {roomOf : X → R}
    (hc : D.Keeps B (fun _ _ _ => True) create x.1 fun r s' => ∀ y, r = .ok y → M s' (roomOf y) y) :
    Keeps D A M B (post create roomOf) x fun _ _ => True := by
  refine .bind ((left_keeps hM hc).mono ?_)
  rintro (_ | y) x' ⟨-, hy⟩
  · trivial
  · exact emit_keeps hM (hy y rfl)

theorem send_keeps (hM : Stable D A M) (absent : ε) {create : U → R → Y → Prog S ε X} {k : Nat}
    {room : R} {y : Y} (hc : ∀ u s, D.Keeps B (fun _ _ _ => True) (create u room y) s
      fun r s' => ∀ z, r = .ok z → M s' room z) :
    Keeps D A M B (send absent create k room y) x fun _ _ => True := by
  refine .seq (user_keeps absent k) ?_ fun _ _ _ => trivial
  intro u x₁ _ _
  refine .bind ((left_keeps hM (hc u x₁.1)).mono ?_)
  rintro (_ | z) x₂ ⟨-, hz⟩
  · trivial
  · exact emit_keeps hM (hz z rfl)

end Private

/-! ## Delivery -/

section Delivery

open Proto Pool

variable [DecidableEq ι] (rows : St → Nat) (key : X → Nat)

/-- The rows of the service are published by emitting them (module doc). -/
def outbox : Outbox (St × Hub U R X) where
  created x := rows x.1
  published x := x.2.emitted.map fun y => key y.2

variable {rows key} {n₀ : Nat} {t : ι} {ok : Cond (served S U R X) ι (St × Hub U R X) Env}

/-- The handler of a socket or of a route, which ends with what it has created (module doc). -/
abbrev Safe (rows : St → Nat) (key : X → Nat) (n₀ : Nat) (B : Backend S St Env)
    (ok : Cond (served S U R X) ι (St × Hub U R X) Env) (t : ι) (p : Prog (served S U R X) ε α)
    (Q : Except ε α → Option Nat → Prop) (g : Option Nat) : Prop :=
  (Proto.outbox (outbox rows key) n₀ : Proto (served S U R X) ι (St × Hub U R X)).Safe (backend B) ok t p Q g

/-- A handler of the service that creates nothing. -/
theorem left_neutral {p : Prog S ε α}
    (hp : p.Uses fun c => ∀ e s, rows (B.exec c e s).2 = rows s) :
    (p.left : Prog (served S U R X) ε α).Uses (Neutral (outbox rows key) (backend B)) :=
  hp.left fun _ hc e x => ⟨hc e x.1, rfl⟩

/-- A first part that creates nothing, and the rest. -/
theorem left_seq {β : Type} {p : Prog S ε α} {f : α → Prog S ε β} {Q : Except ε β → Option Nat → Prop}
    {g : Option Nat} (hp : p.Uses fun c => ∀ e s, rows (B.exec c e s).2 = rows s)
    (hf : ∀ a, Safe rows key n₀ B ok t ((f a).left : Prog (served S U R X) ε β) Q g)
    (hx : ∀ x, Q (.error x) g) :
    Safe rows key n₀ B ok t ((p.bind f).left : Prog (served S U R X) ε β) Q g := by
  rw [Prog.left_bind]
  have hsame : Safe rows key n₀ B ok t (p.left : Prog (served S U R X) ε α) (fun _ g' => g' = g) g :=
    safe_neutral (left_neutral hp) fun _ => rfl
  refine safe_bind.mpr (safe_mono ?_ hsame)
  rintro (x | a) g' rfl
  · exact hx x
  · exact hf a

/-- A statement that creates nothing, and the rest. -/
theorem left_call {c : S.Stmt} {k : S.Resp c → Prog S ε α} {Q : Except ε α → Option Nat → Prop}
    {g : Option Nat} (hc : ∀ e s, rows (B.exec c e s).2 = rows s)
    (hk : ∀ r, Safe rows key n₀ B ok t ((k r).left : Prog (served S U R X) ε α) Q g) :
    Safe rows key n₀ B ok t ((Prog.call c k).left : Prog (served S U R X) ε α) Q g := by
  refine safe_call (P := Proto.outbox (outbox rows key) n₀) trivial ?_ fun _ x e _ _ => hk _
  rintro γ x e ⟨hi, hle⟩ -
  exact ⟨hi.other (hc e x.1) rfl, hle.trans_eq (hc e x.1).symm⟩

/-- A statement of the service that creates a row, or none. -/
theorem left_create {c : S.Stmt} {k : S.Resp c → Prog S ε α} {Q : Except ε α → Option Nat → Prop}
    (hc : ∀ e s, (rows (B.exec c e s).2 = rows s ∧
        Safe rows key n₀ B ok t ((k (B.exec c e s).1).left : Prog (served S U R X) ε α) Q none) ∨
      (rows (B.exec c e s).2 = rows s + 1 ∧
        Safe rows key n₀ B ok t ((k (B.exec c e s).1).left : Prog (served S U R X) ε α) Q (some (rows s)))) :
    Safe rows key n₀ B ok t ((Prog.call c k).left : Prog (served S U R X) ε α) Q none :=
  safe_create fun e x => ⟨rfl, hc e x.1⟩

/-- A statement of the gateway that emits nothing. -/
theorem gateway_neutral {c : Stmt U R X} (hc : c.emits = []) :
    Neutral (outbox rows key) (backend B) (.inr c) := by
  intro e x
  refine ⟨rfl, ?_⟩
  show (exec c x.2).2.emitted.map (fun y => key y.2) = x.2.emitted.map fun y => key y.2
  rw [exec_emitted, hc, List.append_nil]

theorem step_safe {c : Stmt U R X} (hc : c.emits = []) :
    Safe rows key n₀ B ok t (await c : Prog (served S U R X) ε (Resp c)) (fun _ g => g = none) none :=
  safe_neutral ⟨gateway_neutral hc, fun _ => trivial⟩ fun _ => rfl

theorem void_safe {p : Prog (served S U R X) ε α}
    (h : Safe rows key n₀ B ok t p (fun _ g => g = none) none) :
    Safe rows key n₀ B ok t p.void (fun _ g => g = none) none := by
  refine safe_void (safe_mono ?_ h)
  rintro (_ | _) g hg <;> exact hg

/-- It ends with the row that it has created. -/
def Ends (key : X → Nat) : Except ε X → Option Nat → Prop
  | .ok x, g => g = some (key x)
  | .error _, g => g = none

theorem emit_safe {room : R} {y : X} : Safe rows key n₀ B ok t
    (Prog.call (.inr (.emit room y)) fun _ => (.ret y : Prog _ ε X)) (fun _ g => g = none)
    (some (key y)) := by
  refine safe_publish (fun e x => ⟨rfl, ?_⟩) fun _ _ => rfl
  exact List.map_append

theorem post_safe {create : Prog S ε X} {roomOf : X → R}
    (hc : Safe rows key n₀ B ok t (create.left : Prog (served S U R X) ε X) (Ends key) none) :
    Safe rows key n₀ B ok t (post create roomOf) (fun _ g => g = none) none := by
  refine safe_bind.mpr (safe_mono ?_ hc)
  rintro (_ | y) g hg
  · exact hg
  · obtain rfl : g = some (key y) := hg
    exact emit_safe

theorem user_neutral (absent : ε) (k : Nat) : (userOrFail absent k : Prog (served S U R X) ε U).Uses
    (Neutral (outbox rows key) (backend B)) := by
  refine ⟨gateway_neutral rfl, fun u => ?_⟩
  cases u <;> trivial

theorem join_neutral (absent : ε) {access : U → R → Prog S ε α} {k : Nat} {room : R}
    (ha : ∀ u, (access u room).Uses fun c => ∀ e s, rows (B.exec c e s).2 = rows s) :
    (join absent access k room : Prog (served S U R X) ε Unit).Uses
      (Neutral (outbox rows key) (backend B)) :=
  (user_neutral absent k).bind fun u => (left_neutral (ha u)).bind fun _ =>
    ⟨gateway_neutral rfl, fun _ => trivial⟩

theorem send_safe (absent : ε) {create : U → R → Y → Prog S ε X} {k : Nat} {room : R} {y : Y}
    (hc : ∀ u, Safe rows key n₀ B ok t ((create u room y).left : Prog (served S U R X) ε X)
      (Ends key) none) :
    Safe rows key n₀ B ok t (send absent create k room y) (fun _ g => g = none) none := by
  have hnone : Safe rows key n₀ B ok t (userOrFail absent k : Prog (served S U R X) ε U)
      (fun _ g => g = none) none := safe_neutral (user_neutral absent k) fun _ => rfl
  refine safe_bind.mpr (safe_mono ?_ hnone)
  rintro (_ | u) g rfl
  · rfl
  · refine safe_bind.mpr (safe_mono ?_ (hc u))
    rintro (_ | z) g hg
    · exact hg
    · obtain rfl : g = some (key z) := hg
      exact emit_safe

/-- A row that was created since the state `x`, and the sockets that were in its room then. -/
structure Delivered (rows : St → Nat) (key : X → Nat) (x x' : St × Hub U R X) (n : Nat) : Prop where
  /-- No socket is sent the row twice. -/
  once : ∀ c' ∈ x'.2.clients, (c'.received.map fun y => key y.2).count n ≤ 1
  /-- A socket that was in the room, and is connected still, was sent the row. -/
  reached : ∀ (k : Nat) (c c' : Client U R X) (room : R),
    (∀ y ∈ x'.2.emitted, key y.2 = n → y.1 = room) → x.2.clients[k]? = some c → room ∈ c.rooms →
    x'.2.clients[k]? = some c' → c'.connected = true →
    ∃ l, ofRoom room c'.received = ofRoom room c.received ++ l ∧ (l.map key).count n = 1

theorem follows_reach {c₁ c : Pool (served S U R X) ι (St × Hub U R X) ε α}
    (hr : Reach (backend B) ok c₁ c) (k : Nat) (room : R) : c₁.st.2.Follows k room c.st.2 := by
  refine (hr.rel (A := fun _ _ => True) (R := fun x x' => x.2.Follows k room x'.2)
    (fun x => .refl k room x.2) (fun _ _ _ => Hub.Follows.trans) ?_ fun t => Prog.uses_true _).1
  rintro next x t c e - - -
  rcases c with c | c
  · exact .refl k room x.2
  · exact .exec k room c x.2

/-- What goes to one room, counted among what goes to all. -/
theorem count_ofRoom {l : List (R × X)} {n : Nat} {room : R}
    (hroom : ∀ y ∈ l, key y.2 = n → y.1 = room) :
    ((ofRoom room l).map key).count n = (l.map fun y => key y.2).count n := by
  induction l with
  | nil => rfl
  | cons y l ih =>
    have ih := ih fun z hz => hroom z (List.mem_cons_of_mem _ hz)
    rw [ofRoom] at ih ⊢
    by_cases hy : y.1 = room
    · rw [List.filter_cons_of_pos (by simpa using hy)]
      simp only [List.map_cons, List.count_cons, ih]
    · rw [List.filter_cons_of_neg (by simpa using hy), ih, List.map_cons, List.count_cons, if_neg,
        Nat.add_zero]
      exact fun hn => hy (hroom y List.mem_cons_self (by simpa using hn))

/-- **Delivery.** A row that was created after the pool `c₁` is sent to no socket twice; once the handlers have
ended, it was sent to every socket that was in its room in `c₁` and is connected still. -/
theorem delivered {c₀ c₁ c₂ : Pool (served S U R X) ι (St × Hub U R X) ε α}
    (h₀ : ∀ y ∈ c₀.st.2.emitted, key y.2 < rows c₀.st.1)
    (hp : ∀ t, Safe rows key (rows c₀.st.1) B ok t (c₀.procs t) (fun _ g => g = none) none)
    (hr₁ : Reach (backend B) ok c₀ c₁) (hr₂ : Reach (backend B) ok c₁ c₂)
    (hsub : ∀ c ∈ c₂.st.2.clients, c.received.Sublist c₂.st.2.emitted) (hfin : c₂.Finished) {n : Nat}
    (hle : rows c₀.st.1 ≤ n) (hn : rows c₁.st.1 ≤ n) (hlt : n < rows c₂.st.1) :
    Delivered rows key c₁.st c₂.st n := by
  have h₀' : ∀ m ∈ (outbox rows key : Outbox (St × Hub U R X)).published c₀.st,
      m < (outbox rows key : Outbox (St × Hub U R X)).created c₀.st := by
    intro m hm
    obtain ⟨y, hy, rfl⟩ := List.mem_map.mp hm
    exact h₀ y hy
  have hbound := (outbox_reach (O := outbox rows key) h₀' hp hr₁).2
  have hcount := ((outbox_reach (O := outbox rows key) h₀' hp (hr₁.trans hr₂)).1 n hle hlt).2 hfin
  refine ⟨fun c hc => ?_, fun k c c' room hroom hc hin hc' hconn => ?_⟩
  · exact ((hsub c hc).map _).count_le n |>.trans hcount.le
  · obtain ⟨l, hl, hgets⟩ := follows_reach hr₂ k room
    obtain ⟨c'', hget, hgets⟩ := hgets c hc
    obtain rfl : c'' = c' := Option.some.inj (hget.symm.trans hc')
    refine ⟨ofRoom room l, (hgets hconn).received hin, ?_⟩
    have hroom' : ∀ y ∈ l, key y.2 = n → y.1 = room := fun y hy =>
      hroom y (hl ▸ List.mem_append_right _ hy)
    rw [count_ofRoom hroom']
    -- nothing that was emitted before has the number of the row
    have hnew : (c₁.st.2.emitted.map fun y => key y.2).count n = 0 :=
      List.count_eq_zero_of_not_mem fun hmem => Nat.not_lt.mpr hn (hbound n hmem)
    have hall : ((c₁.st.2.emitted ++ l).map fun y => key y.2).count n = 1 := hl ▸ hcount
    rwa [List.map_append, List.count_append, hnew, Nat.zero_add] at hall

end Delivery

end Async.Gateway
