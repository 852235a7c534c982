import OumraHajj.Async.Rely
import OumraHajj.Async.Table

/-!
# Rooms of sockets

A gateway has a table of the sockets that have connected to it. A socket is accepted as one of a user, or
refused, when its authentication is answered; it joins rooms, and what is emitted to a room is sent to the
sockets that are connected and in it. A socket that is closed leaves its rooms.

* `Gateway.Hub`: the sockets with what was sent to each, and all that was emitted.
* `Hub.Private A`: a socket is in a room, and was sent what was emitted to it, only if `A` holds of its user
  and the room; what was sent to it is some of what was emitted, in the same order. A statement keeps it
  where it lets nobody join who may not (`Private.exec`).
* `Hub.Follows k room`: from a state in which the socket `k` is in the room on, it is sent all that is emitted
  to the room, as long as it stays connected (`Follows.exec`).
-/

namespace Async.Gateway

variable {U R X : Type}

/-- A socket (module doc). -/
structure Client (U R X : Type) where
  connected : Bool := true
  /-- Its authentication is not answered yet. -/
  pending : Bool := true
  user : Option U := none
  rooms : List R := []
  /-- What was sent to it, with the room. -/
  received : List (R × X) := []

structure Hub (U R X : Type) where
  clients : Table (Client U R X) := []
  /-- What was emitted, to which room. -/
  emitted : List (R × X) := []

/-- The user of a socket. -/
def Hub.userOf (h : Hub U R X) (k : Nat) : Option U := (h.clients[k]?).bind (·.user)

inductive Stmt (U R X : Type) where
  | connect
  /-- The authentication of a socket is answered with its user, or with an error. -/
  | answer (k : Nat) (reply : Option U)
  | user (k : Nat)
  | join (k : Nat) (room : R)
  | disconnect (k : Nat)
  | emit (room : R) (x : X)

/-- The answer of each statement. -/
def Resp : Stmt U R X → Type
  | .connect => Nat
  | .user _ => Option U
  | _ => Unit

/-- The statements of a gateway. -/
abbrev sig (U R X : Type) : Sig := ⟨Stmt U R X, Resp⟩

/-- The answer of an authentication; it is answered once. -/
def Client.answer (reply : Option U) (c : Client U R X) : Client U R X :=
  if c.pending then
    match reply with
    | some u => { c with pending := false, user := some u }
    | none => { c with pending := false, connected := false, rooms := [] }
  else c

/-- What a socket gets of what is emitted. -/
def Client.emit [DecidableEq R] (room : R) (x : X) (c : Client U R X) : Client U R X :=
  if c.connected ∧ room ∈ c.rooms then { c with received := c.received ++ [(room, x)] } else c

/-- What a statement answers, and the hub after it. A socket that is closed may still join a room: it is sent
nothing there. -/
def exec [DecidableEq R] : (c : Stmt U R X) → Hub U R X → Resp c × Hub U R X
  | .connect, h => (h.clients.length, { h with clients := h.clients ++ [{}] })
  | .answer k reply, h => ((), { h with clients := h.clients.modify k (Client.answer reply) })
  | .user k, h => (h.userOf k, h)
  | .join k room, h =>
    ((), { h with clients := h.clients.modify k fun c => { c with rooms := room :: c.rooms } })
  | .disconnect k, h =>
    ((), { h with clients := h.clients.modify k fun c => { c with connected := false, rooms := [] } })
  | .emit room x, h =>
    ((), { clients := h.clients.map (Client.emit room x), emitted := h.emitted ++ [(room, x)] })

section Client

variable [DecidableEq R]

/-- What a statement does to the socket `k`. -/
def Stmt.act (k : Nat) : Stmt U R X → Client U R X → Client U R X
  | .answer j reply, c => if j = k then c.answer reply else c
  | .join j room, c => if j = k then { c with rooms := room :: c.rooms } else c
  | .disconnect j, c => if j = k then { c with connected := false, rooms := [] } else c
  | .emit room x, c => c.emit room x
  | _, c => c

/-- What a statement emits. -/
def Stmt.emits : Stmt U R X → List (R × X)
  | .emit room x => [(room, x)]
  | _ => []

theorem exec_emitted (q : Stmt U R X) (h : Hub U R X) : (exec q h).2.emitted = h.emitted ++ q.emits := by
  cases q
  case emit room x => rfl
  all_goals exact (List.append_nil _).symm

/-- A socket after a statement. -/
theorem exec_get {q : Stmt U R X} {h : Hub U R X} {k : Nat} {c : Client U R X}
    (hc : h.clients[k]? = some c) : (exec q h).2.clients[k]? = some (q.act k c) := by
  have hmodify : ∀ (j : Nat) (f : Client U R X → Client U R X),
      (h.clients.modify j f)[k]? = some (if j = k then f c else c) := fun j f => by
    rw [List.getElem?_modify, hc]
    rfl
  cases q with
  | connect => exact Table.get_append_of_get hc _
  | answer j reply => exact hmodify j _
  | user j => exact hc
  | join j room => exact hmodify j _
  | disconnect j => exact hmodify j _
  | emit room x =>
    show (h.clients.map (Client.emit room x))[k]? = _
    rw [List.getElem?_map, hc]
    rfl

/-- Every socket was there before, or connects with the statement. -/
theorem get_exec {q : Stmt U R X} {h : Hub U R X} {k : Nat} {c' : Client U R X}
    (hc : (exec q h).2.clients[k]? = some c') :
    c' = {} ∨ ∃ c, h.clients[k]? = some c ∧ c' = q.act k c := by
  rcases hget : h.clients[k]? with _ | c
  · left
    have hlen : h.clients.length ≤ k := List.getElem?_eq_none_iff.mp hget
    cases q with
    | connect =>
      rw [exec, Table.get_append] at hc
      split at hc
      · exact (Option.some.inj hc).symm
      · rw [hget] at hc
        cases hc
    | user j => cases hget.symm.trans hc
    | answer j reply | join j room | disconnect j =>
      rw [exec, List.getElem?_modify, hget] at hc
      cases hc
    | emit room x =>
      rw [exec, List.getElem?_map, hget] at hc
      cases hc
  · rw [exec_get hget] at hc
    exact .inr ⟨c, rfl, (Option.some.inj hc).symm⟩

end Client

/-! ## Who is in a room -/

/-- What holds of a socket (module doc). -/
structure Client.Private (A : U → R → Prop) (emitted : List (R × X)) (c : Client U R X) : Prop where
  pending : c.pending = true → c.user = none
  rooms : ∀ room ∈ c.rooms, ∃ u, c.user = some u ∧ A u room
  received : ∀ x ∈ c.received, ∃ u, c.user = some u ∧ A u x.1
  sublist : c.received.Sublist emitted

def Hub.Private (A : U → R → Prop) (h : Hub U R X) : Prop := ∀ c ∈ h.clients, c.Private A h.emitted

/-- The user of a socket stays. -/
def Hub.Later (h h' : Hub U R X) : Prop :=
  ∀ k u, h.userOf k = some u → h'.userOf k = some u

theorem Hub.Later.refl (h : Hub U R X) : h.Later h := fun _ _ hu => hu

theorem Hub.Later.trans {h h₁ h' : Hub U R X} (hle : h.Later h₁) (hle' : h₁.Later h') : h.Later h' :=
  fun k u hu => hle' k u (hle k u hu)

/-- No user joins who may not. -/
def Stmt.Admits (A : U → R → Prop) (h : Hub U R X) : Stmt U R X → Prop
  | .join k room => ∃ u, h.userOf k = some u ∧ A u room
  | _ => True

section Private

variable [DecidableEq R] {A A' : U → R → Prop} {h : Hub U R X}

omit [DecidableEq R] in
theorem Hub.Private.mono (hA : ∀ u room, A u room → A' u room) (hp : h.Private A) : h.Private A' := by
  intro c hc
  obtain ⟨hpending, hrooms, hreceived, hsub⟩ := hp c hc
  refine ⟨hpending, fun room hr => ?_, fun x hx => ?_, hsub⟩
  · obtain ⟨u, hu, ha⟩ := hrooms room hr
    exact ⟨u, hu, hA u room ha⟩
  · obtain ⟨u, hu, ha⟩ := hreceived x hx
    exact ⟨u, hu, hA u x.1 ha⟩

/-- One socket. -/
theorem Client.Private.act {q : Stmt U R X} {k : Nat} {emitted : List (R × X)} {c : Client U R X}
    (hc : c.Private A emitted) (hq : ∀ room, q = .join k room → ∃ u, c.user = some u ∧ A u room) :
    (q.act k c).Private A (emitted ++ q.emits) ∧ ∀ u, c.user = some u → (q.act k c).user = some u := by
  obtain ⟨hpending, hrooms, hreceived, hsub⟩ := hc
  have hsame : c.Private A (emitted ++ []) :=
    ⟨hpending, hrooms, hreceived, (List.append_nil emitted).symm ▸ hsub⟩
  have hnone : ∀ room ∈ ([] : List R), ∃ u, c.user = some u ∧ A u room := by
    rintro room ⟨⟩
  cases q with
  | connect | user j => exact ⟨hsame, fun _ => id⟩
  | answer j reply =>
    simp only [Stmt.act, Client.answer]
    split
    · split
      · next hwait =>
        have huser := hpending hwait
        -- the socket was in no room, and was sent nothing
        have hempty : ∀ u room, ¬ (c.user = some u ∧ A u room) := by
          rintro u room ⟨hu, -⟩
          rw [huser] at hu
          cases hu
        refine ⟨?_, fun u hu => absurd (huser.symm.trans hu) (by simp)⟩
        cases reply with
        | none => exact ⟨by rintro ⟨⟩, hnone, hreceived, hsame.sublist⟩
        | some u =>
          exact ⟨by rintro ⟨⟩, fun room hr => (hempty _ _ (hrooms room hr).choose_spec).elim,
            fun x hx => (hempty _ _ (hreceived x hx).choose_spec).elim, hsame.sublist⟩
      · exact ⟨hsame, fun _ => id⟩
    · exact ⟨hsame, fun _ => id⟩
  | join j room =>
    simp only [Stmt.act]
    split
    · next hj =>
      refine ⟨⟨hpending, fun room' hr => ?_, hreceived, hsame.sublist⟩, fun _ => id⟩
      rcases List.mem_cons.mp hr with rfl | hr
      · exact hq _ (hj ▸ rfl)
      · exact hrooms room' hr
    · exact ⟨hsame, fun _ => id⟩
  | disconnect j =>
    simp only [Stmt.act]
    split
    · exact ⟨⟨hpending, hnone, hreceived, hsame.sublist⟩, fun _ => id⟩
    · exact ⟨hsame, fun _ => id⟩
  | emit room x =>
    simp only [Stmt.act, Client.emit]
    split
    · next hin =>
      refine ⟨⟨hpending, hrooms, fun y hy => ?_, hsub.append (List.Sublist.refl _)⟩, fun _ => id⟩
      rcases List.mem_append.mp hy with hy | hy
      · exact hreceived y hy
      · obtain rfl := List.mem_singleton.mp hy
        exact hrooms room hin.2
    · exact ⟨⟨hpending, hrooms, hreceived, hsub.trans (List.sublist_append_left _ _)⟩, fun _ => id⟩

/-- A statement that lets nobody join who may not. -/
theorem Hub.Private.exec (hp : h.Private A) {q : Stmt U R X} (hq : q.Admits A h) :
    (exec q h).2.Private A ∧ h.Later (exec q h).2 := by
  have hjoin : ∀ k c, h.clients[k]? = some c → ∀ room, q = .join k room →
      ∃ u, c.user = some u ∧ A u room := by
    rintro k c hc room rfl
    obtain ⟨u, hu, ha⟩ := hq
    rw [Hub.userOf, hc] at hu
    exact ⟨u, hu, ha⟩
  constructor
  · intro c' hc'
    obtain ⟨k, hget⟩ := List.mem_iff_getElem?.mp hc'
    rcases get_exec hget with rfl | ⟨c, hc, rfl⟩
    · exact ⟨fun _ => rfl, (by rintro room ⟨⟩), (by rintro x ⟨⟩), List.nil_sublist _⟩
    · rw [exec_emitted]
      exact ((hp c (List.mem_iff_getElem?.mpr ⟨k, hc⟩)).act (hjoin k c hc)).1
  · intro k u hu
    obtain ⟨c, hc, hu⟩ := Option.bind_eq_some_iff.mp hu
    rw [Hub.userOf, exec_get hc]
    exact ((hp c (List.mem_iff_getElem?.mpr ⟨k, hc⟩)).act (hjoin k c hc)).2 u hu

end Private

/-! ## What is sent -/

/-- What was emitted to a room. -/
def ofRoom [DecidableEq R] (room : R) (l : List (R × X)) : List X :=
  (l.filter fun x => x.1 = room).map Prod.snd

/-- A socket that is connected was connected before, and has got what was emitted to the room since. -/
structure Client.Gets [DecidableEq R] (room : R) (l : List (R × X)) (c c' : Client U R X) : Prop where
  connected : c.connected = true
  rooms : room ∈ c.rooms → room ∈ c'.rooms
  received : room ∈ c.rooms → ofRoom room c'.received = ofRoom room c.received ++ ofRoom room l

/-- The socket `k` gets what is emitted to the room (module doc). -/
def Hub.Follows [DecidableEq R] (k : Nat) (room : R) (h h' : Hub U R X) : Prop :=
  ∃ l, h'.emitted = h.emitted ++ l ∧ ∀ c, h.clients[k]? = some c →
    ∃ c', h'.clients[k]? = some c' ∧ (c'.connected = true → c.Gets room l c')

section Follows

variable [DecidableEq R] {k : Nat} {room : R} {h h₁ h' : Hub U R X}

theorem ofRoom_append (room : R) (l l' : List (R × X)) :
    ofRoom room (l ++ l') = ofRoom room l ++ ofRoom room l' := by
  rw [ofRoom, List.filter_append, List.map_append]
  rfl

theorem Client.Gets.refl {c : Client U R X} (room : R) (hc : c.connected = true) : c.Gets room [] c :=
  ⟨hc, id, fun _ => (List.append_nil _).symm⟩

theorem Hub.Follows.refl (k : Nat) (room : R) (h : Hub U R X) : h.Follows k room h :=
  ⟨[], (List.append_nil _).symm, fun c hc => ⟨c, hc, .refl room⟩⟩

theorem Hub.Follows.trans (hf : h.Follows k room h₁) (hf' : h₁.Follows k room h') :
    h.Follows k room h' := by
  obtain ⟨l, hl, hc⟩ := hf
  obtain ⟨l', hl', hc'⟩ := hf'
  refine ⟨l ++ l', by rw [hl', hl, List.append_assoc], fun c hget => ?_⟩
  obtain ⟨c₁, hget₁, h₁⟩ := hc c hget
  obtain ⟨c', hget', h'⟩ := hc' c₁ hget₁
  refine ⟨c', hget', fun hconn => ?_⟩
  have hgets' := h' hconn
  have hgets := h₁ hgets'.connected
  refine ⟨hgets.connected, fun hr => hgets'.rooms (hgets.rooms hr), fun hr => ?_⟩
  rw [hgets'.received (hgets.rooms hr), hgets.received hr, ofRoom_append, List.append_assoc]

/-- One socket. -/
theorem Client.Gets.act {q : Stmt U R X} {k : Nat} {c : Client U R X}
    (hconn : (q.act k c).connected = true) : c.Gets room q.emits (q.act k c) := by
  cases q with
  | connect | user j => exact .refl room hconn
  | answer j reply =>
    simp only [Stmt.act, Client.answer] at hconn ⊢
    split at hconn
    · next hj =>
      rw [if_pos hj]
      split at hconn
      · next hwait =>
        rw [if_pos hwait]
        cases reply with
        | none => cases hconn
        | some u => exact ⟨hconn, id, fun _ => (List.append_nil _).symm⟩
      · next hwait =>
        rw [if_neg hwait]
        exact .refl room hconn
    · next hj =>
      rw [if_neg hj]
      exact .refl room hconn
  | join j other =>
    simp only [Stmt.act] at hconn ⊢
    split at hconn
    · next hj =>
      rw [if_pos hj]
      exact ⟨hconn, List.mem_cons_of_mem _, fun _ => (List.append_nil _).symm⟩
    · next hj =>
      rw [if_neg hj]
      exact .refl room hconn
  | disconnect j =>
    simp only [Stmt.act] at hconn ⊢
    split at hconn
    · cases hconn
    · next hj =>
      rw [if_neg hj]
      exact .refl room hconn
  | emit other x =>
    simp only [Stmt.act, Client.emit, Stmt.emits] at hconn ⊢
    split at hconn
    · next hin =>
      rw [if_pos hin]
      exact ⟨hconn, id, fun _ => ofRoom_append room _ _⟩
    · next hin =>
      rw [if_neg hin]
      refine ⟨hconn, id, fun hr => ?_⟩
      -- what is emitted goes to another room
      have hne : other ≠ room := fun heq => hin ⟨hconn, heq ▸ hr⟩
      have hnil : ofRoom room [(other, x)] = [] := by
        rw [ofRoom, List.filter_cons_of_neg (by simpa using hne)]
        rfl
      rw [hnil, List.append_nil]

theorem Hub.Follows.exec (k : Nat) (room : R) (q : Stmt U R X) (h : Hub U R X) :
    h.Follows k room (exec q h).2 :=
  ⟨q.emits, exec_emitted q h, fun c hc => ⟨q.act k c, exec_get hc, Client.Gets.act⟩⟩

end Follows

end Async.Gateway
