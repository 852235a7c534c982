import OumraHajj.Async.Once
import OumraHajj.Auth.Spec

/-!
# Concurrent uses of one ticket

`consume` verifies a ticket and then looks its identifier up among those that were used. The two
steps read the clock one after the other, and the second one first forgets what has expired, so a
call that has verified the ticket in time is accepted again once the identifier is forgotten.
`Remembered` is the condition under which one call at most is accepted: no call forgets the
identifier that it looks up.
-/

namespace OumraHajj.Auth

open Async

namespace Ticket

variable {κ : Crypto} {ι : Type}

/-- The calls with the ticket run at once. -/
def poolOf (config : AppConfig) (ι : Type) (ticket : κ.Token) (s : Store) :
    Pool (sig κ) ι Store Erreur JwtPayload :=
  ⟨fun _ => RealtimeTicketService.consume config ticket, s⟩

/-- The identifier that a statement looks up. -/
def registers : (sig κ).Stmt → Option String
  | .inr (.consommer jti _) => some jti
  | _ => none

/-- The purge does not forget the identifier that the call is about to look up. -/
def Remembered : Pool.Cond (sig κ) ι Store Env :=
  fun next s u e => ∀ jti ∈ (next u).bind registers, ∀ x ∈ s.consommes, x.1 = jti →
    ¬ x.2 < (s.tick e).clock

instance (next : ι → Option (sig κ).Stmt) (s : Store) (u : ι) (e : Env) :
    Decidable (Remembered next s u e) :=
  inferInstanceAs (Decidable (∀ _ ∈ _, ∀ _ ∈ _, _ → _))

/-- The identifier is remembered. -/
def used (jti : String) (_ : Unit) (s : Store) : Prop := ∃ x ∈ s.consommes, x.1 = jti

variable [DecidableEq ι] {config : AppConfig} {ticket : κ.Token}

theorem jwtVerify_safe {jti secret : String} {aud : Option String} {u : ι} {α : Type}
    {f : Option Claims → Req κ α} {Q : Except Erreur α → Option Unit → Prop} {g : Option Unit}
    (hf : ∀ s, (Proto.once (used jti)).Safe (backend κ) Remembered u
      (f (verified κ s ticket secret aud)) Q g) :
    (Proto.once (used jti)).Safe (backend κ) Remembered u
      ((await (.jwtVerify ticket secret aud)).bind f) Q g :=
  Proto.safe_keeps (fun _ _ _ => id) fun s e => hf (s.tick e)

/-- A call is accepted once it has registered the identifier of the ticket. -/
theorem consume_safe {jti : String}
    (hj : ∀ c ∈ κ.verify config.ticketSecret ticket, c.jti.getD "" = jti) (u : ι) :
    (Proto.once (used jti)).Safe (backend κ) Remembered u
      (RealtimeTicketService.consume config ticket)
      (fun r g => ∀ payload, r = .ok payload → g = some ()) none := by
  unfold RealtimeTicketService.consume
  split
  · rintro payload ⟨⟩
  refine jwtVerify_safe fun s => ?_
  rcases hv : verified κ s ticket config.ticketSecret (some audience) with - | c
  · rintro payload ⟨⟩
  obtain ⟨hc, -⟩ := verified_eq_some.mp hv
  obtain rfl := hj c hc
  refine Proto.safe_wins (fun _ e s _ => (exec_consommer κ s _ c.exp e).1) fun next s e hn hok => ?_
  obtain ⟨hused, htrue⟩ := exec_consommer κ s (c.jti.getD "") c.exp e
  cases hx : ((backend κ).exec (.inr (.consommer (c.jti.getD "") c.exp)) e s).1 with
  | false =>
    refine .inl ?_
    rintro payload ⟨⟩
  | true =>
    refine .inr ⟨(), ?_, hused, fun _ _ => rfl⟩
    -- a remembered identifier would have been forgotten
    rintro ⟨x, hx', hxj⟩
    exact hok _ (by rw [hn]; rfl) x hx' hxj (htrue.mp hx x hx' hxj)

/-- **Accepted once.** In every interleaving of calls with one ticket in which no call forgets the
identifier that it looks up, one call at most is accepted. -/
theorem accepted_once {s : Store} {c : Pool (sig κ) ι Store Erreur JwtPayload}
    (hr : Pool.Reach (backend κ) Remembered (poolOf config ι ticket s) c) :
    ∀ u v p q, c.procs u = .ret p → c.procs v = .ret q → u = v := by
  obtain ⟨jti, hj⟩ : ∃ jti, ∀ c ∈ κ.verify config.ticketSecret ticket, c.jti.getD "" = jti := by
    cases κ.verify config.ticketSecret ticket with
    | none => exact ⟨"", fun _ h => by cases h⟩
    | some c => exact ⟨c.jti.getD "", fun c' h => by cases h; rfl⟩
  exact fun u v p q => Proto.once_reach (used jti) (fun u => consume_safe hj u) hr

/-! ## Schedules on fixed inputs -/

/-- A ticket of the owner, of 30 s. -/
private def billet : Crypto.exemple.Token :=
  Crypto.exemple.sign "ticket"
    { sub := 0, role := .agency, exp := 30, aud := some audience, jti := some "1" }

/-- Both calls verify the ticket at once; the second one is `retard` behind the first one. -/
private def essais (retard : Time) : List (Fin 2 × Env) :=
  tours [0, 1, 0] ++ (tours [1]).map fun x => (x.1, { now := retard })

private def deux : Pool (sig Crypto.exemple) (Fin 2) Store Erreur JwtPayload :=
  poolOf .exemple (Fin 2) billet {}

/-- The payload with which a call was accepted. -/
private def payload : JwtPayload := { sub := 0, role := .agency }

theorem accepted_once_exemple :
    (Pool.run (backend _) (essais 30000) deux).procs 0 = .ret payload ∧
      ∀ u v p q, (Pool.run (backend _) (essais 30000) deux).procs u = .ret p →
        (Pool.run (backend _) (essais 30000) deux).procs v = .ret q → u = v := by
  have hallowed : Pool.Allowed (backend _) Remembered deux (essais 30000) := by decide +kernel
  exact ⟨Pool.ret_of_result (by decide +kernel), accepted_once (hallowed.reach .refl)⟩

/-- The second call looks the identifier up once it is forgotten. -/
theorem accepted_twice : ¬ ∀ (config : AppConfig) (ticket : Crypto.exemple.Token) (s : Store)
    (c : Pool (sig Crypto.exemple) (Fin 2) Store Erreur JwtPayload),
    Pool.Reach (backend _) Pool.anyStep (poolOf config (Fin 2) ticket s) c →
      ∀ u v p q, c.procs u = .ret p → c.procs v = .ret q → u = v := by
  intro h
  have heq := h .exemple billet {} _ (Pool.Reach.run .refl (essais 30001)) 0 1 payload payload
    (Pool.ret_of_result (by decide +kernel)) (Pool.ret_of_result (by decide +kernel))
  exact absurd heq (by decide)

end Ticket

end OumraHajj.Auth
