import OumraHajj.Async.Once
import OumraHajj.Auth.Spec

/-!
# Concurrent uses of one reset link

`resetPassword` reads the row of the token and checks it before its transaction. The transaction
first updates the user, whose row it locks until it commits, so the transactions of a user follow
each other; but its `deleteMany` accepts that the token is gone already. `Present` is the condition
under which one call at most succeeds: the row of the token is still there when a call commits.
-/

namespace OumraHajj.Auth

open Async

namespace ResetLink

variable {κ : Crypto} {ι : Type}

/-- The calls with the token run at once, each with its new password. -/
def poolOf (token : String) (newPassword : ι → String) (s : Store) :
    Pool (sig κ) ι Store Erreur Unit :=
  ⟨fun u => PasswordResetService.resetPassword token (newPassword u), s⟩

/-- The user whose password a statement changes. -/
def resets : (sig κ).Stmt → Option UserId
  | .inr (.passwordReset u _) => some u
  | _ => none

/-- The row `id` of the token is still there, with its user, when the transaction commits. -/
def Present (token : String) (id : Nat) : Pool.Cond (sig κ) ι Store Env :=
  fun next s u _ => ∀ v ∈ (next u).bind resets, ∃ row ∈ s.passwordResetTokens.row id,
    row.tokenHash = κ.sha256 token ∧ row.userId = v

instance (token : String) (id : Nat) (next : ι → Option (sig κ).Stmt) (s : Store) (u : ι) (e : Env) :
    Decidable (Present token id next s u e) :=
  inferInstanceAs (Decidable (∀ _ ∈ _, ∃ _ ∈ _, _ ∧ _))

/-- The row of the token is deleted. -/
def used (id : Nat) (_ : Unit) (s : Store) : Prop := s.passwordResetTokens.row id = none

/-- A reset deletes the tokens of its user. -/
theorem row_passwordReset (κ : Crypto) (s : Store) (v : UserId) (passwordHash : String) (e : Env)
    (id : Nat) :
    ((backend κ).exec (.inr (.passwordReset v passwordHash)) e s = (none, s.tick e)) ∨
    ((backend κ).exec (.inr (.passwordReset v passwordHash)) e s).1 = some () ∧
      ((backend κ).exec (.inr (.passwordReset v passwordHash)) e s).2.passwordResetTokens.row id =
        (s.passwordResetTokens.row id).filter (·.userId ≠ v) := by
  rcases passwordReset_exec κ s v passwordHash e with hx | ⟨user, -, hx⟩
  · exact .inl hx
  · rw [hx]
    exact .inr ⟨rfl, Table.row_map_filter _ _ _⟩

theorem used_passwordReset {id : Nat} {r : Unit} {s : Store} {v : UserId} {passwordHash : String}
    {e : Env} (h : used id r s) :
    used id r ((backend κ).exec (.inr (.passwordReset v passwordHash)) e s).2 := by
  rcases row_passwordReset κ s v passwordHash e id with hx | ⟨-, hrow⟩
  · rw [hx]
    exact h
  · rw [used, hrow, h, Option.filter_none]

variable [DecidableEq ι] {token : String} {id : Nat}

section Safe

variable {u : ι} {α : Type} {Q : Except Erreur α → Option Unit → Prop} {g : Option Unit}

theorem findUnique_safe {tokenHash : String} {f : Option (PasswordResetToken × User) → Req κ α}
    (hf : ∀ found, (Proto.once (used id)).Safe (backend κ) (Present token id) u (f found) Q g) :
    (Proto.once (used id)).Safe (backend κ) (Present token id) u
      ((await (.passwordResetTokenFindUnique tokenHash)).bind f) Q g :=
  Proto.safe_keeps (fun _ _ _ h => h) fun _ _ => hf _

theorem now_safe {f : Time → Req κ α}
    (hf : ∀ now, (Proto.once (used id)).Safe (backend κ) (Present token id) u (f now) Q g) :
    (Proto.once (used id)).Safe (backend κ) (Present token id) u
      ((Prog.left (OumraHajj.await .now)).bind f) Q g :=
  Proto.safe_keeps (fun _ _ _ h => h) fun _ _ => hf _

theorem bcryptHash_safe {text : String} {f : String → Req κ α}
    (hf : ∀ hash, (Proto.once (used id)).Safe (backend κ) (Present token id) u (f hash) Q g) :
    (Proto.once (used id)).Safe (backend κ) (Present token id) u
      ((Prog.left (OumraHajj.await (.bcryptHash text))).bind f) Q g :=
  Proto.safe_keeps (fun _ _ _ h => h) fun _ _ => hf _

end Safe

/-- A call succeeds once it has deleted the row of the token. -/
theorem resetPassword_safe (newPassword : String) (u : ι) :
    (Proto.once (used id)).Safe (backend κ) (Present token id) u
      (PasswordResetService.resetPassword token newPassword)
      (fun r g => ∀ a, r = .ok a → g = some ()) none := by
  refine findUnique_safe fun found => ?_
  rcases found with - | ⟨record, user⟩
  · rintro a ⟨⟩
  refine now_safe fun now => ?_
  split
  · rintro a ⟨⟩
  split
  · rintro a ⟨⟩
  refine bcryptHash_safe fun passwordHash => ?_
  refine Proto.safe_wins (fun _ e s => used_passwordReset) fun next s e hn hok => ?_
  rcases row_passwordReset κ s record.userId passwordHash e id with hx | ⟨hx, hrow⟩
  · rw [hx]
    refine .inl ?_
    rintro a ⟨⟩
  · rw [hx]
    obtain ⟨row, hr, -, hu⟩ := hok record.userId (by rw [hn]; rfl)
    refine .inr ⟨(), ?_, ?_, fun _ _ => rfl⟩
    · rw [used, hr]
      rintro ⟨⟩
    · rw [used, hrow, hr, Option.filter_some_neg (by simp [hu])]

/-- **The link works once.** In every interleaving of calls with one token that commit while the row
of the token is there, one call at most succeeds. -/
theorem reset_once {newPassword : ι → String} {s : Store} {c : Pool (sig κ) ι Store Erreur Unit}
    (hr : Pool.Reach (backend κ) (Present token id) (poolOf token newPassword s) c) :
    ∀ u v, c.procs u = .ret () → c.procs v = .ret () → u = v :=
  fun _ _ => Proto.once_reach (used id) (fun u => resetPassword_safe (newPassword u) u) hr

/-! ## Schedules on fixed inputs -/

/-- The owner has asked for a link. -/
private def demandee : Store :=
  { Store.exemple with
    passwordResetTokens := [some
      { userId := 0, tokenHash := Crypto.exemple.sha256 "lien", expiresAt := 3600000 }] }

private def motDePasse (u : Fin 2) : String := if u.val = 0 then "premier" else "second"

private def deux : Pool (sig Crypto.exemple) (Fin 2) Store Erreur Unit :=
  poolOf "lien" motDePasse demandee

/-- The second call reads the token once the first one has committed. -/
private def successifs : Pool (sig Crypto.exemple) (Fin 2) Store Erreur Unit :=
  Pool.run (backend _) (tours [0, 0, 0, 0, 1]) deux

theorem reset_once_exemple : successifs.procs 0 = .ret () ∧
    ∀ u v, successifs.procs u = .ret () → successifs.procs v = .ret () → u = v := by
  have hallowed : Pool.Allowed (backend _) (Present "lien" 0) deux (tours [0, 0, 0, 0, 1]) := by
    decide +kernel
  exact ⟨Pool.ret_of_result (by decide +kernel), reset_once (hallowed.reach .refl)⟩

/-- Both have read the token when the first one commits: both change the password. -/
theorem reset_twice : ¬ ∀ (token : String) (newPassword : Fin 2 → String) (s : Store)
    (c : Pool (sig Crypto.exemple) (Fin 2) Store Erreur Unit),
    Pool.Reach (backend _) Pool.anyStep (poolOf token newPassword s) c →
      ∀ u v, c.procs u = .ret () → c.procs v = .ret () → u = v := by
  intro h
  have heq := h "lien" motDePasse demandee _ (Pool.Reach.run .refl (tours [0, 1, 0, 1, 0, 1, 0, 1])) 0 1
    (Pool.ret_of_result (by decide +kernel)) (Pool.ret_of_result (by decide +kernel))
  exact absurd heq (by decide)

end ResetLink

end OumraHajj.Auth
