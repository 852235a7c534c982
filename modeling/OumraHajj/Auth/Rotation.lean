import OumraHajj.Async.Pool
import OumraHajj.Auth.Spec

/-!
# Concurrent rotations of one token

`refresh` reads the live sessions, picks one that the token matches, revokes it by its identifier
and opens a new one. Nothing makes the revocation fail where another rotation has come first, so
concurrent calls with one token are all exchanged. `OwnSession` is the condition under which one at
most is: a rotation revokes the session of the token, and finds it not revoked yet.

**Ghost values** (`Ph`): a rotation that has revoked a session (`revoque`), and one that has also
opened its new one (`emis`). **Invariant** (`OnceInv`): one rotation at most has revoked the session
of the token, which then is revoked.
-/

namespace OumraHajj.Auth

open Async

namespace Rotation

inductive Ph where
  | avant
  | revoque
  | emis

variable {κ : Crypto} {config : AppConfig} {ι : Type}

/-- The rotations of the token run at once. -/
def poolOf (config : AppConfig) (ι : Type) (t : κ.Token) (s : Store) :
    Pool (sig κ) ι Store Erreur (AuthTokens κ) :=
  ⟨fun _ => AuthService.refresh config t, s⟩

/-- The rotation has ended with new tokens. -/
def succeeds (c : Pool (sig κ) ι Store Erreur (AuthTokens κ)) (u : ι) : Bool :=
  match c.procs u with
  | .ret _ => true
  | _ => false

/-- The session that a statement revokes. -/
def revokes : (sig κ).Stmt → Option RefreshTokenId
  | .inr (.refreshTokenUpdate id) => some id
  | _ => none

/-- A rotation revokes the session `r`, which is not revoked yet. -/
def OwnSession (r : RefreshTokenId) : Pool.Cond (sig κ) ι Store Env :=
  fun next s u _ => ∀ id ∈ (next u).bind revokes,
    id = r ∧ ∀ row ∈ s.refreshTokens[r]?, row.revoked = false

instance (r : RefreshTokenId) (next : ι → Option (sig κ).Stmt) (s : Store) (u : ι) (e : Env) :
    Decidable (OwnSession r next s u e) :=
  inferInstanceAs (Decidable (∀ _ ∈ _, _ = _ ∧ ∀ _ ∈ _, _))

structure OnceInv (r : RefreshTokenId) (n : Nat) (γ : ι → Ph) (s : Store) : Prop where
  unique : ∀ u v, γ u ≠ .avant → γ v ≠ .avant → u = v
  revoked : ∀ u, γ u ≠ .avant → ∃ row, s.refreshTokens[r]? = some row ∧ row.revoked = true
  issued : (∀ u, γ u ≠ .emis) → s.refreshTokens.length ≤ n
  length : s.refreshTokens.length ≤ n + 1

namespace OnceInv

variable [DecidableEq ι] {r : RefreshTokenId} {n : Nat} {γ : ι → Ph} {s s' : Store} {u : ι}

omit [DecidableEq ι] in
theorem keep (h : OnceInv r n γ s) (hs : s'.refreshTokens = s.refreshTokens) :
    OnceInv r n γ s' := by
  refine ⟨h.unique, ?_, ?_, ?_⟩
  · rw [hs]
    exact h.revoked
  · rw [hs]
    exact h.issued
  · rw [hs]
    exact h.length

/-- The first rotation revokes the session of the token. -/
theorem revoke (h : OnceInv r n γ s) {row : RefreshToken} (hr : s.refreshTokens[r]? = some row)
    (hrow : row.revoked = false) :
    OnceInv r n (Function.update γ u .revoque) (s.revoke (r, row)) := by
  -- no other one has, as it is not revoked
  have havant : ∀ v, γ v = .avant := by
    intro v
    by_contra hv
    obtain ⟨row', hr', hrow'⟩ := h.revoked v hv
    cases hr.symm.trans hr'
    rw [hrow] at hrow'
    cases hrow'
  have hne : ∀ v, Function.update γ u .revoque v ≠ .avant → v = u := by
    intro v hv
    by_contra hvu
    rw [Function.update_of_ne hvu] at hv
    exact hv (havant v)
  have hlen : (s.revoke (r, row)).refreshTokens.length = s.refreshTokens.length :=
    List.length_set ..
  refine ⟨fun v w hv hw => (hne v hv).trans (hne w hw).symm, fun v _ => ?_, fun _ => ?_, ?_⟩
  · exact ⟨{ row with revoked := true }, by rw [Store.revoke, Table.get_set hr, if_pos rfl], rfl⟩
  · rw [hlen]
    refine h.issued fun v hv => ?_
    rw [havant v] at hv
    cases hv
  · rw [hlen]
    exact h.length

/-- It opens its new session. -/
theorem create (h : OnceInv r n γ s) (hu : γ u = .revoque) {row : RefreshToken}
    (hs : s'.refreshTokens = s.refreshTokens ++ [row]) :
    OnceInv r n (Function.update γ u .emis) s' := by
  have hu' : γ u ≠ .avant := by
    rw [hu]
    rintro ⟨⟩
  have hne : ∀ v, Function.update γ u .emis v ≠ .avant → v = u := by
    intro v hv
    by_contra hvu
    rw [Function.update_of_ne hvu] at hv
    exact hvu (h.unique v u hv hu')
  have hlen : s.refreshTokens.length ≤ n := by
    refine h.issued fun v hv => ?_
    have hvu : v = u := h.unique v u (by rw [hv]; rintro ⟨⟩) hu'
    rw [hvu, hu] at hv
    cases hv
  have hlen' : s'.refreshTokens.length ≤ n + 1 := by
    rw [hs, List.length_append]
    exact Nat.succ_le_succ hlen
  refine ⟨fun v w hv hw => (hne v hv).trans (hne w hw).symm, fun v _ => ?_, fun hno => ?_, hlen'⟩
  · obtain ⟨row', hr', hrow'⟩ := h.revoked u hu'
    exact ⟨row', by rw [hs, Table.get_append_of_get hr'], hrow'⟩
  · exact absurd (Function.update_self ..) (hno u)

end OnceInv

/-! ## The rotation -/

variable [DecidableEq ι]

/-- The protocol of the rotations (module doc). -/
def proto (ι : Type) (r : RefreshTokenId) (n : Nat) : Proto (sig κ) ι Store where
  Gh := Ph
  inv := OnceInv r n
  place _ _ := True

section Safe

variable {r : RefreshTokenId} {n : Nat} {u : ι} {α : Type}

theorem safe_leaves {c : (sig κ).Stmt} {k : (sig κ).Resp c → Req κ α}
    {Q : Except Erreur α → Ph → Prop} {g : Ph} (hc : leaves c = true)
    (hk : ∀ a, (proto ι r n).Safe (backend κ) (OwnSession r) u (k a) Q g) :
    (proto ι r n).Safe (backend κ) (OwnSession r) u (.call c k) Q g :=
  Proto.safe_call (P := proto ι r n) trivial (fun _ s e hi _ => OnceInv.keep hi (exec_leaves hc e s))
    fun _ _ _ _ _ => hk _

theorem findMatching_safe {v : UserId} {t : κ.Token} {f : Option RefreshTokenId → Req κ α}
    {Q : Except Erreur α → Ph → Prop} {g : Ph}
    (hf : ∀ found, (proto ι r n).Safe (backend κ) (OwnSession r) u (f found) Q g) :
    (proto ι r n).Safe (backend κ) (OwnSession r) u
      ((AuthService.findMatchingRefreshToken v t).bind f) Q g :=
  safe_leaves rfl fun _ => hf _

theorem findByIdOrFail_safe {v : UserId} {f : UserShape → Req κ α}
    {Q : Except Erreur α → Ph → Prop} {g : Ph} (he : ∀ x, Q (.error x) g)
    (hf : ∀ user, (proto ι r n).Safe (backend κ) (OwnSession r) u (f user) Q g) :
    (proto ι r n).Safe (backend κ) (OwnSession r) u
      ((Prog.left (UsersService.findByIdOrFail v)).bind f) Q g := by
  refine safe_leaves rfl fun found => ?_
  cases found with
  | none => exact he _
  | some user => exact hf _

/-- A rotation that has ended has opened its new session. -/
def Issued (x : Except Erreur (AuthTokens κ)) (g : Ph) : Prop := ∀ tk, x = .ok tk → g = .emis

theorem issueTokens_safe (user : Identity) :
    (proto ι r n).Safe (backend κ) (OwnSession r) u (AuthService.issueTokens config user) Issued
      .revoque := by
  refine safe_leaves rfl fun accessToken => safe_leaves rfl fun refreshToken =>
    safe_leaves rfl fun tokenHash => ⟨trivial, fun γ next s e hi hg _ _ _ => ?_⟩
  rcases refreshTokenCreate_exec κ s user.id tokenHash ((κ.decode refreshToken).exp * 1000) e with
    hx | hx
  · rw [hx]
    refine ⟨.revoque, ?_, by rintro tk ⟨⟩⟩
    rw [← hg, Function.update_eq_self]
    exact hi.keep rfl
  · rw [hx]
    exact ⟨.emis, hi.create hg rfl, fun _ _ => rfl⟩

/-- A rotation keeps the protocol. -/
theorem refresh_safe (t : κ.Token) : (proto ι r n).Safe (backend κ) (OwnSession r) u
    (AuthService.refresh config t) Issued .avant := by
  refine safe_leaves rfl fun verified => ?_
  cases verified with
  | none => rintro tk ⟨⟩
  | some payload =>
    refine findMatching_safe fun found => ?_
    cases found with
    | none => rintro tk ⟨⟩
    | some stored =>
      refine findByIdOrFail_safe (by rintro x tk ⟨⟩) fun user => ?_
      split
      · rintro tk ⟨⟩
      refine ⟨trivial, fun γ next s e hi hg _ hn hok => ?_⟩
      obtain ⟨rfl, hrow⟩ := hok stored (by rw [hn]; rfl)
      rcases refreshTokenUpdate_exec κ s stored e with hx | ⟨row, hr, hx⟩
      · rw [hx]
        refine ⟨.avant, ?_, by rintro tk ⟨⟩⟩
        rw [← hg, Function.update_eq_self]
        exact hi.keep rfl
      · rw [hx]
        have hi' : OnceInv stored n γ (s.tick e) := OnceInv.keep hi rfl
        exact ⟨.revoque, hi'.revoke hr (hrow row hr), issueTokens_safe _⟩

end Safe

/-- **Exchanged once.** In every interleaving of rotations of one token that revoke the session `r`
only, and find it not revoked yet, one at most succeeds, and one new session at most is opened. -/
theorem exchanged_once {r : RefreshTokenId} {t : κ.Token} {s : Store}
    {c : Pool (sig κ) ι Store Erreur (AuthTokens κ)}
    (hr : Pool.Reach (backend κ) (OwnSession r) (poolOf config ι t s) c) :
    (∀ u v, succeeds c u = true → succeeds c v = true → u = v) ∧
      c.st.refreshTokens.length ≤ s.refreshTokens.length + 1 := by
  have h₀ : (proto ι r s.refreshTokens.length).Keeps (backend κ) (OwnSession r) (fun _ => Issued)
      (poolOf config ι t s) := by
    refine ⟨fun _ => .avant, ⟨?_, ?_, fun _ => Nat.le_refl _, Nat.le_succ _⟩,
      fun _ => refresh_safe t⟩
    · exact fun _ _ h => absurd rfl h
    · exact fun _ h => absurd rfl h
  obtain ⟨γ, hi, hs⟩ := Proto.reach (fun _ _ _ _ => trivial) h₀ hr
  have hend : ∀ u, succeeds c u = true → γ u ≠ .avant := by
    intro u hu
    have hsafe := hs u
    unfold succeeds at hu
    split at hu
    · rename_i tk htk
      rw [htk] at hsafe
      have hemis : γ u = .emis := hsafe tk rfl
      rw [hemis]
      rintro ⟨⟩
    · cases hu
  exact ⟨fun u v hu hv => hi.unique u v (hend u hu) (hend v hv), hi.length⟩

/-! ## Schedules on fixed inputs -/

/-- Two rotations of the token of the owner. -/
private def deux : Pool (sig Crypto.exemple) (Fin 2) Store Erreur (AuthTokens Crypto.exemple) :=
  poolOf .exemple (Fin 2) (jeton 0) .connecte

/-- The second one reads the sessions once the first one has revoked hers. -/
private def refusee : Pool (sig Crypto.exemple) (Fin 2) Store Erreur (AuthTokens Crypto.exemple) :=
  Pool.run (backend _) (tours [0, 0, 0, 0, 1, 1, 0, 0, 0, 0]) deux

theorem exchanged_once_exemple :
    (∀ u v, succeeds refusee u = true → succeeds refusee v = true → u = v) ∧
      refusee.st.refreshTokens.length ≤ Store.connecte.refreshTokens.length + 1 := by
  have hallowed : Pool.Allowed (backend _) (OwnSession 0) deux
      (tours [0, 0, 0, 0, 1, 1, 0, 0, 0, 0]) := by decide +kernel
  exact exchanged_once (hallowed.reach .refl)

/-- Both have read the session when the first one revokes it. -/
private def echangees :
    Pool (sig Crypto.exemple) (Fin 2) Store Erreur (AuthTokens Crypto.exemple) :=
  Pool.run (backend _) (tours [0, 0, 1, 1, 0, 0, 0, 0, 0, 0, 1, 1, 1, 1, 1, 1]) deux

/-- Both are exchanged. -/
theorem exchanged_twice : ¬ ∀ (config : AppConfig) (t : Crypto.exemple.Token) (s : Store)
    (c : Pool (sig Crypto.exemple) (Fin 2) Store Erreur (AuthTokens Crypto.exemple)),
    Pool.Reach (backend _) Pool.anyStep (poolOf config (Fin 2) t s) c →
      ∀ u v, succeeds c u = true → succeeds c v = true → u = v := by
  intro h
  have heq := h .exemple (jeton 0) .connecte echangees (Pool.Reach.run .refl _) 0 1
    (by decide +kernel) (by decide +kernel)
  exact absurd heq (by decide)

end Rotation

end OumraHajj.Auth
