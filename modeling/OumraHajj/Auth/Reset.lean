import OumraHajj.Async.History
import OumraHajj.Auth.Rotation

/-!
# A password reset under concurrency

`resetPassword` revokes the sessions that exist when its transaction commits. A login or a rotation
checks first and opens its session statements later, so one that has checked before the commit opens
a session after it, which nothing revokes. Besides, bcrypt takes a token from before the reset for a
session opened since.

The history (`Trail`) keeps what was issued since the reset of the user `u`: by a login that has
read the account since, or by a rotation of a token that was issued since. `Orderly` is the
condition under which nothing else is: no login and no rotation of `u` is between its check and its
end when the reset commits, and a rotation that revokes a session of `u` since is made with a token
issued since. Then every session of `u` that is not revoked was issued since (`reset_closes`).

**Ghost values** (`Ph`): a rotation of `u` that has found the session `id` (`verifie id`), and a
handler that is about to open a session of `u` (`emet`).
-/

namespace OumraHajj.Auth

open Async

/-- The requests that run at once. -/
inductive ResetRequest (κ : Crypto) where
  | resetPassword (token newPassword : String)
  | refresh (rawRefreshToken : κ.Token)
  | validateAgencyOrAdmin (email password : String)

namespace Reset

/-- What was issued since the reset (module doc). -/
structure Trail (κ : Crypto) (ι : Type) where
  reset : Bool := false
  /-- The logins and rotations that have made their check. -/
  checked : ι → Bool := fun _ => false
  tokens : List κ.Token := []
  sessions : List RefreshTokenId := []

inductive Ph where
  | avant
  | verifie (id : RefreshTokenId)
  | emet

variable {κ : Crypto} {ι : Type}

def handler (config : AppConfig) : ResetRequest κ → Req κ Unit
  | .resetPassword token newPassword => PasswordResetService.resetPassword token newPassword
  | .refresh rawRefreshToken => (AuthService.refresh config rawRefreshToken).void
  | .validateAgencyOrAdmin email password =>
    (AuthService.validateAgencyOrAdmin config email password).void

/-- The handler issues what it issues since the reset. -/
def Trail.issues (h : Trail κ ι) (t : ι) : ResetRequest κ → Bool
  | .resetPassword _ _ => false
  | .refresh rawRefreshToken => rawRefreshToken ∈ h.tokens
  | .validateAgencyOrAdmin _ _ => h.checked t

/-- The sessions of `u` are closed, but those that were opened since the reset (module doc). -/
structure ClosedInv (requests : ι → ResetRequest κ) (u : UserId) (γ : ι → Ph)
    (x : Store × Trail κ ι) : Prop where
  checked : ∀ t, γ t ≠ .avant → x.2.checked t = true
  row : ∀ t id, γ t = .verifie id → ∃ row, x.1.refreshTokens[id]? = some row ∧ row.userId = u
  issues : x.2.reset = true → ∀ t, γ t = .emet → x.2.issues t (requests t) = true
  sessions : x.2.reset = true → ∀ i row, x.1.refreshTokens[i]? = some row → row.userId = u →
    row.revoked = false → i ∈ x.2.sessions

/-- Nothing is taken back. -/
structure Grows (h h' : Trail κ ι) : Prop where
  reset : h'.reset = h.reset
  checked : ∀ t, h.checked t = true → h'.checked t = true
  tokens : ∀ t ∈ h.tokens, t ∈ h'.tokens
  sessions : h'.sessions = h.sessions

theorem Grows.refl (h : Trail κ ι) : Grows h h := ⟨rfl, fun _ => id, fun _ => id, rfl⟩

theorem Grows.issues {h h' : Trail κ ι} (hg : Grows h h') {t : ι} {q : ResetRequest κ}
    (ht : h.issues t q = true) : h'.issues t q = true := by
  cases q with
  | resetPassword token pw => exact ht
  | refresh raw => exact decide_eq_true (hg.tokens _ (of_decide_eq_true ht))
  | validateAgencyOrAdmin email pw => exact hg.checked t ht

variable [DecidableEq ι]

/-- What the statements note for the user `u`. -/
def note (config : AppConfig) (requests : ι → ResetRequest κ) (u : UserId) :
    Note (sig κ) ι Store (Trail κ ι)
  | t, .inl (.userFindByEmail _), some (v, _), _, h =>
    if v = u then { h with checked := Function.update h.checked t true } else h
  | t, .inr (.refreshTokenFindMany v), _, _, h =>
    if v = u then { h with checked := Function.update h.checked t true } else h
  | t, .inr (.jwtSign _ secret _), token, _, h =>
    if secret = config.refreshSecret ∧ h.issues t (requests t) = true then
      { h with tokens := token :: h.tokens }
    else h
  | t, .inr (.refreshTokenCreate v _ _), some _, s, h =>
    if v = u ∧ h.issues t (requests t) = true then
      { h with sessions := s.refreshTokens.length :: h.sessions }
    else h
  | _, .inr (.passwordReset v _), some _, _, h => if v = u then { reset := true } else h
  | _, _, _, _, h => h

/-- The requests run at once, with their history. -/
def poolOf (config : AppConfig) (requests : ι → ResetRequest κ) (s : Store) :
    Pool ((sig κ).tagged ι) ι (Store × Trail κ ι) Erreur Unit :=
  Pool.tagged ⟨fun t => handler config (requests t), s⟩ {}

/-- The transaction of a reset of `u`. -/
def commits (u : UserId) : (sig κ).Stmt → Bool
  | .inr (.passwordReset v _) => v = u
  | _ => false

/-- The condition on a step (module doc). -/
def Orderly (requests : ι → ResetRequest κ) (u : UserId) :
    Pool.Cond ((sig κ).tagged ι) ι (Store × Trail κ ι) Env :=
  fun next x t _ => ∀ q ∈ next t,
    (commits u q.2 = true → ∀ v, x.2.checked v = true → next v = none) ∧
    ∀ id ∈ Rotation.revokes q.2, (x.1.refreshTokens[id]?).any (·.userId = u) = true →
      x.2.reset = true → x.2.issues t (requests t) = true

instance [Fintype ι] (requests : ι → ResetRequest κ) (u : UserId)
    (next : ι → Option (ι × (sig κ).Stmt)) (x : Store × Trail κ ι) (t : ι) (e : Env) :
    Decidable (Orderly requests u next x t e) :=
  have : ∀ v, Decidable (next v = none) := fun v => inferInstanceAs (Decidable (next v = none))
  inferInstanceAs (Decidable (∀ _ ∈ _, (_ → ∀ _, _ → _ = none) ∧ ∀ _ ∈ _, _ → _ → _))

theorem Grows.check (h : Trail κ ι) (t : ι) :
    Grows h { h with checked := Function.update h.checked t true } := by
  refine ⟨rfl, fun v hv => ?_, fun _ => id, rfl⟩
  by_cases hvt : v = t
  · subst hvt
    exact Function.update_self ..
  · rw [← hv]
    exact Function.update_of_ne hvt ..

/-- What a statement that writes no session notes. -/
theorem note_leaves {config : AppConfig} {requests : ι → ResetRequest κ} {u : UserId} (t : ι)
    {c : (sig κ).Stmt} (hc : leaves c = true) (r : (sig κ).Resp c) (s : Store) (h : Trail κ ι) :
    Grows h (note config requests u t c r s h) := by
  rcases c with c | c
  · cases c with
    | userFindByEmail email =>
      rcases r with - | ⟨v, user⟩
      · exact .refl h
      · simp only [note]
        split
        · exact .check h t
        · exact .refl h
    | _ => exact .refl h
  · cases c with
    | refreshTokenFindMany v =>
      simp only [note]
      split
      · exact .check h t
      · exact .refl h
    | jwtSign payload secret expiresIn =>
      simp only [note]
      split
      · exact ⟨rfl, fun _ => id, fun _ => List.mem_cons_of_mem _, rfl⟩
      · exact .refl h
    | passwordReset v passwordHash => cases hc
    | refreshTokenCreate v tokenHash expiresAt => cases hc
    | _ => exact .refl h

namespace ClosedInv

variable {requests : ι → ResetRequest κ} {u : UserId} {γ : ι → Ph} {x y : Store × Trail κ ι} {t : ι}

omit [DecidableEq ι] in
theorem keep (h : ClosedInv requests u γ x) (hs : y.1.refreshTokens = x.1.refreshTokens)
    (hg : Grows x.2 y.2) : ClosedInv requests u γ y := by
  refine ⟨fun t ht => hg.checked t (h.checked t ht), ?_, fun hr t ht => ?_, ?_⟩
  · rw [hs]
    exact h.row
  · exact hg.issues (h.issues (hg.reset ▸ hr) t ht)
  · rw [hs, hg.reset, hg.sessions]
    exact h.sessions

/-- A handler gets another ghost value. -/
theorem move (h : ClosedInv requests u γ x) {g : Ph} (hc : g ≠ .avant → x.2.checked t = true)
    (hrow : ∀ id, g = .verifie id → ∃ row, x.1.refreshTokens[id]? = some row ∧ row.userId = u)
    (hi : x.2.reset = true → g = .emet → x.2.issues t (requests t) = true) :
    ClosedInv requests u (Function.update γ t g) x := by
  refine ⟨fun v hv => ?_, fun v id hv => ?_, fun hr v hv => ?_, h.sessions⟩
  · by_cases hvt : v = t
    · subst hvt
      rw [Function.update_self] at hv
      exact hc hv
    · rw [Function.update_of_ne hvt] at hv
      exact h.checked v hv
  · by_cases hvt : v = t
    · subst hvt
      rw [Function.update_self] at hv
      exact hrow id hv
    · rw [Function.update_of_ne hvt] at hv
      exact h.row v id hv
  · by_cases hvt : v = t
    · subst hvt
      rw [Function.update_self] at hv
      exact hi hr hv
    · rw [Function.update_of_ne hvt] at hv
      exact h.issues hr v hv

/-- A handler that is not to open a session. -/
theorem drop (h : ClosedInv requests u γ x) : ClosedInv requests u (Function.update γ t .avant) x :=
  h.move (absurd rfl) (by rintro id ⟨⟩) (by rintro - ⟨⟩)

omit [DecidableEq ι] in
theorem revoke (h : ClosedInv requests u γ x) {id : RefreshTokenId} {row : RefreshToken}
    (hr : x.1.refreshTokens[id]? = some row) :
    ClosedInv requests u γ (x.1.revoke (id, row), x.2) := by
  refine ⟨h.checked, fun t j ht => ?_, h.issues, fun hx j row' hj hu hf => ?_⟩
  · obtain ⟨row', hr', hu⟩ := h.row t j ht
    rw [Store.revoke, Table.get_set hr]
    split
    · rename_i hj
      subst hj
      cases hr.symm.trans hr'
      exact ⟨_, rfl, hu⟩
    · exact ⟨row', hr', hu⟩
  · rw [Store.revoke, Table.get_set hr] at hj
    split at hj
    · cases hj
      cases hf
    · exact h.sessions hx j row' hj hu hf

omit [DecidableEq ι] in
/-- A session is opened: one of another user, or one that was issued since the reset. -/
theorem create (h : ClosedInv requests u γ x) {row : RefreshToken}
    (hs : y.1.refreshTokens = x.1.refreshTokens ++ [row])
    (hy : y.2 = x.2 ∧ (row.userId = u → x.2.reset = false) ∨
      y.2 = { x.2 with sessions := x.1.refreshTokens.length :: x.2.sessions }) :
    ClosedInv requests u γ y := by
  have hreset : y.2.reset = x.2.reset := by
    rcases hy with ⟨hy, -⟩ | hy <;> rw [hy]
  have hchecked : y.2.checked = x.2.checked := by
    rcases hy with ⟨hy, -⟩ | hy <;> rw [hy]
  have hissues : ∀ t q, y.2.issues t q = x.2.issues t q := by
    rcases hy with ⟨hy, -⟩ | hy <;> intro t q <;> rw [hy]
    cases q <;> rfl
  refine ⟨fun t ht => hchecked ▸ h.checked t ht, fun t id ht => ?_, fun hr t ht => ?_,
    fun hr i row' hi hu hf => ?_⟩
  · obtain ⟨row', hr', hu⟩ := h.row t id ht
    exact ⟨row', by rw [hs, Table.get_append_of_get hr'], hu⟩
  · rw [hissues]
    exact h.issues (hreset ▸ hr) t ht
  · rw [hs, Table.get_append] at hi
    split at hi
    · rename_i hil
      subst hil
      cases hi
      rcases hy with ⟨-, hn⟩ | hy
      · rw [hreset, hn hu] at hr
        cases hr
      · rw [hy]
        exact List.mem_cons_self
    · have hm := h.sessions (hreset ▸ hr) i row' hi hu hf
      rcases hy with ⟨hy, -⟩ | hy
      · rw [hy]
        exact hm
      · rw [hy]
        exact List.mem_cons_of_mem _ hm

omit [DecidableEq ι] in
/-- A reset of any user commits. -/
theorem revokeAll (h : ClosedInv requests u γ x) {v : UserId}
    (hs : y.1.refreshTokens = x.1.refreshTokens.map fun row =>
      if row.userId = v then { row with revoked := true } else row)
    (hy : y.2 = x.2) : ClosedInv requests u γ y := by
  refine ⟨hy ▸ h.checked, fun t id ht => ?_, hy ▸ h.issues, fun hr i row hi hu hf => ?_⟩
  · obtain ⟨row, hrow, hu⟩ := h.row t id ht
    refine ⟨if row.userId = v then { row with revoked := true } else row, ?_, ?_⟩
    · rw [hs, List.getElem?_map, hrow]
      rfl
    · split <;> exact hu
  · rw [hs, List.getElem?_map] at hi
    obtain ⟨row', hi', rfl⟩ := Option.map_eq_some_iff.mp hi
    rw [hy] at hr ⊢
    by_cases hv : row'.userId = v
    · rw [if_pos hv] at hf
      cases hf
    · rw [if_neg hv] at hu hf
      exact h.sessions hr i row' hi' hu hf

omit [DecidableEq ι] in
/-- The reset commits, and no handler is about to open a session. -/
theorem commit (hγ : ∀ t, γ t = .avant)
    (hs : ∀ (i : RefreshTokenId) (row : RefreshToken), y.1.refreshTokens[i]? = some row →
      row.userId = u → row.revoked = true) : ClosedInv requests u γ y := by
  refine ⟨fun t ht => absurd (hγ t) ht, fun t id ht => ?_, fun _ t ht => ?_, fun _ i row hi hu hf => ?_⟩
  · rw [hγ t] at ht
    cases ht
  · rw [hγ t] at ht
    cases ht
  · rw [hs i row hi hu] at hf
    cases hf

end ClosedInv

/-! ## The handlers -/

section Safe

variable (config : AppConfig) (requests : ι → ResetRequest κ) (u : UserId)

/-- The protocol (module doc): a handler that is about to open a session has not ended. -/
def proto : Proto ((sig κ).tagged ι) ι (Store × Trail κ ι) where
  Gh := Ph
  inv := ClosedInv requests u
  place g n := g ≠ .avant → n ≠ none

/-- The handler `t` keeps the protocol, from the ghost value `g`. -/
def Kept {α : Type} (t : ι) (p : Req κ α) (g : Ph) : Prop :=
  (proto requests u).Safe ((backend κ).recorded (note config requests u)) (Orderly requests u) t
    (p.tag t) (fun _ g => g = .avant) g

variable {requests u} {α : Type}

theorem closed_leaves (t : ι) {γ : ι → Ph} {x : Store × Trail κ ι} (hi : ClosedInv requests u γ x)
    {c : (sig κ).Stmt} (hc : leaves c = true) (r : (sig κ).Resp c) (e : Env) :
    ClosedInv requests u γ (((backend κ).exec c e x.1).2, note config requests u t c r x.1 x.2) :=
  hi.keep (exec_leaves hc e x.1) (note_leaves t hc r x.1 x.2)

variable {config} {t : ι} {g : Ph}

theorem kept_leaves {c : (sig κ).Stmt} {k : (sig κ).Resp c → Req κ α} (hc : leaves c = true)
    (hk : ∀ r, Kept config requests u t (k r) g) : Kept config requests u t (.call c k) g :=
  Proto.safe_call (P := proto requests u) (fun _ => by rintro ⟨⟩)
    (fun _ _ e hi _ => closed_leaves config t hi hc _ e)
    fun _ _ _ _ _ => hk _

theorem kept_now {f : Time → Req κ α} (hf : ∀ now, Kept config requests u t (f now) g) :
    Kept config requests u t ((Prog.left (OumraHajj.await .now)).bind f) g :=
  kept_leaves rfl fun now => hf now

/-- A statement after which the handler gets another ghost value. -/
theorem kept_call {c : (sig κ).Stmt} {k : (sig κ).Resp c → Req κ α}
    (h : ∀ γ (next : ι → Option (ι × (sig κ).Stmt)) (x : Store × Trail κ ι) e,
      ClosedInv requests u γ x → γ t = g → (∀ v, γ v ≠ .avant → next v ≠ none) →
      next t = some (t, c) → Orderly requests u next x t e →
      ∃ g', ClosedInv requests u (Function.update γ t g')
          (((backend κ).exec c e x.1).2,
            note config requests u t c ((backend κ).exec c e x.1).1 x.1 x.2) ∧
        Kept config requests u t (k ((backend κ).exec c e x.1).1) g') :
    Kept config requests u t (.call c k) g :=
  ⟨fun _ => by rintro ⟨⟩, h⟩

theorem kept_void {p : Req κ α} (h : Kept config requests u t p g) :
    Kept config requests u t p.void g := by
  have hv : p.void.tag t = (p.tag t).void := Prog.tag_bind t p _
  unfold Kept
  rw [hv]
  refine Proto.safe_void (Proto.safe_mono (fun r g hg => ?_) h)
  cases r <;> exact hg

/-- The session of the user of `user` is opened. -/
theorem issueTokens_kept {user : Identity} (hg : g = if user.id = u then .emet else .avant) :
    Kept config requests u t (AuthService.issueTokens config user) g := by
  refine kept_leaves rfl fun accessToken => kept_leaves rfl fun refreshToken =>
    kept_leaves rfl fun tokenHash => kept_call fun γ next x e hi ht _ _ _ => ⟨.avant, ?_, ?_⟩
  · have hi' : ClosedInv requests u (Function.update γ t .avant) x := hi.drop
    rcases refreshTokenCreate_exec κ x.1 user.id tokenHash ((κ.decode refreshToken).exp * 1000) e
      with hx | hx
    · rw [hx]
      exact hi'.keep rfl (.refl x.2)
    · rw [hx]
      refine hi'.create rfl ?_
      by_cases hn : user.id = u ∧ x.2.issues t (requests t) = true
      · exact .inr (if_pos hn)
      · refine .inl ⟨if_neg hn, fun hu => ?_⟩
        rw [Bool.eq_false_iff]
        intro hr
        exact hn ⟨hu, hi.issues hr t (by rw [ht, hg, if_pos hu])⟩
  · rcases refreshTokenCreate_exec κ x.1 user.id tokenHash ((κ.decode refreshToken).exp * 1000) e
      with hx | hx <;> rw [hx] <;> rfl

/-- A check of the user `v`, which is noted if `v` is `u`. -/
theorem checked_move {γ : ι → Ph} {x y : Store × Trail κ ι} {v : UserId}
    (h : ClosedInv requests u γ y)
    (hy : y.2 = if v = u then { x.2 with checked := Function.update x.2.checked t true } else x.2)
    (hq : ∃ email pw, requests t = .validateAgencyOrAdmin email pw) :
    ClosedInv requests u (Function.update γ t (if v = u then .emet else .avant)) y := by
  obtain ⟨email, pw, hq⟩ := hq
  by_cases hv : v = u
  · rw [if_pos hv] at hy ⊢
    have hc : y.2.checked t = true := by
      rw [hy]
      exact Function.update_self ..
    refine h.move (fun _ => hc) (by rintro id ⟨⟩) fun _ _ => ?_
    rw [hq]
    exact hc
  · rw [if_neg hv]
    exact h.drop

theorem login_kept {email pw : String} (hq : requests t = .validateAgencyOrAdmin email pw) :
    Kept config requests u t (AuthService.validateAgencyOrAdmin config email pw) .avant := by
  refine kept_call fun γ next x e hi ht _ _ _ => ?_
  have hkeep := fun r => closed_leaves config t hi
    (c := .inl (.userFindByEmail (κ.toLowerCase email))) rfl r e
  rcases hf : x.1.app.users.findFirst (·.email = some (κ.toLowerCase email)) with - | ⟨v, user⟩
  · have hx : ((backend κ).exec (.inl (.userFindByEmail (κ.toLowerCase email))) e x.1).1 = none := hf
    rw [hx]
    exact ⟨.avant, (hkeep none).drop, rfl⟩
  · have hx : ((backend κ).exec (.inl (.userFindByEmail (κ.toLowerCase email))) e x.1).1 =
      some (v, user) := hf
    rw [hx]
    simp only [Prog.left, Prog.ret_bind]
    split
    · exact ⟨.avant, (hkeep (some (v, user))).drop, rfl⟩
    split
    · exact ⟨.avant, (hkeep (some (v, user))).drop, rfl⟩
    split
    · exact ⟨.avant, (hkeep (some (v, user))).drop, rfl⟩
    exact ⟨_, checked_move (hkeep (some (v, user))) rfl ⟨email, pw, hq⟩, issueTokens_kept rfl⟩

theorem findMatching_kept {v : UserId} {raw : κ.Token} {f : Option RefreshTokenId → Req κ α}
    (hnone : Kept config requests u t (f none) .avant)
    (hsome : ∀ id, Kept config requests u t (f (some id))
      (if v = u then .verifie id else .avant)) :
    Kept config requests u t ((AuthService.findMatchingRefreshToken v raw).bind f) .avant := by
  refine kept_call fun γ next x e hi ht _ _ _ => ?_
  have hkeep := fun r => closed_leaves config t hi
    (c := .inr (.refreshTokenFindMany v)) rfl r e
  obtain ⟨-, ⟨hr, -⟩ | ⟨y, hy, hr, -⟩⟩ :=
    findMatching_runs (s := x.1) (u := v) (t := raw) ⟨e, rfl, rfl⟩
  · refine ⟨.avant, (hkeep _).drop, ?_⟩
    rw [← Except.ok.inj hr] at hnone
    exact hnone
  · refine ⟨if v = u then .verifie y.1 else .avant, ?_, ?_⟩
    · by_cases hv : v = u
      · obtain ⟨hrow, hu, -⟩ := mem_liveOf.mp hy
        rw [if_pos hv]
        refine (hkeep _).move (fun _ => ?_) ?_ (by rintro - ⟨⟩)
        · simp only [note, if_pos hv, Function.update_self]
        · rintro id ⟨⟩
          exact ⟨y.2, hrow, hu.trans hv⟩
      · rw [if_neg hv]
        exact (hkeep _).drop
    · have hs := hsome y.1
      rw [← Except.ok.inj hr] at hs
      exact hs

/-- A rotation revokes the session that it has found, and opens the new one. -/
theorem update_kept (id : RefreshTokenId) (user : UserShape) :
    Kept config requests u t ((await (.refreshTokenUpdate id)).bind fun a => match a with
        | none => .fail (.prisma "P2025")
        | some _ => AuthService.issueTokens config (toIdentity user))
      (if user.id = u then .verifie id else .avant) := by
  refine kept_call fun γ next x e hi ht _ hn hok => ?_
  rcases refreshTokenUpdate_exec κ x.1 id e with hx | ⟨row, hr, hx⟩
  · rw [hx]
    exact ⟨.avant, (hi.drop (t := t)).keep rfl (.refl x.2), rfl⟩
  · rw [hx]
    refine ⟨_, ?_, issueTokens_kept rfl⟩
    have hi₁ : ClosedInv requests u γ ((x.1.tick e).revoke (id, row), x.2) :=
      ClosedInv.revoke (x := (x.1.tick e, x.2)) (hi.keep rfl (.refl x.2)) hr
    by_cases hu : user.id = u
    · have hu' : (toIdentity user).id = u := hu
      rw [if_pos hu] at ht
      rw [if_pos hu']
      have hc : γ t ≠ .avant := by
        rw [ht]
        rintro ⟨⟩
      obtain ⟨row', hr', hrow'⟩ := hi.row t id ht
      have hany : (x.1.refreshTokens[id]?).any (·.userId = u) = true := by
        rw [hr']
        exact decide_eq_true hrow'
      exact hi₁.move (fun _ => hi.checked t hc) (by rintro id ⟨⟩) fun hreset _ =>
        (hok _ hn).2 id rfl hany hreset
    · rw [if_neg (show (toIdentity user).id ≠ u from hu)]
      exact hi₁.drop

theorem findByIdOrFail_kept {v : UserId} {f : UserShape → Req κ α}
    (hf : ∀ user, user.id = v →
      Kept config requests u t (f user) g ∨ Kept config requests u t (f user) .avant) :
    Kept config requests u t ((Prog.left (UsersService.findByIdOrFail v)).bind f) g := by
  refine kept_call fun γ next x e hi ht _ _ _ => ?_
  have hkeep := fun r => closed_leaves config t hi
    (c := .inl (.userFindUnique v)) rfl r e
  rcases hv : x.1.app.users[v]? with - | user
  · have hx : ((backend κ).exec (.inl (.userFindUnique v)) e x.1).1 = none := hv
    rw [hx]
    exact ⟨.avant, (hkeep none).drop, rfl⟩
  · have hx : ((backend κ).exec (.inl (.userFindUnique v)) e x.1).1 = some user := hv
    rw [hx]
    rcases hf (toUserShape v user) rfl with h | h
    · refine ⟨g, ?_, h⟩
      rw [← ht, Function.update_eq_self]
      exact hkeep (some user)
    · exact ⟨.avant, (hkeep (some user)).drop, h⟩

theorem refresh_kept (raw : κ.Token) :
    Kept config requests u t (AuthService.refresh config raw) .avant := by
  refine kept_leaves rfl fun verified => ?_
  cases verified with
  | none => exact rfl
  | some payload =>
    refine findMatching_kept rfl fun stored => findByIdOrFail_kept fun user hu => ?_
    rw [← hu]
    by_cases ha : user.isActive = false
    · rw [if_pos ha]
      exact .inr rfl
    · rw [if_neg ha]
      exact .inl (update_kept stored user)

theorem resetPassword_kept (token newPassword : String) :
    Kept config requests u t (PasswordResetService.resetPassword token newPassword) .avant := by
  refine kept_leaves rfl fun found => ?_
  rcases found with - | ⟨record, user⟩
  · exact rfl
  refine kept_now fun now => ?_
  split
  · exact rfl
  split
  · exact rfl
  refine kept_leaves rfl fun passwordHash => kept_call fun γ next x e hi ht hp hn hok => ?_
  rcases passwordReset_exec κ x.1 record.userId passwordHash e with hx | ⟨owner, hu, hx⟩
  · rw [hx]
    exact ⟨.avant, (hi.drop (t := t)).keep rfl (.refl x.2), rfl⟩
  · rw [hx]
    refine ⟨.avant, ?_, rfl⟩
    by_cases hv : record.userId = u
    · have hγ : ∀ v, γ v = .avant := by
        intro v
        by_contra hne
        have hend := (hok _ hn).1 (decide_eq_true hv) v (hi.checked v hne)
        exact hp v hne hend
      refine ClosedInv.drop (ClosedInv.commit hγ fun i row hrow hrowu => ?_)
      rw [List.getElem?_map] at hrow
      obtain ⟨row', -, rfl⟩ := Option.map_eq_some_iff.mp hrow
      by_cases hv' : row'.userId = record.userId
      · rw [if_pos hv']
      · rw [if_neg hv'] at hrowu
        exact absurd (hrowu.trans hv.symm) hv'
    · exact (hi.revokeAll rfl (if_neg hv)).drop

theorem handler_kept : Kept config requests u t (handler config (requests t)) .avant := by
  rcases hq : requests t with ⟨token, pw⟩ | raw | ⟨email, pw⟩
  · exact resetPassword_kept token pw
  · exact kept_void (refresh_kept raw)
  · exact kept_void (login_kept hq)

end Safe

/-- The owner, who has a session, asks for a reset a minute later. -/
private def oublie : Store :=
  { Store.connecte with
    clock := 60000
    passwordResetTokens := [some { userId := 0, tokenHash := "lien", expiresAt := 3600000 }] }

/-- A reset, a login with the new password and a rotation. -/
private def trois : Fin 3 → ResetRequest Crypto.exemple
  | 0 => .resetPassword "lien" "nouveau"
  | 1 => .validateAgencyOrAdmin "contact@agence.gn" "nouveau"
  | 2 => .refresh (jeton 0)

/-- The rotation and the login come after the reset. -/
private def apres : Pool ((sig Crypto.exemple).tagged (Fin 3)) (Fin 3)
    (Store × Trail Crypto.exemple (Fin 3)) Erreur Unit :=
  Pool.run ((backend _).recorded (note .exemple trois 0)) (tours [2, 0, 0, 0, 0, 2, 1, 1, 1, 1, 1])
    (poolOf .exemple trois oublie)

/-- The rotation has found its session when the reset commits. -/
private def avant : Pool ((sig Crypto.exemple).tagged (Fin 3)) (Fin 3)
    (Store × Trail Crypto.exemple (Fin 3)) Erreur Unit :=
  Pool.run ((backend _).recorded (note .exemple trois 0))
    (tours [2, 2, 0, 0, 0, 0, 1, 1, 1, 1, 1, 2, 2, 2, 2, 2, 2]) (poolOf .exemple trois oublie)

end Reset

end OumraHajj.Auth
