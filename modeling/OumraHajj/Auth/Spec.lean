import OumraHajj.Async.Sequential
import OumraHajj.Auth.Service

/-!
# Authentication: what a handler does

One specification for each handler. A refusal leaves the sessions and the accounts (`Quiet`), and a
success opens one session (`Opened`), after the session that it consumes is revoked. Every success
has read the account, which is active.
-/

namespace OumraHajj.Auth

open Async

/-- The sessions are as before, and so are the accounts that existed. -/
structure Quiet (s s' : Store) : Prop where
  sessions : s'.refreshTokens = s.refreshTokens
  clock : s.clock ≤ s'.clock
  users : ∀ (u : UserId) (user : User), s.app.users[u]? = some user → s'.app.users[u]? = some user

namespace Quiet

theorem refl (s : Store) : Quiet s s := ⟨rfl, Int.le_refl _, fun _ _ h => h⟩

theorem trans {s₁ s₂ s₃ : Store} (h : Quiet s₁ s₂) (h' : Quiet s₂ s₃) : Quiet s₁ s₃ :=
  ⟨h'.sessions.trans h.sessions, Int.le_trans h.clock h'.clock,
    fun u user hu => h'.users u user (h.users u user hu)⟩

theorem tick (e : Env) (s : Store) : Quiet s (s.tick e) :=
  ⟨rfl, Int.le_max_left _ _, fun _ _ h => h⟩

end Quiet

/-- The account of a contact. -/
def accountOf (κ : Crypto) (s : Store) : OtpContact → Option UserId
  | .phone phone => (s.app.users.findFirst (·.phone = some phone)).map Prod.fst
  | .email email => (s.app.users.findFirst (·.email = some (κ.toLowerCase email))).map Prod.fst

section Spec

variable {κ : Crypto} {config : AppConfig} {s s' : Store}

/-- A new session of the user, which the tokens `tk` give. -/
structure Opened (config : AppConfig) (s : Store) (u : UserId) (tk : AuthTokens κ) (s' : Store) :
    Prop where
  sessions : ∃ c salt, c.sub = u ∧ tk.refreshToken = κ.sign config.refreshSecret c ∧
    s'.refreshTokens = s.refreshTokens ++
      [{ userId := u, tokenHash := κ.hash salt (κ.text tk.refreshToken), expiresAt := c.exp * 1000 }]
  clock : s.clock ≤ s'.clock
  users : ∀ (v : UserId) (user : User), s.app.users[v]? = some user → s'.app.users[v]? = some user

/-- The store from which a session is opened, at an earlier time. -/
theorem Opened.before {s₁ : Store} {u : UserId} {tk : AuthTokens κ} (hq : Quiet s s₁)
    (h : Opened config s₁ u tk s') : Opened config s u tk s' where
  sessions := by
    obtain ⟨c, salt, hc, ht, hs⟩ := h.sessions
    exact ⟨c, salt, hc, ht, hq.sessions ▸ hs⟩
  clock := Int.le_trans hq.clock h.clock
  users v user hv := h.users v user (hq.users v user hv)

/-- What `verifyAsync` answers at the time of the clock. -/
def verified (κ : Crypto) (s : Store) (t : κ.Token) (secret : String) (aud : Option String) :
    Option Claims :=
  (κ.verify secret t).filter fun c =>
    decide (secondes s.clock < c.exp) && (aud.isNone || c.aud = aud)

theorem verified_eq_some {t : κ.Token} {secret : String} {aud : Option String} {c : Claims} :
    verified κ s t secret aud = some c ↔
      κ.verify secret t = some c ∧ secondes s.clock < c.exp ∧ (aud = none ∨ c.aud = aud) := by
  rw [verified, Option.filter_eq_some_iff, Bool.and_eq_true, decide_eq_true_eq, Bool.or_eq_true,
    Option.isNone_iff_eq_none, decide_eq_true_eq]

/-! ## The statements -/

section Statements

variable {α : Type} {r : Except Erreur α}

theorem runs_now {f : Time → Req κ α} :
    (backend κ).Runs (Prog.bind (Prog.left (OumraHajj.await .now)) f) s r s' ↔
      ∃ e, (backend κ).Runs (f (s.tick e).clock) (s.tick e) r s' := Iff.rfl

theorem runs_bcryptHash {data : String} {f : String → Req κ α} :
    (backend κ).Runs (Prog.bind (Prog.left (OumraHajj.await (.bcryptHash data))) f) s r s' ↔
      ∃ e : Env, (backend κ).Runs (f (κ.hash e.salt data)) (s.tick e) r s' := Iff.rfl

theorem runs_jwtSign {payload : JwtPayload} {secret : String} {expiresIn : Int}
    {f : κ.Token → Req κ α} :
    (backend κ).Runs (Prog.bind (await (.jwtSign payload secret expiresIn)) f) s r s' ↔
      ∃ e, (backend κ).Runs
        (f (κ.sign secret { payload with exp := secondes (s.tick e).clock + expiresIn }))
        (s.tick e) r s' := Iff.rfl

theorem runs_jwtVerify {t : κ.Token} {secret : String} {aud : Option String}
    {f : Option Claims → Req κ α} :
    (backend κ).Runs (Prog.bind (await (.jwtVerify t secret aud)) f) s r s' ↔
      ∃ e, (backend κ).Runs (f (verified κ (s.tick e) t secret aud)) (s.tick e) r s' := Iff.rfl

theorem runs_findById {u : UserId} {f : Option UserShape → Req κ α} :
    (backend κ).Runs (Prog.bind (Prog.left (UsersService.findById u)) f) s r s' ↔
      ∃ e, (backend κ).Runs (f ((s.app.users[u]?).map (toUserShape u))) (s.tick e) r s' := Iff.rfl

end Statements

/-- The session is revoked. -/
def Store.revoke (s : Store) (x : RefreshTokenId × RefreshToken) : Store :=
  { s with refreshTokens := s.refreshTokens.set x.1 { x.2 with revoked := true } }

theorem Quiet.revoke {s s' : Store} (h : Quiet s s') (x : RefreshTokenId × RefreshToken) :
    Quiet (s.revoke x) (s'.revoke x) where
  sessions := congrArg (fun t : Table RefreshToken => t.set x.1 { x.2 with revoked := true })
    h.sessions
  clock := h.clock
  users := h.users

theorem exec_refreshTokenCreate {u : UserId} {user : User} (hu : s.app.users[u]? = some user)
    (tokenHash : String) (expiresAt : Time) (e : Env) :
    (backend κ).exec (.inr (.refreshTokenCreate u tokenHash expiresAt)) e s =
      (some (), { s.tick e with
        refreshTokens := s.refreshTokens ++ [{ userId := u, tokenHash, expiresAt }] }) := by
  have hu' : (s.tick e).app.users[u]? = some user := hu
  simp only [backend, exec, hu']
  rfl

theorem exec_refreshTokenUpdate {id : RefreshTokenId} {row : RefreshToken}
    (hr : s.refreshTokens[id]? = some row) (e : Env) :
    (backend κ).exec (.inr (.refreshTokenUpdate id)) e s =
      (some (), { s.tick e with
        refreshTokens := s.refreshTokens.set id { row with revoked := true } }) := by
  have hr' : (s.tick e).refreshTokens[id]? = some row := hr
  simp only [backend, exec, hr']
  rfl

theorem refreshTokenUpdate_exec (κ : Crypto) (s : Store) (id : RefreshTokenId) (e : Env) :
    (backend κ).exec (.inr (.refreshTokenUpdate id)) e s = (none, s.tick e) ∨
      ∃ row, s.refreshTokens[id]? = some row ∧
        (backend κ).exec (.inr (.refreshTokenUpdate id)) e s = (some (), (s.tick e).revoke (id, row)) := by
  rcases hr : s.refreshTokens[id]? with - | row
  · refine .inl ?_
    have hr' : (s.tick e).refreshTokens[id]? = none := hr
    simp only [backend, exec, hr']
    rfl
  · exact .inr ⟨row, rfl, exec_refreshTokenUpdate hr e⟩

theorem refreshTokenCreate_exec (κ : Crypto) (s : Store) (u : UserId) (tokenHash : String)
    (expiresAt : Time) (e : Env) :
    (backend κ).exec (.inr (.refreshTokenCreate u tokenHash expiresAt)) e s = (none, s.tick e) ∨
      (backend κ).exec (.inr (.refreshTokenCreate u tokenHash expiresAt)) e s =
        (some (), { s.tick e with
          refreshTokens := s.refreshTokens ++ [{ userId := u, tokenHash, expiresAt }] }) := by
  rcases hu : s.app.users[u]? with - | user
  · refine .inl ?_
    have hu' : (s.tick e).app.users[u]? = none := hu
    simp only [backend, exec, hu']
    rfl
  · exact .inr (exec_refreshTokenCreate hu tokenHash expiresAt e)

/-- The identifier is remembered afterwards; it is new exactly if it was not, but for what has
expired. -/
theorem exec_consommer (κ : Crypto) (s : Store) (jti : String) (exp : Int) (e : Env) :
    (∃ x ∈ ((backend κ).exec (.inr (.consommer jti exp)) e s).2.consommes, x.1 = jti) ∧
      (((backend κ).exec (.inr (.consommer jti exp)) e s).1 = true ↔
        ∀ x ∈ s.consommes, x.1 = jti → x.2 < (s.tick e).clock) := by
  have hany : (s.consommes.filter fun x => !decide (x.2 < (s.tick e).clock)).any (·.1 = jti) =
      false ↔ ∀ x ∈ s.consommes, x.1 = jti → x.2 < (s.tick e).clock := by
    simp only [List.any_eq_false, List.mem_filter, Bool.not_eq_true', decide_eq_false_iff_not,
      decide_eq_true_eq, and_imp]
    exact ⟨fun h x hx hj => by_contra fun hn => h x hx hn hj, fun h x hx hn hj => hn (h x hx hj)⟩
  rw [← hany]
  simp only [backend, exec]
  cases hg : (s.consommes.filter fun x => !decide (x.2 < (s.tick e).clock)).any (·.1 = jti) with
  | true =>
    have hg' : ((s.tick e).consommes.filter fun x => !decide (x.2 < (s.tick e).clock)).any
        (·.1 = jti) = true := hg
    simp only [hg']
    obtain ⟨x, hx, hj⟩ := List.any_eq_true.mp hg'
    exact ⟨⟨x, hx, by simpa using hj⟩, iff_of_false (fun h => by cases h) (fun h => by cases h)⟩
  | false =>
    have hg' : ((s.tick e).consommes.filter fun x => !decide (x.2 < (s.tick e).clock)).any
        (·.1 = jti) = false := hg
    simp only [hg']
    exact ⟨⟨(jti, exp * 1000), List.mem_append_right _ List.mem_cons_self, rfl⟩,
      iff_of_true rfl trivial⟩

/-- The statement is none of those that write sessions. -/
def leaves : (sig κ).Stmt → Bool
  | .inr (.refreshTokenUpdate _) => false
  | .inr (.refreshTokenCreate _ _ _) => false
  | .inr (.passwordReset _ _) => false
  | _ => true

theorem exec_leaves {c : (sig κ).Stmt} (hc : leaves c = true) (e : Env) (s : Store) :
    ((backend κ).exec c e s).2.refreshTokens = s.refreshTokens := by
  rcases c with c | c
  · rfl
  cases c with
  | refreshTokenUpdate id => cases hc
  | refreshTokenCreate u tokenHash expiresAt => cases hc
  | passwordReset u passwordHash => cases hc
  | jwtSign payload secret expiresIn => rfl
  | jwtVerify t secret aud => rfl
  | randomInt max => rfl
  | randomBytes size => rfl
  | otpDeleteMany contact => rfl
  | otpCreate contact codeHash expiresAt => rfl
  | otpSend contact code => rfl
  | otpFindFirst contact => rfl
  | otpUpdate id =>
    simp only [backend, exec]
    split <;> rfl
  | otpDelete id =>
    simp only [backend, exec]
    split <;> rfl
  | refreshTokenFindMany u => rfl
  | passwordResetTokenFindUnique tokenHash => rfl
  | passwordResetTokenReplace u tokenHash expiresAt =>
    simp only [backend, exec]
    split <;> rfl
  | mailerSend address resetUrl ttlMinutes => rfl
  | consommer jti exp =>
    simp only [backend, exec]
    split <;> rfl

/-! ## The services -/

theorem issueTokens_runs {user : Identity} {row : User} {r : Except Erreur (AuthTokens κ)}
    (hu : s.app.users[user.id]? = some row)
    (h : (backend κ).Runs (AuthService.issueTokens config user) s r s') :
    ∃ tk, r = .ok tk ∧ Opened config s user.id tk s' := by
  obtain ⟨e₁, h⟩ := runs_jwtSign.mp h
  obtain ⟨e₂, h⟩ := runs_jwtSign.mp h
  obtain ⟨e₃, h⟩ := runs_bcryptHash.mp h
  obtain ⟨e₄, h⟩ := h
  have hu' : (((s.tick e₁).tick e₂).tick e₃).app.users[user.id]? = some row := hu
  rw [exec_refreshTokenCreate hu'] at h
  obtain ⟨rfl, rfl⟩ := h
  refine ⟨_, rfl, ⟨_, e₃.salt, rfl, rfl, ?_⟩, ?_, fun _ _ hv => hv⟩
  · exact congrArg (fun x : Int => s.refreshTokens ++ [RefreshToken.mk user.id _ (x * 1000) false])
      (congrArg Claims.exp (κ.decode_sign _ _))
  · exact ((((Quiet.tick e₁ s).trans (.tick e₂ _)).trans (.tick e₃ _)).trans (.tick e₄ _)).clock

theorem live_mono {now now' : Time} (hn : now ≤ now') {row : RefreshToken}
    (h : row.live now' = true) : row.live now = true := by
  unfold RefreshToken.live at h ⊢
  simp only [Bool.and_eq_true, decide_eq_true_eq] at h ⊢
  exact ⟨h.1, lt_of_le_of_lt hn h.2⟩

theorem mem_liveOf {u : UserId} {x : RefreshTokenId × RefreshToken} : x ∈ s.liveOf u ↔
    s.refreshTokens[x.1]? = some x.2 ∧ x.2.userId = u ∧ x.2.live s.clock = true := by
  rw [Store.liveOf, Table.findMany, List.mem_filter, Table.mem_withIds, Bool.and_eq_true,
    decide_eq_true_eq]

theorem secondes_mono {now now' : Time} (h : now ≤ now') : secondes now ≤ secondes now' := by
  unfold secondes
  rw [Int.fdiv_eq_ediv_of_nonneg _ (by decide), Int.fdiv_eq_ediv_of_nonneg _ (by decide)]
  exact Int.ediv_le_ediv (by decide) h

/-- The first of the live sessions whose hash matches, in the order in which they are read. -/
theorem findMatching_runs {u : UserId} {t : κ.Token} {r : Except Erreur (Option RefreshTokenId)}
    (h : (backend κ).Runs (AuthService.findMatchingRefreshToken u t) s r s') :
    Quiet s s' ∧ ((r = .ok none ∧
        ∀ x ∈ s'.liveOf u, κ.compare (κ.text t) x.2.tokenHash = false) ∨
      ∃ x ∈ s'.liveOf u, r = .ok (some x.1) ∧ κ.compare (κ.text t) x.2.tokenHash = true) := by
  obtain ⟨e, rfl, rfl⟩ := h
  refine ⟨.tick e s, ?_⟩
  rcases hf : ((((s.tick e).liveOf u).insertionSort fun x y => e.ordre x.1 ≤ e.ordre y.1).find?
      fun x => κ.compare (κ.text t) x.2.tokenHash) with - | x
  · refine .inl ⟨congrArg (fun o => Except.ok (Option.map Prod.fst o)) hf, fun x hx => ?_⟩
    have hx' := List.find?_eq_none.mp hf x ((List.mem_insertionSort _).mpr hx)
    simpa using hx'
  · refine .inr ⟨x, (List.mem_insertionSort _).mp (List.mem_of_find?_eq_some hf),
      congrArg (fun o => Except.ok (Option.map Prod.fst o)) hf, ?_⟩
    simpa using List.find?_some hf

theorem findByIdOrFail_runs {u : UserId} {r : Except Erreur UserShape}
    (h : (backend κ).Runs (Prog.left (UsersService.findByIdOrFail u)) s r s') :
    Quiet s s' ∧ ((∃ x, r = .error x) ∨
      ∃ user, s.app.users[u]? = some user ∧ r = .ok (toUserShape u user)) := by
  obtain ⟨e, h⟩ := h
  rcases hu : s.app.users[u]? with - | user
  · have hx : ((backend κ).exec (.inl (.userFindUnique u)) e s).1 = none := hu
    rw [hx] at h
    exact ⟨h.2 ▸ .tick e s, .inl ⟨_, h.1⟩⟩
  · have hx : ((backend κ).exec (.inl (.userFindUnique u)) e s).1 = some user := hu
    rw [hx] at h
    exact ⟨h.2 ▸ .tick e s, .inr ⟨user, rfl, h.1⟩⟩

/-! ## The handlers -/

/-- A session of an active account is exchanged for a new one. -/
theorem exchange_runs {u : UserId} {user : User} {id : RefreshTokenId} {row : RefreshToken}
    {r : Except Erreur (AuthTokens κ)} (hu : s.app.users[u]? = some user)
    (hrow : s.refreshTokens[id]? = some row)
    (h : (backend κ).Runs (do
      match ← await (.refreshTokenUpdate id) with
      | none => .fail (.prisma "P2025")
      | some _ => AuthService.issueTokens config (toIdentity (toUserShape u user))) s r s') :
    ∃ tk, r = .ok tk ∧ Opened config (s.revoke (id, row)) u tk s' := by
  obtain ⟨e, h⟩ := h
  rw [exec_refreshTokenUpdate hrow] at h
  have hu' : ((s.tick e).revoke (id, row)).app.users[u]? = some user := hu
  obtain ⟨tk, rfl, ho⟩ := issueTokens_runs hu' h
  exact ⟨tk, rfl, ho.before ((Quiet.tick e s).revoke (id, row))⟩

theorem refresh_runs {t : κ.Token} {r : Except Erreur (AuthTokens κ)}
    (h : (backend κ).Runs (AuthService.refresh config t) s r s') :
    (∃ x, r = .error x ∧ Quiet s s') ∨
    ∃ c user x s₁ tk, κ.verify config.refreshSecret t = some c ∧ secondes s.clock < c.exp ∧
      Quiet s s₁ ∧ s₁.app.users[c.sub]? = some user ∧ user.isActive = true ∧
      x ∈ s₁.liveOf c.sub ∧ r = .ok tk ∧ Opened config (s₁.revoke x) c.sub tk s' := by
  obtain ⟨e₁, h⟩ := runs_jwtVerify.mp h
  rcases hv : verified κ (s.tick e₁) t config.refreshSecret none with - | c
  · rw [hv] at h
    exact .inl ⟨_, h.1, h.2 ▸ .tick e₁ s⟩
  rw [hv] at h
  obtain ⟨hc, hexp', -⟩ := verified_eq_some.mp hv
  have hexp : secondes s.clock < c.exp :=
    lt_of_le_of_lt (secondes_mono (Quiet.tick e₁ s).clock) hexp'
  rcases (Backend.runs_bind (p := AuthService.findMatchingRefreshToken c.sub t)).mp h with
    ⟨found, s₂, hf, h⟩ | ⟨x, hf, rfl⟩
  swap
  · obtain ⟨-, ⟨hr, -⟩ | ⟨x, hx, hr, -⟩⟩ := findMatching_runs hf <;> cases hr
  obtain ⟨hq, ⟨hr, -⟩ | ⟨x, hx, hr, -⟩⟩ := findMatching_runs hf
  · cases hr
    exact .inl ⟨_, h.1, h.2 ▸ (Quiet.tick e₁ s).trans hq⟩
  cases hr
  have hq₂ : Quiet s s₂ := (Quiet.tick e₁ s).trans hq
  rcases (Backend.runs_bind (p := Prog.left (UsersService.findByIdOrFail c.sub))).mp h with
    ⟨shape, s₃, hf', h⟩ | ⟨y, hf', rfl⟩
  swap
  · exact .inl ⟨_, rfl, hq₂.trans (findByIdOrFail_runs hf').1⟩
  obtain ⟨hq', ⟨y, hy⟩ | ⟨user, hu, hr⟩⟩ := findByIdOrFail_runs hf'
  · cases hy
  cases hr
  by_cases ha : user.isActive = false
  · rw [if_pos (show (toUserShape c.sub user).isActive = false from ha)] at h
    exact .inl ⟨_, h.1, h.2 ▸ hq₂.trans hq'⟩
  rw [if_neg (show ¬ (toUserShape c.sub user).isActive = false from ha)] at h
  have hrow : s₃.refreshTokens[x.1]? = some x.2 := by
    rw [hq'.sessions]
    exact (mem_liveOf.mp hx).1
  obtain ⟨tk, hr, ho⟩ := exchange_runs (hq'.users _ _ hu) hrow h
  exact .inr ⟨c, user, x, s₂, tk, hc, hexp, hq₂, hu, by simpa using ha, hx, hr,
    ho.before (hq'.revoke x)⟩

theorem logout_runs {u : UserId} {t : κ.Token} {r : Except Erreur Unit}
    (h : (backend κ).Runs (AuthService.logout u t) s r s') :
    r = .ok () ∧ ∃ s₁, Quiet s s₁ ∧
      ((Quiet s₁ s' ∧ ∀ x ∈ s₁.liveOf u, κ.compare (κ.text t) x.2.tokenHash = false) ∨
        ∃ x ∈ s₁.liveOf u, κ.compare (κ.text t) x.2.tokenHash = true ∧ Quiet (s₁.revoke x) s') := by
  rcases (Backend.runs_bind (p := AuthService.findMatchingRefreshToken u t)).mp h with
    ⟨found, s₁, hf, h⟩ | ⟨y, hf, rfl⟩
  · obtain ⟨hq, ⟨hr, hn⟩ | ⟨x, hx, hr, hc⟩⟩ := findMatching_runs hf
    · cases hr
      exact ⟨h.1, s₁, hq, .inl ⟨h.2 ▸ .refl s₁, hn⟩⟩
    · cases hr
      obtain ⟨e, h⟩ := h
      rw [exec_refreshTokenUpdate (mem_liveOf.mp hx).1] at h
      exact ⟨h.1, s₁, hq, .inr ⟨x, hx, hc, h.2 ▸ (Quiet.tick e s₁).revoke x⟩⟩
  · obtain ⟨-, ⟨hr, -⟩ | ⟨x, hx, hr, -⟩⟩ := findMatching_runs hf <;> cases hr

/-- What a login says of the account. -/
theorem validate_runs {email password : String} {r : Except Erreur (AuthTokens κ)}
    (h : (backend κ).Runs (AuthService.validateAgencyOrAdmin config email password) s r s') :
    (∃ x, r = .error x ∧ Quiet s s') ∨
    ∃ u user tk, accountOf κ s (.email email) = some u ∧ s.app.users[u]? = some user ∧
      user.isActive = true ∧ r = .ok tk ∧ Opened config s u tk s' := by
  obtain ⟨e, h⟩ := h
  rcases hf : s.app.users.findFirst (·.email = some (κ.toLowerCase email)) with - | ⟨u, user⟩
  · have hx : ((backend κ).exec (.inl (.userFindByEmail (κ.toLowerCase email))) e s).1 = none := hf
    rw [hx] at h
    exact .inl ⟨_, h.1, h.2 ▸ .tick e s⟩
  · have hx : ((backend κ).exec (.inl (.userFindByEmail (κ.toLowerCase email))) e s).1 =
      some (u, user) := hf
    rw [hx] at h
    have hu : (s.tick e).app.users[u]? = some user := (Table.findFirst_some hf).1
    have hacc : accountOf κ s (.email email) = some u := by rw [accountOf, hf]; rfl
    simp only [Prog.left, Prog.ret_bind] at h
    split at h
    · exact .inl ⟨_, h.1, h.2 ▸ .tick e s⟩
    split at h
    · exact .inl ⟨_, h.1, h.2 ▸ .tick e s⟩
    split at h
    · exact .inl ⟨_, h.1, h.2 ▸ .tick e s⟩
    rename_i ha
    obtain ⟨tk, rfl, ho⟩ := issueTokens_runs (s := s.tick e) hu h
    exact .inr ⟨u, user, tk, hacc, hu, by simpa using ha, rfl, ho.before (.tick e s)⟩

/-- What a service answers of the first account with `p`. -/
theorem findFirst_shape (p : User → Bool) (s : Store) :
    ((s.app.users.findFirst p).map (fun x => toUserShape x.1 x.2) = none ∧
      (s.app.users.findFirst p).map Prod.fst = none) ∨
    ∃ u user, (s.app.users.findFirst p).map (fun x => toUserShape x.1 x.2) =
        some (toUserShape u user) ∧
      (s.app.users.findFirst p).map Prod.fst = some u ∧ s.app.users[u]? = some user := by
  rcases hf : s.app.users.findFirst p with - | ⟨u, user⟩
  · exact .inl ⟨rfl, rfl⟩
  · exact .inr ⟨u, user, rfl, rfl, (Table.findFirst_some hf).1⟩

/-- The account that a contact finds. -/
theorem findByContact_runs {contact : OtpContact} {r : Except Erreur (Option UserShape)}
    (h : (backend κ).Runs (AuthService.findByContact contact) s r s') :
    Quiet s s' ∧ ((r = .ok none ∧ accountOf κ s contact = none) ∨
      ∃ u user, r = .ok (some (toUserShape u user)) ∧ accountOf κ s contact = some u ∧
        s.app.users[u]? = some user) := by
  cases contact with
  | phone phone =>
    obtain ⟨e, rfl, rfl⟩ := h
    refine ⟨.tick e s, ?_⟩
    rcases findFirst_shape (·.phone = some phone) s with ⟨hs, hacc⟩ | ⟨u, user, hs, hacc, hu⟩
    · exact .inl ⟨congrArg Except.ok hs, hacc⟩
    · exact .inr ⟨u, user, congrArg Except.ok hs, hacc, hu⟩
  | email email =>
    obtain ⟨e, rfl, rfl⟩ := h
    refine ⟨.tick e s, ?_⟩
    rcases findFirst_shape (·.email = some (κ.toLowerCase email)) s with
      ⟨hs, hacc⟩ | ⟨u, user, hs, hacc, hu⟩
    · exact .inl ⟨congrArg Except.ok hs, hacc⟩
    · exact .inr ⟨u, user, congrArg Except.ok hs, hacc, hu⟩

theorem createUser_runs {dto : CreateUserInternalDto} {r : Except Erreur UserShape}
    (h : (backend κ).Runs (Prog.left (UsersService.create κ.toLowerCase dto)) s r s') :
    Quiet s s' ∧ ∀ shape, r = .ok shape →
      ∃ u user, shape = toUserShape u user ∧ s'.app.users[u]? = some user := by
  obtain ⟨e, h⟩ := h
  simp only [backend, prisma, OumraHajj.exec] at h
  split at h
  · obtain ⟨rfl, rfl⟩ := h
    exact ⟨.tick e s, by rintro _ ⟨⟩⟩
  · obtain ⟨rfl, rfl⟩ := h
    refine ⟨⟨rfl, (Quiet.tick e s).clock, fun u user hu => Table.get_append_of_get hu _⟩, ?_⟩
    rintro _ ⟨⟩
    exact ⟨_, _, rfl, by rw [Table.get_append, if_pos rfl]⟩

theorem findOrCreate_runs {contact : OtpContact} {fullName : Option String}
    {r : Except Erreur UserShape}
    (h : (backend κ).Runs (AuthService.findOrCreate contact fullName) s r s') :
    Quiet s s' ∧ ∀ shape, r = .ok shape → ∃ u user, shape = toUserShape u user ∧
      (∀ v, accountOf κ s contact = some v → u = v) ∧ s'.app.users[u]? = some user := by
  rcases (Backend.runs_bind (p := AuthService.findByContact contact)).mp h with
    ⟨found, s₁, hf, h⟩ | ⟨y, hf, rfl⟩
  · obtain ⟨hq, ⟨hr, hn⟩ | ⟨u, user, hr, hacc, hu⟩⟩ := findByContact_runs hf
    · cases hr
      obtain ⟨hq', hc⟩ := createUser_runs h
      refine ⟨hq.trans hq', fun shape hs => ?_⟩
      obtain ⟨u, user, hshape, hu⟩ := hc shape hs
      exact ⟨u, user, hshape, by simp [hn], hu⟩
    · cases hr
      obtain ⟨rfl, rfl⟩ := h
      refine ⟨hq, ?_⟩
      rintro _ ⟨⟩
      exact ⟨u, user, rfl, fun v hv => Option.some.inj (hacc.symm.trans hv), hq.users u user hu⟩
  · exact ⟨(findByContact_runs hf).1, by rintro _ ⟨⟩⟩

theorem otpUpdate_quiet (κ : Crypto) (s : Store) (id : OtpId) (e : Env) :
    Quiet s ((backend κ).exec (.inr (.otpUpdate id)) e s).2 := by
  simp only [backend, exec]
  split <;> exact ⟨rfl, (Quiet.tick e s).clock, fun _ _ h => h⟩

theorem otpDelete_quiet (κ : Crypto) (s : Store) (id : OtpId) (e : Env) :
    Quiet s ((backend κ).exec (.inr (.otpDelete id)) e s).2 ∧
      ((backend κ).exec (.inr (.otpDelete id)) e s).2.app = s.app := by
  simp only [backend, exec]
  split <;> exact ⟨⟨rfl, (Quiet.tick e s).clock, fun _ _ h => h⟩, rfl⟩

theorem snd_otpFindFirst (contact : OtpContact) (e : Env) :
    ((backend κ).exec (.inr (.otpFindFirst contact)) e s).2 = s.tick e := rfl

theorem accountOf_congr {s₁ : Store} (h : s₁.app = s.app) (contact : OtpContact) :
    accountOf κ s₁ contact = accountOf κ s contact := by
  cases contact <;> simp only [accountOf, h]

theorem verifyOtp_runs {contact : OtpContact} {code : String} {fullName : Option String}
    {r : Except Erreur (AuthTokens κ)}
    (h : (backend κ).Runs (AuthService.verifyOtp config contact code fullName) s r s') :
    (∃ x, r = .error x ∧ Quiet s s') ∨
    ∃ u user s₁ tk, (∀ v, accountOf κ s contact = some v → u = v) ∧ Quiet s s₁ ∧
      s₁.app.users[u]? = some user ∧ user.isActive = true ∧ r = .ok tk ∧
      Opened config s₁ u tk s' := by
  obtain ⟨e, h⟩ := h
  rcases hf : ((backend κ).exec (.inr (.otpFindFirst contact)) e s).1 with - | ⟨id, otp⟩
  · rw [hf] at h
    exact .inl ⟨_, h.1, h.2 ▸ .tick e s⟩
  rw [hf, snd_otpFindFirst] at h
  obtain ⟨e₂, h⟩ := runs_now.mp h
  have hq₂ : Quiet s ((s.tick e).tick e₂) := (Quiet.tick e s).trans (.tick e₂ _)
  split at h
  · exact .inl ⟨_, h.1, h.2 ▸ hq₂⟩
  split at h
  · exact .inl ⟨_, h.1, h.2 ▸ hq₂⟩
  split at h
  · obtain ⟨e₃, h⟩ := h
    have hq₃ := otpUpdate_quiet κ ((s.tick e).tick e₂) id e₃
    rcases hx : ((backend κ).exec (.inr (.otpUpdate id)) e₃ ((s.tick e).tick e₂)).1 with - | x
    · rw [hx] at h
      exact .inl ⟨_, h.1, h.2 ▸ hq₂.trans hq₃⟩
    · rw [hx] at h
      exact .inl ⟨_, h.1, h.2 ▸ hq₂.trans hq₃⟩
  obtain ⟨e₃, h⟩ := h
  obtain ⟨hq₃, happ⟩ := otpDelete_quiet κ ((s.tick e).tick e₂) id e₃
  rcases hx : ((backend κ).exec (.inr (.otpDelete id)) e₃ ((s.tick e).tick e₂)).1 with - | x
  · rw [hx] at h
    exact .inl ⟨_, h.1, h.2 ▸ hq₂.trans hq₃⟩
  rw [hx] at h
  rcases (Backend.runs_bind (p := AuthService.findOrCreate contact fullName)).mp h with
    ⟨shape, s₁, hf', h⟩ | ⟨y, hf', rfl⟩
  · obtain ⟨hq, hshape⟩ := findOrCreate_runs hf'
    obtain ⟨u, user, rfl, hacc, hu⟩ := hshape shape rfl
    have hq₁ : Quiet s s₁ := (hq₂.trans hq₃).trans hq
    split at h
    · exact .inl ⟨_, h.1, h.2 ▸ hq₁⟩
    split at h
    · exact .inl ⟨_, h.1, h.2 ▸ hq₁⟩
    rename_i ha
    obtain ⟨tk, rfl, ho⟩ := issueTokens_runs (s := s₁) hu h
    refine .inr ⟨u, user, s₁, tk, fun v hv => hacc v ?_, hq₁, hu, Bool.eq_true_of_not_eq_false ha, rfl, ho⟩
    rw [← hv]
    exact accountOf_congr happ contact
  · exact .inl ⟨_, rfl, (hq₂.trans hq₃).trans (findOrCreate_runs hf').1⟩

theorem resetTokenOf_user {tokenHash : String} {record : PasswordResetToken} {user : User}
    (h : s.resetTokenOf tokenHash = some (record, user)) :
    s.app.users[record.userId]? = some user := by
  obtain ⟨record', -, h⟩ := Option.bind_eq_some_iff.mp h
  obtain ⟨user', hu, h⟩ := Option.map_eq_some_iff.mp h
  cases h
  exact hu

theorem exec_passwordReset {u : UserId} {user : User} (hu : s.app.users[u]? = some user)
    (passwordHash : String) (e : Env) :
    (backend κ).exec (.inr (.passwordReset u passwordHash)) e s =
      (some (), { s.tick e with
        app := { s.app with
          users := s.app.users.set u { user with passwordHash := some passwordHash } }
        passwordResetTokens := s.passwordResetTokens.map fun row => row.filter (·.userId ≠ u)
        refreshTokens := s.refreshTokens.map fun row =>
          if row.userId = u then { row with revoked := true } else row }) := by
  have hu' : (s.tick e).app.users[u]? = some user := hu
  simp only [backend, exec, hu']
  rfl

theorem passwordReset_exec (κ : Crypto) (s : Store) (u : UserId) (passwordHash : String) (e : Env) :
    (backend κ).exec (.inr (.passwordReset u passwordHash)) e s = (none, s.tick e) ∨
      ∃ user, s.app.users[u]? = some user ∧
        (backend κ).exec (.inr (.passwordReset u passwordHash)) e s =
          (some (), { s.tick e with
            app := { s.app with
              users := s.app.users.set u { user with passwordHash := some passwordHash } }
            passwordResetTokens := s.passwordResetTokens.map fun row => row.filter (·.userId ≠ u)
            refreshTokens := s.refreshTokens.map fun row =>
              if row.userId = u then { row with revoked := true } else row }) := by
  rcases hu : s.app.users[u]? with - | user
  · refine .inl ?_
    have hu' : (s.tick e).app.users[u]? = none := hu
    simp only [backend, exec, hu']
    rfl
  · exact .inr ⟨user, rfl, exec_passwordReset hu passwordHash e⟩

/-- All the sessions of the user are revoked. -/
structure Closed (s : Store) (u : UserId) (s' : Store) : Prop where
  sessions : s'.refreshTokens = s.refreshTokens.map fun row =>
    if row.userId = u then { row with revoked := true } else row
  clock : s.clock ≤ s'.clock
  users : s.app.users.length ≤ s'.app.users.length

theorem resetPassword_runs {token newPassword : String} {r : Except Erreur Unit}
    (h : (backend κ).Runs (PasswordResetService.resetPassword token newPassword) s r s') :
    (∃ x, r = .error x ∧ Quiet s s') ∨
    ∃ record user, s.resetTokenOf (κ.sha256 token) = some (record, user) ∧
      user.isActive = true ∧ r = .ok () ∧ Closed s record.userId s' := by
  obtain ⟨e, h⟩ := h
  rcases hf : s.resetTokenOf (κ.sha256 token) with - | ⟨record, user⟩
  · have hx : ((backend κ).exec (.inr (.passwordResetTokenFindUnique (κ.sha256 token))) e s).1 =
      none := hf
    rw [hx] at h
    exact .inl ⟨_, h.1, h.2 ▸ .tick e s⟩
  have hx : ((backend κ).exec (.inr (.passwordResetTokenFindUnique (κ.sha256 token))) e s) =
    (some (record, user), s.tick e) := congrArg (fun o => (o, s.tick e)) hf
  rw [hx] at h
  obtain ⟨e₂, h⟩ := runs_now.mp h
  have hq₂ : Quiet s ((s.tick e).tick e₂) := (Quiet.tick e s).trans (.tick e₂ _)
  split at h
  · exact .inl ⟨_, h.1, h.2 ▸ hq₂⟩
  split at h
  · exact .inl ⟨_, h.1, h.2 ▸ hq₂⟩
  rename_i ha
  obtain ⟨e₃, h⟩ := runs_bcryptHash.mp h
  obtain ⟨e₄, h⟩ := h
  have hu : (((s.tick e).tick e₂).tick e₃).app.users[record.userId]? = some user :=
    resetTokenOf_user hf
  rw [exec_passwordReset hu] at h
  obtain ⟨rfl, rfl⟩ := h
  refine .inr ⟨record, user, rfl, Bool.eq_true_of_not_eq_false ha, rfl, rfl, ?_, ?_⟩
  · exact ((hq₂.trans (.tick e₃ _)).trans (.tick e₄ _)).clock
  · exact Nat.le_of_eq (List.length_set ..).symm

end Spec

end OumraHajj.Auth
