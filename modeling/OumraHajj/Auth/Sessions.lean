import OumraHajj.Async.History
import OumraHajj.Auth.Spec

/-!
# Killed tokens

A sequential run of logins, rotations, logouts and password resets, with its history: the token that
each session was opened with, and the tokens that are killed (exchanged, logged out, or issued
before a password reset).

bcrypt does not tell the tokens of one user apart, so a token is taken for any live session of its
user. A killed token is refused exactly while its user has no live session, is suspended, or the
token has expired, and a logout closes the session of its token and no other one exactly if the user
has no other live session (`Cond`).
-/

namespace OumraHajj.Auth

open Async

/-- The requests that open and close sessions. -/
inductive AuthRequest (κ : Crypto) where
  | validateAgencyOrAdmin (email password : String)
  | verifyOtp (contact : OtpContact) (code : String) (fullName : Option String)
  | refresh (rawRefreshToken : κ.Token)
  | logout (userId : UserId) (rawRefreshToken : κ.Token)
  | resetPassword (token newPassword : String)

/-- The sessions are in the order of their rows. -/
structure History (κ : Crypto) where
  issued : List κ.Token := []
  killed : List κ.Token := []

section Sessions

variable {κ : Crypto} (config : AppConfig)

/-- The handler of a request, with the tokens that it returns. -/
def handler : AuthRequest κ → Req κ (Option (AuthTokens κ))
  | .validateAgencyOrAdmin email password =>
    (AuthService.validateAgencyOrAdmin config email password).bind fun tk => .ret (some tk)
  | .verifyOtp contact code fullName =>
    (AuthService.verifyOtp config contact code fullName).bind fun tk => .ret (some tk)
  | .refresh rawRefreshToken =>
    (AuthService.refresh config rawRefreshToken).bind fun tk => .ret (some tk)
  | .logout userId rawRefreshToken =>
    (AuthService.logout userId rawRefreshToken).bind fun _ => .ret none
  | .resetPassword token newPassword =>
    (PasswordResetService.resetPassword token newPassword).bind fun _ => .ret none

namespace History

/-- The tokens of the sessions of a user. -/
def tokensOf (h : History κ) (s : Store) (u : UserId) : List κ.Token :=
  ((s.refreshTokens.zip h.issued).filter (·.1.userId = u)).map Prod.snd

/-- The tokens that a request that succeeds kills. -/
def kills (h : History κ) (s : Store) : AuthRequest κ → List κ.Token
  | .refresh t => if t ∈ h.issued then [t] else []
  | .logout u t => if t ∈ h.tokensOf s u then [t] else []
  | .resetPassword token _ =>
    match s.resetTokenOf (κ.sha256 token) with
    | some (record, _) => h.tokensOf s record.userId
    | none => []
  | _ => []

/-- What a request adds to the history. -/
def note (h : History κ) (s : Store) (q : AuthRequest κ) :
    Except Erreur (Option (AuthTokens κ)) → History κ
  | .error _ => h
  | .ok tk =>
    { issued := h.issued ++ (tk.map (·.refreshToken)).toList, killed := h.killed ++ h.kills s q }

end History

/-- The law: a killed token is refused; a logout closes the sessions of its token and leaves the
others. -/
def Law (x : Store × History κ) : AuthRequest κ → Prop
  | .refresh t => t ∈ x.2.killed →
    ∀ r s', (backend κ).Runs (AuthService.refresh config t) x.1 r s' → ∃ e, r = .error e
  | .logout u t => t ∈ x.2.tokensOf x.1 u →
    ∀ r s', (backend κ).Runs (AuthService.logout u t) x.1 r s' →
      ∀ i : RefreshTokenId, (x.2.issued[i]? = some t →
          ∀ row : RefreshToken, s'.refreshTokens[i]? = some row → row.userId = u →
            row.live s'.clock = false) ∧
        (x.2.issued[i]? ≠ some t → s'.refreshTokens[i]? = x.1.refreshTokens[i]?)
  | _ => True

/-- A killed token has expired, or its user is suspended or has no live session; a logout finds at
most one live session of the user, that of its token. -/
def Cond (x : Store × History κ) : AuthRequest κ → Prop
  | .refresh t => t ∈ x.2.killed →
    (κ.decode t).exp ≤ secondes x.1.clock ∨
      (x.1.app.users[(κ.decode t).sub]?).any (!·.isActive) = true ∨
      x.1.liveOf (κ.decode t).sub = []
  | .logout u t => t ∈ x.2.tokensOf x.1 u →
    ∀ y ∈ x.1.liveOf u, x.2.issued[y.1]? = some t ∧ ∀ z ∈ x.1.liveOf u, z.1 = y.1
  | _ => True

instance (x : Store × History κ) : DecidablePred (Cond x)
  | .refresh t => inferInstanceAs (Decidable (t ∈ x.2.killed →
    (κ.decode t).exp ≤ secondes x.1.clock ∨
      (x.1.app.users[(κ.decode t).sub]?).any (!·.isActive) = true ∨
      x.1.liveOf (κ.decode t).sub = []))
  | .logout u t => inferInstanceAs (Decidable (t ∈ x.2.tokensOf x.1 u →
    ∀ y ∈ x.1.liveOf u, x.2.issued[y.1]? = some t ∧ ∀ z ∈ x.1.liveOf u, z.1 = y.1))
  | .validateAgencyOrAdmin _ _ => isTrue trivial
  | .verifyOtp _ _ _ => isTrue trivial
  | .resetPassword _ _ => isTrue trivial

/-! ## The invariant -/

variable {config}

/-- Each session was opened with a token of its user, which its hash is made of. -/
structure Coherent (config : AppConfig) (s : Store) (issued : List κ.Token) : Prop where
  length : issued.length = s.refreshTokens.length
  row : ∀ (i : RefreshTokenId) (row : RefreshToken) (t : κ.Token),
    s.refreshTokens[i]? = some row → issued[i]? = some t →
      ∃ c salt, t = κ.sign config.refreshSecret c ∧ c.sub = row.userId ∧
        row.tokenHash = κ.hash salt (κ.text t)
  user : ∀ (i : RefreshTokenId) (row : RefreshToken), s.refreshTokens[i]? = some row →
    row.userId < s.app.users.length

namespace Coherent

variable {s s' : Store} {issued : List κ.Token}

theorem quiet (hc : Coherent config s issued) (hq : Quiet s s') : Coherent config s' issued where
  length := by rw [hq.sessions]; exact hc.length
  row i row t hi ht := hc.row i row t (hq.sessions ▸ hi) ht
  user i row hi := by
    have hu := List.getElem?_eq_getElem (hc.user i row (hq.sessions ▸ hi))
    exact Table.lt_of_get (hq.users _ _ hu)

theorem revoke (hc : Coherent config s issued) {x : RefreshTokenId × RefreshToken}
    (hx : s.refreshTokens[x.1]? = some x.2) : Coherent config (s.revoke x) issued where
  length := by rw [Store.revoke, List.length_set]; exact hc.length
  row i row t hi ht := by
    rw [Store.revoke, Table.get_set hx] at hi
    split at hi
    · rename_i hix
      subst hix
      cases hi
      exact hc.row x.1 x.2 t hx ht
    · exact hc.row i row t hi ht
  user i row hi := by
    rw [Store.revoke, Table.get_set hx] at hi
    split at hi
    · cases hi
      exact hc.user x.1 x.2 hx
    · exact hc.user i row hi

theorem opened {u : UserId} {user : User} {tk : AuthTokens κ} (hc : Coherent config s issued)
    (hu : s.app.users[u]? = some user) (ho : Opened config s u tk s') :
    Coherent config s' (issued ++ [tk.refreshToken]) := by
  obtain ⟨c, salt, hsub, htk, hs⟩ := ho.sessions
  refine ⟨?_, fun i row t hi ht => ?_, fun i row hi => ?_⟩
  · rw [hs, List.length_append, List.length_append, hc.length]
    rfl
  · rw [hs, Table.get_append] at hi
    rw [Table.get_append issued, hc.length] at ht
    split at hi
    · rename_i hil
      rw [if_pos hil] at ht
      cases hi
      cases ht
      exact ⟨c, salt, htk, hsub, rfl⟩
    · rename_i hil
      rw [if_neg hil] at ht
      exact hc.row i row t hi ht
  · rw [hs, Table.get_append] at hi
    split at hi
    · cases hi
      exact Table.lt_of_get (ho.users u user hu)
    · have hv := List.getElem?_eq_getElem (hc.user i row hi)
      exact Table.lt_of_get (ho.users _ _ hv)

theorem closed {u : UserId} (hc : Coherent config s issued) (hs : Closed s u s') :
    Coherent config s' issued := by
  have hrow : ∀ (i : RefreshTokenId) (row : RefreshToken), s'.refreshTokens[i]? = some row →
      ∃ row₀, s.refreshTokens[i]? = some row₀ ∧ row.userId = row₀.userId ∧
        row.tokenHash = row₀.tokenHash := by
    intro i row hi
    rw [hs.sessions, List.getElem?_map] at hi
    obtain ⟨row₀, h₀, rfl⟩ := Option.map_eq_some_iff.mp hi
    refine ⟨row₀, h₀, ?_⟩
    split <;> exact ⟨rfl, rfl⟩
  refine ⟨?_, fun i row t hi ht => ?_, fun i row hi => ?_⟩
  · rw [hs.sessions, List.length_map]
    exact hc.length
  · obtain ⟨row₀, h₀, hu, hh⟩ := hrow i row hi
    rw [hu, hh]
    exact hc.row i row₀ t h₀ ht
  · obtain ⟨row₀, h₀, hu, -⟩ := hrow i row hi
    rw [hu]
    exact Nat.lt_of_lt_of_le (hc.user i row₀ h₀) hs.users

end Coherent

theorem History.mem_tokensOf {h : History κ} {s : Store} {u : UserId} {t : κ.Token} :
    t ∈ h.tokensOf s u ↔ ∃ (i : RefreshTokenId) (row : RefreshToken),
      s.refreshTokens[i]? = some row ∧ h.issued[i]? = some t ∧ row.userId = u := by
  simp only [History.tokensOf, List.mem_map, List.mem_filter, decide_eq_true_eq]
  constructor
  · rintro ⟨⟨row, t'⟩, ⟨hm, hu⟩, rfl⟩
    obtain ⟨i, hi⟩ := List.mem_iff_getElem?.mp hm
    obtain ⟨hr, ht⟩ := List.getElem?_zip_eq_some.mp hi
    exact ⟨i, row, hr, ht, hu⟩
  · rintro ⟨i, row, hr, ht, hu⟩
    exact ⟨(row, t), ⟨List.mem_iff_getElem?.mpr ⟨i, List.getElem?_zip_eq_some.mpr ⟨hr, ht⟩⟩, hu⟩, rfl⟩

/-- The tokens that a request kills were issued. -/
theorem History.kills_issued {h : History κ} {s : Store} {q : AuthRequest κ} {t : κ.Token}
    (ht : t ∈ h.kills s q) : t ∈ h.issued := by
  have hof : ∀ {u : UserId} {t : κ.Token}, t ∈ h.tokensOf s u → t ∈ h.issued := by
    intro u t ht
    obtain ⟨i, row, -, hi, -⟩ := History.mem_tokensOf.mp ht
    exact List.mem_of_getElem? hi
  cases q with
  | validateAgencyOrAdmin email pw => cases ht
  | verifyOtp contact code fullName => cases ht
  | refresh t' =>
    simp only [History.kills] at ht
    split at ht
    · rename_i hi
      exact List.mem_singleton.mp ht ▸ hi
    · cases ht
  | logout u t' =>
    simp only [History.kills] at ht
    split at ht
    · rename_i hi
      exact List.mem_singleton.mp ht ▸ hof hi
    · cases ht
  | resetPassword token pw =>
    simp only [History.kills] at ht
    split at ht
    · exact hof ht
    · cases ht

/-- What holds of the store and the history after each request. -/
structure Inv (config : AppConfig) (x : Store × History κ) : Prop where
  coherent : Coherent config x.1 x.2.issued
  killed : ∀ t ∈ x.2.killed, t ∈ x.2.issued

/-- A request keeps the sessions coherent. -/
theorem coherent_step {s s' : Store} {h : History κ} {q : AuthRequest κ}
    {r : Except Erreur (Option (AuthTokens κ))} (hc : Coherent config s h.issued)
    (hr : (backend κ).Runs (handler config q) s r s') :
    Coherent config s' (h.note s q r).issued := by
  cases q with
  | validateAgencyOrAdmin email pw =>
    rcases Backend.runs_bind.mp hr with ⟨tk, s₁, hp, rfl, rfl⟩ | ⟨x, hp, rfl⟩
    · rcases validate_runs hp with ⟨x, hx, -⟩ | ⟨u, user, tk', -, hu, -, hr', ho⟩
      · cases hx
      · cases hr'
        exact hc.opened hu ho
    · rcases validate_runs hp with ⟨x, -, hq⟩ | ⟨u, user, tk', -, -, -, hr', -⟩
      · exact hc.quiet hq
      · cases hr'
  | verifyOtp contact code fullName =>
    rcases Backend.runs_bind.mp hr with ⟨tk, s₁, hp, rfl, rfl⟩ | ⟨x, hp, rfl⟩
    · rcases verifyOtp_runs hp with ⟨x, hx, -⟩ | ⟨u, user, s₂, tk', -, hq, hu, -, hr', ho⟩
      · cases hx
      · cases hr'
        exact (hc.quiet hq).opened hu ho
    · rcases verifyOtp_runs hp with ⟨x, -, hq⟩ | ⟨u, user, s₂, tk', -, -, -, -, hr', -⟩
      · exact hc.quiet hq
      · cases hr'
  | refresh t =>
    rcases Backend.runs_bind.mp hr with ⟨tk, s₁, hp, rfl, rfl⟩ | ⟨x, hp, rfl⟩
    · rcases refresh_runs hp with ⟨x, hx, -⟩ | ⟨c, user, x, s₂, tk', -, -, hq, hu, -, hx, hr', ho⟩
      · cases hx
      · cases hr'
        exact ((hc.quiet hq).revoke (mem_liveOf.mp hx).1).opened hu ho
    · rcases refresh_runs hp with ⟨x, -, hq⟩ | ⟨c, user, x, s₂, tk', -, -, -, -, -, -, hr', -⟩
      · exact hc.quiet hq
      · cases hr'
  | logout u t =>
    have hout : ∀ {r s₁}, (backend κ).Runs (AuthService.logout u t) s r s₁ →
        r = .ok () ∧ Coherent config s₁ h.issued := by
      intro r s₁ hp
      obtain ⟨hr', s₂, hq, ⟨hq', -⟩ | ⟨x, hx, -, hq'⟩⟩ := logout_runs hp
      · exact ⟨hr', (hc.quiet hq).quiet hq'⟩
      · exact ⟨hr', ((hc.quiet hq).revoke (mem_liveOf.mp hx).1).quiet hq'⟩
    rcases Backend.runs_bind.mp hr with ⟨a, s₁, hp, rfl, rfl⟩ | ⟨x, hp, rfl⟩
    · have hc' := (hout hp).2
      rwa [← List.append_nil h.issued] at hc'
    · cases (hout hp).1
  | resetPassword token pw =>
    rcases Backend.runs_bind.mp hr with ⟨a, s₁, hp, rfl, rfl⟩ | ⟨x, hp, rfl⟩
    · rcases resetPassword_runs hp with ⟨x, hx, -⟩ | ⟨record, user, -, -, -, hs⟩
      · cases hx
      · have hc' := hc.closed hs
        rwa [← List.append_nil h.issued] at hc'
    · rcases resetPassword_runs hp with ⟨x, -, hq⟩ | ⟨record, user, -, -, hr', -⟩
      · exact hc.quiet hq
      · cases hr'

theorem Inv.step {x y : Store × History κ} {q : AuthRequest κ}
    {r : Except Erreur (Option (AuthTokens κ))} (hi : Inv config x)
    (hr : (backend κ).Runs (handler config q) x.1 r y.1) (hy : y.2 = x.2.note x.1 q r) :
    Inv config y := by
  refine ⟨hy ▸ coherent_step hi.coherent hr, ?_⟩
  rw [hy]
  rcases r with e | tk
  · exact hi.killed
  · intro t ht
    rcases List.mem_append.mp ht with ht | ht
    · exact List.mem_append_left _ (hi.killed t ht)
    · exact List.mem_append_left _ (History.kills_issued ht)

/-! ## Exact conditions -/

section Exact

variable {s : Store} {u : UserId} {t : κ.Token}

theorem get_revoke {x : RefreshTokenId × RefreshToken} (hx : s.refreshTokens[x.1]? = some x.2)
    (i : RefreshTokenId) : (s.revoke x).refreshTokens[i]? =
      if x.1 = i then some { x.2 with revoked := true } else s.refreshTokens[i]? :=
  Table.get_set hx _ i

theorem live_revoked (now : Time) (row : RefreshToken) :
    RefreshToken.live now { row with revoked := true } = false := rfl

/-- No session comes to life. -/
theorem Quiet.liveOf {s₁ : Store} (hq : Quiet s s₁) {x : RefreshTokenId × RefreshToken}
    (hx : x ∈ s₁.liveOf u) : x ∈ s.liveOf u := by
  obtain ⟨hrow, hu, hl⟩ := mem_liveOf.mp hx
  exact mem_liveOf.mpr ⟨hq.sessions ▸ hrow, hu, live_mono hq.clock hl⟩

theorem tick_self (s : Store) (ordre : RefreshTokenId → Nat) :
    s.tick { now := s.clock, ordre } = s := by
  simp only [Store.tick, max_self]

/-- The first row of a sorted list is one that no other row is as low as. -/
theorem head?_insertionSort {α : Type} {f : α → Nat} {l : List α} {x : α} (hx : x ∈ l)
    (hmin : ∀ y ∈ l, f y ≤ f x → y = x) :
    (l.insertionSort fun x y => f x ≤ f y).head? = some x := by
  have : Std.Total fun x y : α => f x ≤ f y := ⟨fun x y => Nat.le_total _ _⟩
  have : IsTrans α fun x y => f x ≤ f y := ⟨fun _ _ _ => Nat.le_trans⟩
  have hsorted := List.pairwise_insertionSort (fun x y : α => f x ≤ f y) l
  have hmem : ∀ y, y ∈ l.insertionSort (fun x y => f x ≤ f y) ↔ y ∈ l :=
    fun y => List.mem_insertionSort _
  rcases hl : l.insertionSort (fun x y => f x ≤ f y) with - | ⟨y, l'⟩
  · rw [hl] at hmem
    cases (hmem x).mpr hx
  · rw [hl] at hmem hsorted
    have hyx : f y ≤ f x := by
      rcases List.mem_cons.mp ((hmem x).mpr hx) with rfl | h
      · exact Nat.le_refl _
      · exact (List.pairwise_cons.mp hsorted).1 x h
    exact congrArg some (hmin y ((hmem y).mp List.mem_cons_self) hyx)

/-- Where the token matches all live sessions, each of them may be the first one. -/
theorem findMatching_any (hall : ∀ y ∈ s.liveOf u, κ.compare (κ.text t) y.2.tokenHash = true)
    {x : RefreshTokenId × RefreshToken} (hx : x ∈ s.liveOf u) :
    (backend κ).Runs (AuthService.findMatchingRefreshToken u t) s (.ok (some x.1)) s := by
  let ordre : RefreshTokenId → Nat := fun i => if i = x.1 then 0 else 1
  have hmin : ∀ y ∈ s.liveOf u, ordre y.1 ≤ ordre x.1 → y = x := by
    intro y hy hyx
    have hid : y.1 = x.1 := by
      by_contra hne
      simp [ordre, hne] at hyx
    have hrow := (mem_liveOf.mp hy).1
    rw [hid, (mem_liveOf.mp hx).1] at hrow
    exact Prod.ext hid (Option.some.inj hrow).symm
  have hhead := head?_insertionSort (f := fun y => ordre y.1) hx hmin
  have hfind : ((s.liveOf u).insertionSort fun x y => ordre x.1 ≤ ordre y.1).find?
      (fun y => κ.compare (κ.text t) y.2.tokenHash) = some x := by
    obtain ⟨l, hl⟩ := List.head?_eq_some_iff.mp hhead
    rw [hl]
    exact List.find?_cons_of_pos (hall x hx)
  refine ⟨{ now := s.clock, ordre }, ?_, (tick_self s ordre).symm⟩
  have hlive : ((backend κ).exec (.inr (.refreshTokenFindMany u)) { now := s.clock, ordre } s).1 =
      (s.liveOf u).insertionSort fun x y => ordre x.1 ≤ ordre y.1 := by
    simp only [backend, exec, tick_self]
    rfl
  rw [hlive]
  exact congrArg (fun o => Except.ok (Option.map Prod.fst o)) hfind.symm

/-- A token is accepted while its user, who is active, has a session that it matches. -/
theorem refresh_any {c : Claims} {user : User} (hv : κ.verify config.refreshSecret t = some c)
    (hexp : secondes s.clock < c.exp) (hu : s.app.users[c.sub]? = some user)
    (ha : user.isActive = true)
    (hall : ∀ y ∈ s.liveOf c.sub, κ.compare (κ.text t) y.2.tokenHash = true)
    {x : RefreshTokenId × RefreshToken} (hx : x ∈ s.liveOf c.sub) :
    ∃ tk s', (backend κ).Runs (AuthService.refresh config t) s (.ok tk) s' := by
  have hver : verified κ (s.tick { now := s.clock }) t config.refreshSecret none = some c := by
    rw [tick_self s id]
    exact verified_eq_some.mpr ⟨hv, hexp, .inl rfl⟩
  have hfind : ((backend κ).exec (.inl (.userFindUnique c.sub)) {} s).1 = some user := hu
  have hu' : (((s.tick {}).tick {}).revoke x).app.users[c.sub]? = some user := hu
  obtain ⟨tk, s', hissue⟩ : ∃ tk s', (backend κ).Runs
      (AuthService.issueTokens config (toIdentity (toUserShape c.sub user)))
      (((s.tick {}).tick {}).revoke x) (.ok tk) s' := by
    have hrun := Backend.eval_runs (B := backend κ) ({} : Env)
      (AuthService.issueTokens config (toIdentity (toUserShape c.sub user)))
      (((s.tick {}).tick {}).revoke x)
    obtain ⟨tk, hok, -⟩ := issueTokens_runs hu' hrun
    exact ⟨tk, _, hok ▸ hrun⟩
  refine ⟨tk, s', runs_jwtVerify.mpr ⟨{ now := s.clock }, ?_⟩⟩
  rw [hver, tick_self s id]
  refine Backend.runs_bind.mpr (.inl ⟨some x.1, s, findMatching_any hall hx, ?_⟩)
  refine Backend.runs_bind.mpr (.inl ⟨toUserShape c.sub user, s.tick {}, ⟨{}, ?_⟩, ?_⟩)
  · rw [hfind]
    exact ⟨rfl, rfl⟩
  · have hact : ¬ (toUserShape c.sub user).isActive = false := by
      rw [show (toUserShape c.sub user).isActive = true from ha]
      decide
    rw [if_neg hact]
    refine ⟨{}, ?_⟩
    have hrow : (s.tick {}).refreshTokens[x.1]? = some x.2 := (mem_liveOf.mp hx).1
    rw [exec_refreshTokenUpdate hrow]
    exact hissue

/-- The session that a logout finds is revoked. -/
theorem logout_any (hall : ∀ y ∈ s.liveOf u, κ.compare (κ.text t) y.2.tokenHash = true)
    {x : RefreshTokenId × RefreshToken} (hx : x ∈ s.liveOf u) :
    (backend κ).Runs (AuthService.logout u t) s (.ok ()) (s.revoke x) := by
  refine Backend.runs_bind.mpr
    (.inl ⟨some x.1, s, findMatching_any hall hx, { now := s.clock }, ?_⟩)
  rw [exec_refreshTokenUpdate (mem_liveOf.mp hx).1, tick_self s id]
  exact ⟨rfl, rfl⟩

end Exact

namespace Coherent

variable {s : Store} {issued : List κ.Token} {t : κ.Token}

/-- A token that was issued is one of its user. -/
theorem token (hc : Coherent config s issued) (ht : t ∈ issued) :
    ∃ c, t = κ.sign config.refreshSecret c ∧ c.sub < s.app.users.length := by
  obtain ⟨i, hi⟩ := List.mem_iff_getElem?.mp ht
  have hrow := List.getElem?_eq_getElem (hc.length ▸ Table.lt_of_get hi)
  obtain ⟨c, salt, htok, hsub, -⟩ := hc.row i _ t hrow hi
  exact ⟨c, htok, hsub ▸ hc.user i _ hrow⟩

/-- It matches all the sessions of its user. -/
theorem compare (hc : Coherent config s issued) (c : Claims) {y : RefreshTokenId × RefreshToken}
    (hy : y ∈ s.liveOf c.sub) :
    κ.compare (κ.text (κ.sign config.refreshSecret c)) y.2.tokenHash = true := by
  obtain ⟨hrow, hu, -⟩ := mem_liveOf.mp hy
  have ht := List.getElem?_eq_getElem (hc.length ▸ Table.lt_of_get hrow)
  obtain ⟨c', salt, htok, hsub, hhash⟩ := hc.row y.1 y.2 _ hrow ht
  rw [hhash, htok]
  exact κ.compare_token (hu.symm.trans hsub.symm) salt

end Coherent

/-- A killed token is refused exactly if it has expired, or its user is suspended or has no live
session. -/
theorem refresh_law_iff {x : Store × History κ} (hi : Inv config x) (t : κ.Token) :
    Law config x (.refresh t) ↔ Cond x (.refresh t) := by
  refine forall_congr' fun ht => ?_
  obtain ⟨c, rfl, hlt⟩ := hi.coherent.token (hi.killed t ht)
  rw [κ.decode_sign]
  have hu : x.1.app.users[c.sub]? = some x.1.app.users[c.sub] := List.getElem?_eq_getElem hlt
  constructor
  · intro hlaw
    by_contra hn
    simp only [not_or, Int.not_le] at hn
    obtain ⟨hexp, hsusp, hlive⟩ := hn
    rw [hu] at hsusp
    obtain ⟨y, hy⟩ := List.exists_mem_of_ne_nil _ hlive
    have ha : x.1.app.users[c.sub].isActive = true := by
      simpa using hsusp
    obtain ⟨tk, s', hr⟩ := refresh_any (κ.verify_sign _ c) hexp hu ha
      (fun y hy => hi.coherent.compare c hy) hy
    obtain ⟨e, he⟩ := hlaw _ _ hr
    cases he
  · intro hcond r s' hr
    rcases refresh_runs hr with ⟨e, rfl, -⟩ | ⟨c', user, y, s₁, tk, hv, hexp, hq, hu', ha, hy, -⟩
    · exact ⟨e, rfl⟩
    · cases (κ.verify_sign _ _).symm.trans hv
      rcases hcond with h | h | h
      · exact absurd hexp (Int.not_lt.mpr h)
      · rw [hu] at h
        cases hu'.symm.trans (hq.users _ _ hu)
        simp [ha] at h
      · have hy' := hq.liveOf hy
        rw [h] at hy'
        cases hy'

/-- The sessions of the token are closed in `s'`, and the others left as they are. -/
def ClosesOwn (x : Store × History κ) (u : UserId) (t : κ.Token) (s' : Store) : Prop :=
  ∀ i : RefreshTokenId, (x.2.issued[i]? = some t →
      ∀ row : RefreshToken, s'.refreshTokens[i]? = some row → row.userId = u →
        row.live s'.clock = false) ∧
    (x.2.issued[i]? ≠ some t → s'.refreshTokens[i]? = x.1.refreshTokens[i]?)

theorem revoke_ne {s : Store} {u : UserId} {y : RefreshTokenId × RefreshToken} (hy : y ∈ s.liveOf u) :
    (s.revoke y).refreshTokens[y.1]? ≠ s.refreshTokens[y.1]? := by
  obtain ⟨hrow, -, hlive⟩ := mem_liveOf.mp hy
  rw [get_revoke hrow, if_pos rfl, hrow]
  intro hsame
  rw [← Option.some.inj hsame, live_revoked] at hlive
  cases hlive

section Logout

variable {x : Store × History κ} {u : UserId} {t : κ.Token}

/-- Where each live session may be the one that a logout closes, there is one only, that of the
token. -/
theorem closesOwn_cond (h : ∀ y ∈ x.1.liveOf u, ClosesOwn x u t (x.1.revoke y)) :
    ∀ y ∈ x.1.liveOf u, x.2.issued[y.1]? = some t ∧ ∀ z ∈ x.1.liveOf u, z.1 = y.1 := by
  have hown : ∀ y ∈ x.1.liveOf u, x.2.issued[y.1]? = some t := fun y hy =>
    by_contra fun hne => revoke_ne hy ((h y hy y.1).2 hne)
  refine fun y hy => ⟨hown y hy, fun z hz => ?_⟩
  -- `z` is a session of the token that is still live
  by_contra hne
  obtain ⟨hzrow, hzu, hzl⟩ := mem_liveOf.mp hz
  have hz' := get_revoke (mem_liveOf.mp hy).1 z.1
  rw [if_neg (Ne.symm hne), hzrow] at hz'
  have hdead := (h y hy z.1).1 (hown z hz) z.2 hz' hzu
  rw [show (x.1.revoke y).clock = x.1.clock from rfl, hzl] at hdead
  cases hdead

theorem logout_closesOwn
    (hall : ∀ y ∈ x.1.liveOf u, κ.compare (κ.text t) y.2.tokenHash = true)
    (hcond : ∀ y ∈ x.1.liveOf u, x.2.issued[y.1]? = some t ∧ ∀ z ∈ x.1.liveOf u, z.1 = y.1)
    {r : Except Erreur Unit} {s' : Store}
    (hr : (backend κ).Runs (AuthService.logout u t) x.1 r s') : ClosesOwn x u t s' := by
  intro i
  obtain ⟨-, s₁, hq, ⟨hq', hnone⟩ | ⟨y, hy, -, hq'⟩⟩ := logout_runs hr
  · have hsess : s'.refreshTokens = x.1.refreshTokens := hq'.sessions.trans hq.sessions
    refine ⟨fun hit row hrow hu => ?_, fun _ => by rw [hsess]⟩
    rw [Bool.eq_false_iff]
    intro hl
    have hz : (i, row) ∈ s₁.liveOf u := hq'.liveOf (mem_liveOf.mpr ⟨hrow, hu, hl⟩)
    have hc := hall _ (hq.liveOf hz)
    rw [hnone _ hz] at hc
    cases hc
  · obtain ⟨hyt, huniq⟩ := hcond y (hq.liveOf hy)
    have hsess : s'.refreshTokens[i]? =
        if y.1 = i then some { y.2 with revoked := true } else x.1.refreshTokens[i]? := by
      rw [hq'.sessions, get_revoke (mem_liveOf.mp hy).1, hq.sessions]
    refine ⟨fun hit row hrow hu => ?_, fun hne => ?_⟩
    · rw [hsess] at hrow
      split at hrow
      · cases hrow
        exact live_revoked _ _
      · rename_i hyi
        rw [Bool.eq_false_iff]
        intro hl
        have hz : (i, row) ∈ x.1.liveOf u :=
          mem_liveOf.mpr ⟨hrow, hu, live_mono (Int.le_trans hq.clock hq'.clock) hl⟩
        exact hyi (huniq _ hz).symm
    · rw [hsess, if_neg]
      rintro rfl
      exact hne hyt

end Logout

/-- A logout closes the session of its token and no other exactly if no other one is live. -/
theorem logout_law_iff {x : Store × History κ} (hi : Inv config x) (u : UserId) (t : κ.Token) :
    Law config x (.logout u t) ↔ Cond x (.logout u t) := by
  refine forall_congr' fun ht => ?_
  obtain ⟨i₀, row₀, hrow₀, hi₀, hu₀⟩ := History.mem_tokensOf.mp ht
  obtain ⟨c, salt, rfl, hsub, -⟩ := hi.coherent.row i₀ row₀ t hrow₀ hi₀
  have hcu : c.sub = u := hsub.trans hu₀
  subst hcu
  have hall : ∀ y ∈ x.1.liveOf c.sub,
      κ.compare (κ.text (κ.sign config.refreshSecret c)) y.2.tokenHash = true :=
    fun y hy => hi.coherent.compare c hy
  exact ⟨fun hlaw => closesOwn_cond fun y hy => hlaw _ _ (logout_any hall hy),
    fun hcond r s' hr => logout_closesOwn hall hcond hr⟩

theorem law_iff {x : Store × History κ} (hi : Inv config x) (q : AuthRequest κ) :
    Law config x q ↔ Cond x q := by
  cases q with
  | refresh t => exact refresh_law_iff hi t
  | logout u t => exact logout_law_iff hi u t
  | validateAgencyOrAdmin email pw => exact Iff.rfl
  | verifyOtp contact code fullName => exact Iff.rfl
  | resetPassword token pw => exact Iff.rfl

/-- **Killed tokens.** A run keeps the law exactly if its rotations and its logouts satisfy `Cond`. -/
theorem killed_tokens {s : Store} (hs : s.refreshTokens = [])
    {tr : Trace (AuthRequest κ) (Store × History κ)}
    (hr : (backend κ).RunWith (handler config) History.note (s, {}) tr) :
    Trace.Steps (fun x q _ => Law config x q) (s, {}) tr ↔
      Trace.Steps (fun x q _ => Cond x q) (s, {}) tr := by
  have h₀ : Inv config (s, ({} : History κ)) := by
    refine ⟨⟨by rw [hs]; rfl, fun i row t hi => ?_, fun i row hi => ?_⟩, by rintro t ⟨⟩⟩
    · rw [hs] at hi
      cases hi
    · rw [hs] at hi
      cases hi
  refine Trace.Steps.iff (Trace.Steps.of_inv (I := Inv config) ?_ ?_ hr h₀)
  · rintro x q y hi ⟨r, hrun, hy⟩
    exact hi.step hrun hy
  · rintro x q y hi -
    exact law_iff hi q

end Sessions

/-! ## Runs of the owner -/

section Exemple

/-- A login of the owner. -/
def connexion (now : Time) : AuthRequest Crypto.exemple × Env :=
  (.validateAgencyOrAdmin "contact@agence.gn" "motdepasse", { now })

/-- The run of these requests. -/
abbrev execution (qs : List (AuthRequest Crypto.exemple × Env)) :
    Trace (AuthRequest Crypto.exemple) (Store × History Crypto.exemple) :=
  (backend Crypto.exemple).evalWith (handler .exemple) History.note (Store.exemple, {}) qs

/-- A token is refused after its logout. -/
theorem killed_tokens_exemple :
    Trace.Steps (fun x q _ => Law .exemple x q) (Store.exemple, {})
      (execution [connexion 0, (.logout 0 (jeton 0), { now := 1000 }),
        (.refresh (jeton 0), { now := 2000 })]) :=
  (killed_tokens rfl (Backend.evalWith_run _ _)).mpr (by decide +kernel)

/-- A token is exchanged twice. -/
def rejeu : List (AuthRequest Crypto.exemple × Env) :=
  [connexion 0, (.refresh (jeton 0), { now := 1000 }), (.refresh (jeton 0), { now := 2000 })]

/-- The newer one of two sessions is logged out. -/
def deconnexion : List (AuthRequest Crypto.exemple × Env) :=
  [connexion 0, connexion 1000, (.logout 0 (jeton 1), { now := 2000 })]

/-- An exchanged token is accepted, and a logout closes another session. -/
theorem killed_accepted :
    ((backend Crypto.exemple).RunWith (handler .exemple) History.note (Store.exemple, {})
        (execution rejeu) ∧
      ¬ Trace.Steps (fun x q _ => Law .exemple x q) (Store.exemple, {}) (execution rejeu)) ∧
    (backend Crypto.exemple).RunWith (handler .exemple) History.note (Store.exemple, {})
        (execution deconnexion) ∧
      ¬ Trace.Steps (fun x q _ => Law .exemple x q) (Store.exemple, {}) (execution deconnexion) := by
  refine ⟨⟨Backend.evalWith_run _ _, ?_⟩, Backend.evalWith_run _ _, ?_⟩
  · rintro ⟨-, -, hlaw, -⟩
    obtain ⟨e, he⟩ := hlaw (by decide +kernel) _ _
      (Backend.eval_runs_ok (e := { now := 2000 }) (by decide +kernel))
    cases he
  · rintro ⟨-, -, hlaw, -⟩
    have hout := hlaw (by decide +kernel) _ _ (Backend.eval_runs { now := 2000 } _ _) 0
    exact absurd (hout.2 (by decide +kernel)) (by decide +kernel)

end Exemple

end OumraHajj.Auth
