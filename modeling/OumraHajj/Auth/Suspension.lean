import OumraHajj.Auth.Spec

/-!
# Suspended accounts

What each entry point of the authentication answers to a credential of a suspended account.
`JwtStrategy`, the logins, the rotation and the password reset read the account and refuse it. A
websocket handshake is decided by its ticket or its access token alone (`Handshake.Admitted`).
-/

namespace OumraHajj.Auth

open Async

/-- The entry points, each with the credential that it checks. -/
inductive Entry (κ : Crypto) where
  /-- An access token that `passport-jwt` has verified. -/
  | access (payload : JwtPayload)
  | refresh (rawRefreshToken : κ.Token)
  | otp (contact : OtpContact) (code : String) (fullName : Option String)
  | login (email password : String)
  | reset (token newPassword : String)
  | handshake (client : Handshake κ)

namespace Entry

variable {κ : Crypto} (config : AppConfig)

def handler : Entry κ → Req κ Unit
  | .access payload => (JwtStrategy.validate payload).void
  | .refresh rawRefreshToken => (AuthService.refresh config rawRefreshToken).void
  | .otp contact code fullName => (AuthService.verifyOtp config contact code fullName).void
  | .login email password => (AuthService.validateAgencyOrAdmin config email password).void
  | .reset token newPassword => PasswordResetService.resetPassword token newPassword
  | .handshake client => (WsJwtAuthGuard.authenticate config client).void

/-- The proof that a handshake is decided by: its ticket, or else its access token. -/
def proof (client : Handshake κ) : Option (κ.Token × String) :=
  match client.ticket with
  | some ticket => some (ticket, config.ticketSecret)
  | none => (WsJwtAuthGuard.extractToken client).map fun token => (token, config.accessSecret)

/-- The account to which the credential was issued. -/
def owner (s : Store) : Entry κ → Option UserId
  | .access payload => some payload.sub
  | .refresh rawRefreshToken => (κ.verify config.refreshSecret rawRefreshToken).map (·.sub)
  | .otp contact _ _ => accountOf κ s contact
  | .login email _ => accountOf κ s (.email email)
  | .reset token _ => (s.resetTokenOf (κ.sha256 token)).map fun x => x.1.userId
  | .handshake client => (proof config client).bind fun x => (κ.verify x.2 x.1).map (·.sub)

/-- The ticket is not expired. -/
def TicketAdmitted (s : Store) (ticket : κ.Token) : Prop :=
  config.ticketSecret ≠ "" ∧
    ∃ c ∈ κ.verify config.ticketSecret ticket, c.aud = some audience ∧ secondes s.clock < c.exp

/-- The access token is not expired. -/
def TokenAdmitted (s : Store) (token : κ.Token) : Prop :=
  ∃ c ∈ κ.verify config.accessSecret token, secondes s.clock < c.exp

/-- The ticket of a handshake, or else its access token, is still valid. -/
def Admitted (s : Store) (client : Handshake κ) : Prop :=
  match client.ticket with
  | some ticket => TicketAdmitted config s ticket
  | none => ∃ token ∈ WsJwtAuthGuard.extractToken client, TokenAdmitted config s token

/-- The entry point refuses the credential, whatever the time. -/
def Refused (q : Entry κ) (s : Store) : Prop :=
  ∀ r s', (backend κ).Runs (q.handler config) s r s' → ∃ x, r = .error x

section Refused

variable {config} {s : Store} {u : UserId} {user : User}

/-- An account that is suspended is not found active later. -/
theorem absurd_active {s₁ : Store} {user' : User} (hq : Quiet s s₁)
    (hu : s.app.users[u]? = some user) (ha : user.isActive = false)
    (hu' : s₁.app.users[u]? = some user') : user'.isActive ≠ true := by
  cases hu'.symm.trans (hq.users u user hu)
  simp [ha]

theorem access_refused {payload : JwtPayload} (hu : s.app.users[payload.sub]? = some user)
    (ha : user.isActive = false) : (access payload : Entry κ).Refused config s := by
  intro r s' h
  refine Backend.refuses_void (fun r s' h => ?_) h
  obtain ⟨e, h⟩ := runs_findById.mp h
  have hn : ((s.app.users[payload.sub]?).map (toUserShape payload.sub)).any (·.isActive) = false := by
    rw [hu]
    exact ha
  rw [if_pos hn] at h
  exact ⟨_, h.1⟩

theorem refresh_refused {t : κ.Token} {c : Claims} (hv : κ.verify config.refreshSecret t = some c)
    (hu : s.app.users[c.sub]? = some user) (ha : user.isActive = false) :
    (refresh t).Refused config s := by
  intro r s' h
  refine Backend.refuses_void (fun r s' h => ?_) h
  rcases refresh_runs h with ⟨x, rfl, -⟩ | ⟨c', user', x, s₁, tk, hc, -, hq, hu', ha', -⟩
  · exact ⟨x, rfl⟩
  · cases hv.symm.trans hc
    exact (absurd_active hq hu ha hu' ha').elim

theorem login_refused {email pw : String} (ho : accountOf κ s (.email email) = some u)
    (hu : s.app.users[u]? = some user) (ha : user.isActive = false) :
    (login email pw : Entry κ).Refused config s := by
  intro r s' h
  refine Backend.refuses_void (fun r s' h => ?_) h
  rcases validate_runs h with ⟨x, rfl, -⟩ | ⟨u', user', tk, ho', hu', ha', -⟩
  · exact ⟨x, rfl⟩
  · cases ho.symm.trans ho'
    exact (absurd_active (.refl s) hu ha hu' ha').elim

theorem otp_refused {contact : OtpContact} {code : String} {fullName : Option String}
    (ho : accountOf κ s contact = some u) (hu : s.app.users[u]? = some user)
    (ha : user.isActive = false) : (otp contact code fullName : Entry κ).Refused config s := by
  intro r s' h
  refine Backend.refuses_void (fun r s' h => ?_) h
  rcases verifyOtp_runs h with ⟨x, rfl, -⟩ | ⟨u', user', s₁, tk, ho', hq, hu', ha', -⟩
  · exact ⟨x, rfl⟩
  · cases ho' u ho
    exact (absurd_active hq hu ha hu' ha').elim

theorem reset_refused {token pw : String} {record : PasswordResetToken}
    (ho : s.resetTokenOf (κ.sha256 token) = some (record, user)) (ha : user.isActive = false) :
    (reset token pw : Entry κ).Refused config s := by
  intro r s' h
  rcases resetPassword_runs h with ⟨x, rfl, -⟩ | ⟨record', user', ho', ha', -⟩
  · exact ⟨x, rfl⟩
  · cases ho.symm.trans ho'
    rw [ha] at ha'
    cases ha'

end Refused

/-! ## The websockets -/

section Handshake

variable {config} {s : Store}

theorem exists_later (l : List (String × Time)) : ∃ now : Time, ∀ x ∈ l, x.2 < now := by
  induction l with
  | nil => exact ⟨0, fun _ h => by cases h⟩
  | cons y l ih =>
    obtain ⟨now, h⟩ := ih
    refine ⟨max now (y.2 + 1), fun x hx => ?_⟩
    rcases List.mem_cons.mp hx with rfl | hx
    · exact lt_of_lt_of_le (Int.lt_succ x.2) (le_max_right _ _)
    · exact lt_of_lt_of_le (h x hx) (le_max_left _ _)

/-- A ticket is accepted, at some time, exactly if it is admitted. -/
theorem consume_ok {ticket : κ.Token} : (∃ payload s', (backend κ).Runs
      (RealtimeTicketService.consume config ticket) s (.ok payload) s') ↔
    TicketAdmitted config s ticket := by
  unfold RealtimeTicketService.consume
  split
  · rename_i hs
    constructor
    · rintro ⟨payload, s', h, -⟩
      cases h
    · rintro ⟨h, -⟩
      exact (h hs).elim
  rename_i hs
  constructor
  · rintro ⟨payload, s', h⟩
    obtain ⟨e, h⟩ := runs_jwtVerify.mp h
    rcases hv : verified κ (s.tick e) ticket config.ticketSecret (some audience) with - | c
    · rw [hv] at h
      cases h.1
    · obtain ⟨hc, hexp, ha⟩ := verified_eq_some.mp hv
      have hclock : s.clock ≤ (s.tick e).clock := (Quiet.tick e s).clock
      exact ⟨hs, c, hc, by simpa using ha, lt_of_le_of_lt (secondes_mono hclock) hexp⟩
  · rintro ⟨-, c, hc, ha, hexp⟩
    have hclock : (s.tick { now := s.clock }).clock = s.clock := max_self _
    have hv : verified κ (s.tick { now := s.clock }) ticket config.ticketSecret (some audience) =
        some c := by
      rw [verified_eq_some, hclock]
      exact ⟨hc, hexp, .inr ha⟩
    -- late enough, no identifier is remembered
    obtain ⟨now, hnow⟩ := exists_later s.consommes
    obtain ⟨-, hx⟩ := exec_consommer κ (s.tick { now := s.clock }) (c.jti.getD "") c.exp { now }
    refine ⟨{ sub := c.sub, role := c.role }, ((backend κ).exec
      (.inr (.consommer (c.jti.getD "") c.exp)) { now } (s.tick { now := s.clock })).2,
      runs_jwtVerify.mpr ⟨{ now := s.clock }, ?_⟩⟩
    rw [hv]
    refine ⟨{ now }, ?_⟩
    rw [hx.mpr fun x hx _ => lt_of_lt_of_le (hnow x hx) (le_max_right _ _)]
    exact ⟨rfl, rfl⟩

/-- A handshake is accepted, at some time, exactly if it is admitted. -/
theorem authenticate_ok {client : Handshake κ} : (∃ payload s', (backend κ).Runs
      (WsJwtAuthGuard.authenticate config client) s (.ok payload) s') ↔
    Admitted config s client := by
  unfold WsJwtAuthGuard.authenticate Admitted
  rcases client.ticket with - | ticket
  swap
  · exact consume_ok
  rcases ht : WsJwtAuthGuard.extractToken client with - | token
  · constructor
    · rintro ⟨payload, s', h, -⟩
      cases h
    · rintro ⟨token, ht, -⟩
      cases ht
  constructor
  · rintro ⟨payload, s', h⟩
    obtain ⟨e, h⟩ := runs_jwtVerify.mp h
    rcases hv : verified κ (s.tick e) token config.accessSecret none with - | c
    · rw [hv] at h
      cases h.1
    · obtain ⟨hc, hexp, -⟩ := verified_eq_some.mp hv
      exact ⟨token, rfl, c, hc, lt_of_le_of_lt (secondes_mono (Quiet.tick e s).clock) hexp⟩
  · rintro ⟨token', ht', c, hc, hexp⟩
    cases ht'
    have hclock : (s.tick { now := s.clock }).clock = s.clock := max_self _
    have hv : verified κ (s.tick { now := s.clock }) token config.accessSecret none = some c := by
      rw [verified_eq_some, hclock]
      exact ⟨hc, hexp, .inl rfl⟩
    refine ⟨c.toJwtPayload, s.tick { now := s.clock }, runs_jwtVerify.mpr ⟨{ now := s.clock }, ?_⟩⟩
    rw [hv]
    exact ⟨rfl, rfl⟩

theorem handshake_refused_iff {client : Handshake κ} :
    (handshake client).Refused config s ↔ ¬ Admitted config s client := by
  rw [← authenticate_ok]
  constructor
  · rintro h ⟨payload, s', hr⟩
    obtain ⟨x, hx⟩ := h (.ok ()) s' (Backend.runs_bind.mpr (.inl ⟨payload, s', hr, rfl, rfl⟩))
    cases hx
  · intro h r s' hr
    refine Backend.refuses_void (fun r s' hr => ?_) hr
    rcases r with x | payload
    · exact ⟨x, rfl⟩
    · exact (h ⟨payload, s', hr⟩).elim

end Handshake

/-- **Suspension.** An entry point refuses the credential of a suspended account, exactly if it is
not a websocket handshake with a ticket or an access token that is still valid. -/
theorem suspended_refused_iff {config : AppConfig} {s : Store} {q : Entry κ} {u : UserId}
    {user : User} (ho : q.owner config s = some u) (hu : s.app.users[u]? = some user)
    (ha : user.isActive = false) :
    q.Refused config s ↔ ∀ client, q = .handshake client → ¬ Admitted config s client := by
  cases q with
  | handshake client =>
    rw [handshake_refused_iff]
    constructor
    · rintro h _ ⟨⟩
      exact h
    · exact fun h => h client rfl
  | access payload =>
    cases ho
    exact iff_of_true (access_refused hu ha) (by rintro _ ⟨⟩)
  | refresh t =>
    obtain ⟨c, hc, rfl⟩ := Option.map_eq_some_iff.mp ho
    exact iff_of_true (refresh_refused hc hu ha) (by rintro _ ⟨⟩)
  | otp contact code fullName =>
    exact iff_of_true (otp_refused ho hu ha) (by rintro _ ⟨⟩)
  | login email pw =>
    exact iff_of_true (login_refused ho hu ha) (by rintro _ ⟨⟩)
  | reset token pw =>
    obtain ⟨x, hx, rfl⟩ := Option.map_eq_some_iff.mp ho
    have hu' := resetTokenOf_user (s := s) hx
    cases hu.symm.trans hu'
    exact iff_of_true (reset_refused hx ha) (by rintro _ ⟨⟩)

/-- The owner is suspended. -/
def suspendu : Store where
  app := { users := [{ User.exemple with isActive := false }] }

/-- A handshake with an access token of the owner. -/
def avecToken : Handshake Crypto.exemple where
  token := some (Crypto.exemple.sign "access" { JwtPayload.exemple with exp := 900 })

/-- A handshake with a ticket of the owner. -/
def avecTicket : Handshake Crypto.exemple where
  ticket := some (Crypto.exemple.sign "ticket"
    { sub := 0, role := .agency, exp := 30, aud := some audience, jti := some "1" })

theorem suspended_refused_exemple :
    (handshake avecToken).Refused .exemple suspendu ↔
      ∀ client, handshake avecToken = .handshake client → ¬ Admitted .exemple suspendu client :=
  suspended_refused_iff (u := 0) rfl rfl rfl

/-- A suspended account passes the handshake, with an access token and with a ticket. -/
theorem suspended_admitted :
    (suspendu.app.users[0]?).map (·.isActive) = some false ∧
      (∃ s', (backend Crypto.exemple).Runs (WsJwtAuthGuard.authenticate .exemple avecToken) suspendu
        (.ok JwtPayload.exemple) s') ∧
      ∃ s', (backend Crypto.exemple).Runs (WsJwtAuthGuard.authenticate .exemple avecTicket) suspendu
        (.ok { sub := 0, role := .agency }) s' :=
  ⟨rfl, ⟨_, Backend.runs_of_eval (e := {}) (by decide +kernel)⟩,
    ⟨_, Backend.runs_of_eval (e := {}) (by decide +kernel)⟩⟩

end Entry

end OumraHajj.Auth
