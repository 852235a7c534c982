import OumraHajj.Auth.Crypto

/-!
# Authentication: rows and statements

The rows of `refresh_tokens`, `otps` and `password_reset_tokens`, beside the rest of the database,
and the tickets that `RealtimeTicketService` keeps in memory until they expire. No service deletes a
refresh token; a deleted code or reset token leaves `none` in its table.

`requestOtp` and `requestReset` also draw a code or a token and send it; a sending may fail (`envoi`).

As for the disputes, the clock never goes back: a statement is executed at the later of the time in
its environment and the time of the last one. What reads the clock is a statement, so the calls of
`jsonwebtoken` are (`jwtSign`, `jwtVerify`). `Env` adds to what the outside world contributes the
salt that bcrypt draws and the order in which `refreshToken.findMany`, which asks for none, answers.
-/

namespace OumraHajj.Auth

open Async

abbrev RefreshTokenId := Nat
abbrev OtpId := Nat

/-- What the code of `configuration.ts` configures; the durations are in seconds. -/
structure AppConfig where
  accessSecret : String
  accessExpiresIn : Int
  refreshSecret : String
  refreshExpiresIn : Int
  ticketSecret : String
  otpTtlSeconds : Int
  otpCodeLength : Nat
  resetTtlMinutes : Int
  webAppUrl : String
  /-- `available` of the mailer that was chosen for the reset links. -/
  resetMailerAvailable : Bool

inductive OtpContact where
  | phone (phone : String)
  | email (email : String)
  deriving DecidableEq

structure RefreshToken where
  userId : UserId
  tokenHash : String
  expiresAt : Time
  revoked : Bool := false
  deriving DecidableEq

structure Otp where
  contact : OtpContact
  codeHash : String
  expiresAt : Time
  attempts : Nat := 0
  createdAt : Time

structure PasswordResetToken where
  userId : UserId
  tokenHash : String
  expiresAt : Time

structure Store where
  app : Db := {}
  clock : Time := 0
  refreshTokens : Table RefreshToken := []
  otps : Table (Option Otp) := []
  passwordResetTokens : Table (Option PasswordResetToken) := []
  /-- `consommes`: the identifiers of the used tickets, with their expiration. -/
  consommes : List (String × Time) := []

structure Env extends OumraHajj.Env where
  salt : Nat := 0
  ordre : RefreshTokenId → Nat := id
  /-- What `randomInt` draws, before it is reduced to its range. -/
  alea : Nat := 0
  /-- What `randomBytes` draws, in base64url. -/
  octets : String := ""
  /-- The error of a sending. -/
  envoi : Option Erreur := none

/-- `Math.floor(now / 1000)`. -/
def secondes (now : Time) : Int := now.fdiv 1000

/-- The row of a session that is not revoked nor expired. -/
def RefreshToken.live (now : Time) (row : RefreshToken) : Bool :=
  !row.revoked && decide (now < row.expiresAt)

section Statements

variable (κ : Crypto)

inductive Stmt where
  /-- `signAsync(payload, { secret, expiresIn })`. -/
  | jwtSign (payload : JwtPayload) (secret : String) (expiresIn : Int)
  /-- `verifyAsync(token, { secret, audience })`. -/
  | jwtVerify (token : κ.Token) (secret : String) (audience : Option String)
  /-- `crypto.randomInt(0, max)`. -/
  | randomInt (max : Nat)
  /-- `randomBytes(size).toString('base64url')`. -/
  | randomBytes (size : Nat)
  | otpDeleteMany (contact : OtpContact)
  | otpCreate (contact : OtpContact) (codeHash : String) (expiresAt : Time)
  /-- `otpSender.send`, `emailOtpSender.send`. -/
  | otpSend (contact : OtpContact) (code : String)
  /-- `where: contact`, the newest first. -/
  | otpFindFirst (contact : OtpContact)
  /-- `data: { attempts: { increment: 1 } }`. -/
  | otpUpdate (id : OtpId)
  | otpDelete (id : OtpId)
  /-- `where: { userId, revoked: false, expiresAt: { gt: new Date() } }`. -/
  | refreshTokenFindMany (userId : UserId)
  /-- `data: { revoked: true }`. -/
  | refreshTokenUpdate (id : RefreshTokenId)
  | refreshTokenCreate (userId : UserId) (tokenHash : String) (expiresAt : Time)
  /-- `where: { tokenHash }`, with its user. -/
  | passwordResetTokenFindUnique (tokenHash : String)
  /-- The transaction of `requestReset`. -/
  | passwordResetTokenReplace (userId : UserId) (tokenHash : String) (expiresAt : Time)
  /-- `mailer.send`. -/
  | mailerSend (email resetUrl : String) (ttlMinutes : Int)
  /-- The transaction of `resetPassword`. -/
  | passwordReset (userId : UserId) (passwordHash : String)
  /-- What `consume` does after the verification. -/
  | consommer (jti : String) (exp : Int)

/-- The answer of each statement; `none` where the call is rejected. -/
def Resp : Stmt κ → Type
  | .jwtSign _ _ _ => κ.Token
  | .jwtVerify _ _ _ => Option Claims
  | .randomInt _ => Nat
  | .randomBytes _ => String
  | .otpDeleteMany _ => Nat
  | .otpCreate _ _ _ => Unit
  | .otpSend _ _ => Except Erreur Unit
  | .otpFindFirst _ => Option (OtpId × Otp)
  | .otpUpdate _ => Option Unit
  | .otpDelete _ => Option Unit
  | .refreshTokenFindMany _ => List (RefreshTokenId × RefreshToken)
  | .refreshTokenUpdate _ => Option Unit
  | .refreshTokenCreate _ _ _ => Option Unit
  | .passwordResetTokenFindUnique _ => Option (PasswordResetToken × User)
  | .passwordResetTokenReplace _ _ _ => Except String Unit
  | .mailerSend _ _ _ => Except Erreur Unit
  | .passwordReset _ _ => Option Unit
  | .consommer _ _ => Bool

/-- The statements of the authentication and of the other services. -/
abbrev sig : Sig := prismaSig.sum ⟨Stmt κ, Resp κ⟩

end Statements

namespace Store

/-- The time of the next statement. -/
def tick (e : Env) (s : Store) : Store := { s with clock := max s.clock e.now }

/-- The live sessions of a user, with their identifiers. -/
def liveOf (s : Store) (userId : UserId) : List (RefreshTokenId × RefreshToken) :=
  s.refreshTokens.findMany fun row => row.userId = userId && row.live s.clock

/-- The reset token of a hash, with its user. -/
def resetTokenOf (s : Store) (tokenHash : String) : Option (PasswordResetToken × User) :=
  ((s.passwordResetTokens.findFirst fun row => row.any (·.tokenHash = tokenHash)).bind
    Prod.snd).bind fun record => (s.app.users[record.userId]?).map fun user => (record, user)

/-- The outcome of a sending. -/
def outcome (envoi : Option Erreur) : Except Erreur Unit :=
  match envoi with
  | some e => .error e
  | none => .ok ()

end Store

section Exec

variable {κ : Crypto}

/-- What a statement answers at the time of the clock, and the store after it. -/
def exec : (c : Stmt κ) → Env → Store → Resp κ c × Store
  | .jwtSign payload secret expiresIn, _, s =>
    (κ.sign secret { payload with exp := secondes s.clock + expiresIn }, s)
  | .jwtVerify token secret audience, _, s =>
    ((κ.verify secret token).filter fun c =>
      decide (secondes s.clock < c.exp) && (audience.isNone || c.aud = audience), s)
  | .randomInt max, e, s => (e.alea % max, s)
  | .randomBytes _, e, s => (e.octets, s)
  | .otpDeleteMany contact, _, s =>
    (s.otps.countP fun row => row.any (·.contact = contact),
      { s with otps := s.otps.map fun row => row.filter (·.contact ≠ contact) })
  | .otpCreate contact codeHash expiresAt, _, s =>
    ((), { s with otps := s.otps ++ [some { contact, codeHash, expiresAt, createdAt := s.clock }] })
  | .otpSend _ _, e, s => (Store.outcome e.envoi, s)
  | .otpFindFirst contact, _, s =>
    ((((s.otps.findMany fun row => row.any (·.contact = contact)).filterMap fun (id, row) =>
      row.map fun otp => (id, otp)).insertionSort
        fun x y => y.2.createdAt ≤ x.2.createdAt).head?, s)
  | .otpUpdate id, _, s =>
    match s.otps.row id with
    | some otp =>
      (some (), { s with otps := s.otps.set id (some { otp with attempts := otp.attempts + 1 }) })
    | none => (none, s)
  | .otpDelete id, _, s =>
    match s.otps.row id with
    | some _ => (some (), { s with otps := s.otps.set id none })
    | none => (none, s)
  | .refreshTokenFindMany userId, e, s =>
    ((s.liveOf userId).insertionSort fun x y => e.ordre x.1 ≤ e.ordre y.1, s)
  | .refreshTokenUpdate id, _, s =>
    match s.refreshTokens[id]? with
    | some row =>
      (some (), { s with refreshTokens := s.refreshTokens.set id { row with revoked := true } })
    | none => (none, s)
  | .refreshTokenCreate userId tokenHash expiresAt, _, s =>
    match s.app.users[userId]? with
    | some _ =>
      (some (), { s with refreshTokens := s.refreshTokens ++ [{ userId, tokenHash, expiresAt }] })
    | none => (none, s)
  | .passwordResetTokenFindUnique tokenHash, _, s => (s.resetTokenOf tokenHash, s)
  | .passwordResetTokenReplace userId tokenHash expiresAt, _, s =>
    let rows := s.passwordResetTokens.map fun row => row.filter (·.userId ≠ userId)
    match s.app.users[userId]?, rows.any fun row => row.any (·.tokenHash = tokenHash) with
    | none, _ => (.error "P2003", s)
    | some _, true => (.error "P2002", s)
    | some _, false =>
      (.ok (), { s with passwordResetTokens := rows ++ [some { userId, tokenHash, expiresAt }] })
  | .mailerSend _ _ _, e, s => (Store.outcome e.envoi, s)
  | .passwordReset userId passwordHash, _, s =>
    match s.app.users[userId]? with
    | some user =>
      (some (), { s with
        app := { s.app with
          users := s.app.users.set userId { user with passwordHash := some passwordHash } }
        passwordResetTokens :=
          s.passwordResetTokens.map fun row => row.filter (·.userId ≠ userId)
        refreshTokens := s.refreshTokens.map fun row =>
          if row.userId = userId then { row with revoked := true } else row })
    | none => (none, s)
  | .consommer jti exp, _, s =>
    let gardes := s.consommes.filter fun x => !decide (x.2 < s.clock)
    match gardes.any (·.1 = jti) with
    | true => (false, { s with consommes := gardes })
    | false => (true, { s with consommes := gardes ++ [(jti, exp * 1000)] })

variable (κ) in
/-- The backend of the authentication. -/
def backend : Backend (sig κ) Store Env where
  exec
    | .inl c, e, s =>
      let env : OumraHajj.Env :=
        { e.toEnv with now := (s.tick e).clock, bcryptHash := κ.hash e.salt }
      let r := prisma.exec c env s.app
      (r.1, { s.tick e with app := r.2 })
    | .inr c, e, s => exec c e (s.tick e)

end Exec

/-- A request handler. -/
abbrev Req (κ : Crypto) := Prog (sig κ) Erreur

/-- Execute one statement. -/
abbrev await {κ : Crypto} (c : Stmt κ) : Req κ (Resp κ c) := @Prog.exec (sig κ) _ (.inr c)

end OumraHajj.Auth
