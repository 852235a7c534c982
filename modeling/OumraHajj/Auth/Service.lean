import OumraHajj.Auth.Store
import OumraHajj.Services.Requests

/-!
# The services of the authentication

`AuthService` (`src/modules/auth/auth.service.ts`), `PasswordResetService`
(`src/modules/auth/password-reset/password-reset.service.ts`), `JwtStrategy.validate`, which reads the account of an access
token whose signature and expiration `passport-jwt` has checked, `RealtimeTicketService.consume` and
`WsJwtAuthGuard.authenticate`, the authentication of a websocket.
-/

namespace OumraHajj.Auth

open Async

/-- `MAX_OTP_ATTEMPTS`. -/
def maxOtpAttempts : Nat := 5

/-- `OTP_ROLES`. -/
def otpRoles : Role → Bool
  | .pilgrim => true
  | .guide => true
  | _ => false

/-- `RESET_ROLES`. -/
def resetRoles : Role → Bool
  | .agency => true
  | .admin => true
  | _ => false

/-- `WEB_APP_URL_LOCALE`. -/
def webAppUrlLocale : String := "http://localhost:3010"

/-- The answer of `requestOtp` and of `requestReset`. -/
structure Sent where
  sent : Bool
  deriving DecidableEq

/-- `value.toString().padStart(length, '0')`. -/
def padStart (value length : Nat) : String :=
  String.ofList (List.leftpad length '0' (Nat.toDigits 10 value))

/-- `AUDIENCE` of the tickets. -/
def audience : String := "ws"

structure Identity where
  id : UserId
  role : Role
  phone : Option String
  email : Option String

/-- The `payload` of `issueTokens`. -/
def Identity.payload (user : Identity) : JwtPayload :=
  { sub := user.id, role := user.role, phone := user.phone, email := user.email }

def toIdentity (user : UserShape) : Identity := ⟨user.id, user.role, user.phone, user.email⟩

structure AuthTokens (κ : Crypto) where
  accessToken : κ.Token
  refreshToken : κ.Token

/-- The proofs of a websocket handshake; `none`: absent or empty. -/
structure Handshake (κ : Crypto) where
  /-- `auth.ticket`. -/
  ticket : Option κ.Token := none
  /-- `auth.token`. -/
  token : Option κ.Token := none
  /-- What follows `Bearer ` in the header `authorization`. -/
  bearer : Option κ.Token := none

section Services

variable {κ : Crypto} (config : AppConfig)

namespace AuthService

def issueTokens (user : Identity) : Req κ (AuthTokens κ) := do
  let accessToken : κ.Token ←
    await (.jwtSign user.payload config.accessSecret config.accessExpiresIn)
  let refreshToken : κ.Token ←
    await (.jwtSign user.payload config.refreshSecret config.refreshExpiresIn)
  let decoded := κ.decode refreshToken
  let tokenHash : String ← Prog.left (OumraHajj.await (.bcryptHash (κ.text refreshToken)))
  match ← await (.refreshTokenCreate user.id tokenHash (decoded.exp * 1000)) with
  | none => .fail (.prisma "P2003")
  | some _ => return { accessToken, refreshToken }

def findMatchingRefreshToken (userId : UserId) (rawRefreshToken : κ.Token) :
    Req κ (Option RefreshTokenId) := do
  let candidates ← await (.refreshTokenFindMany userId)
  return (candidates.find? fun candidate =>
    κ.compare (κ.text rawRefreshToken) candidate.2.tokenHash).map Prod.fst

def findByContact : OtpContact → Req κ (Option UserShape)
  | .email email => Prog.left (UsersService.findByEmail κ.toLowerCase email)
  | .phone phone => Prog.left (UsersService.findByPhone phone)

def otpAllowedForEmail (email : String) : Req κ Bool := do
  let user ← Prog.left (UsersService.findByEmail κ.toLowerCase email)
  return user.all fun user => otpRoles user.role

/-- A contact by telephone gets its code; so does an address that `otpAllowedForEmail` allows. -/
def otpAllowed : OtpContact → Req κ Bool
  | .email email => otpAllowedForEmail email
  | .phone _ => return true

def generateNumericCode (length : Nat) : Req κ String := do
  let value : Nat ← await (.randomInt (10 ^ length))
  return padStart value length

def requestOtp (contact : OtpContact) : Req κ Sent := do
  let allowed ← otpAllowed contact
  if allowed = false then return { sent := true }
  else
    let code ← generateNumericCode config.otpCodeLength
    let codeHash : String ← Prog.left (OumraHajj.await (.bcryptHash code))
    let _ ← await (.otpDeleteMany contact)
    let now : Time ← Prog.left (OumraHajj.await .now)
    let _ ← await (.otpCreate contact codeHash (now + config.otpTtlSeconds * 1000))
    match ← await (.otpSend contact code) with
    | .error e => .fail e
    | .ok _ => return { sent := true }

/-- The account of a contact, created at the first login. -/
def findOrCreate (contact : OtpContact) (fullName : Option String) : Req κ UserShape := do
  match ← findByContact contact with
  | some user => return user
  | none =>
    Prog.left (UsersService.create κ.toLowerCase
      { fullName := fullName.getD "Pèlerin"
        phone := match contact with
          | .phone phone => some phone
          | .email _ => none
        email := match contact with
          | .email email => some email
          | .phone _ => none
        role := .pilgrim })

def verifyOtp (contact : OtpContact) (code : String) (fullName : Option String) :
    Req κ (AuthTokens κ) := do
  match ← await (.otpFindFirst contact) with
  | none => .fail (.unauthorized "Code invalide ou expiré")
  | some (id, otp) =>
    let now : Time ← Prog.left (OumraHajj.await .now)
    if otp.expiresAt < now then .fail (.unauthorized "Code invalide ou expiré")
    else if otp.attempts ≥ maxOtpAttempts then
      .fail (.unauthorized "Nombre maximal de tentatives atteint, redemandez un code")
    else if κ.compare code otp.codeHash = false then
      match ← await (.otpUpdate id) with
      | none => .fail (.prisma "P2025")
      | some _ => .fail (.unauthorized "Code invalide ou expiré")
    else
      match ← await (.otpDelete id) with
      | none => .fail (.prisma "P2025")
      | some _ =>
        let user ← findOrCreate contact fullName
        if otpRoles user.role = false then .fail (.unauthorized "Code invalide ou expiré")
        else if user.isActive = false then .fail (.unauthorized "Compte suspendu")
        else issueTokens config (toIdentity user)

def validateAgencyOrAdmin (email password : String) : Req κ (AuthTokens κ) := do
  match ← Prog.left (UsersService.findByEmailWithPassword κ.toLowerCase email) with
  | none => .fail (.unauthorized "Identifiants invalides")
  | some (id, user) =>
    match user.passwordHash with
    | none => .fail (.unauthorized "Identifiants invalides")
    | some passwordHash =>
      if κ.compare password passwordHash = false then
        .fail (.unauthorized "Identifiants invalides")
      else if user.isActive = false then .fail (.unauthorized "Compte suspendu")
      else issueTokens config ⟨id, user.role, user.phone, user.email⟩

def refresh (rawRefreshToken : κ.Token) : Req κ (AuthTokens κ) := do
  match ← await (.jwtVerify rawRefreshToken config.refreshSecret none) with
  | none => .fail (.unauthorized "Refresh token invalide")
  | some payload =>
    match ← findMatchingRefreshToken payload.sub rawRefreshToken with
    | none => .fail (.unauthorized "Refresh token invalide")
    | some stored =>
      let user ← Prog.left (UsersService.findByIdOrFail payload.sub)
      if user.isActive = false then .fail (.unauthorized "Compte suspendu")
      else
        match ← await (.refreshTokenUpdate stored) with
        | none => .fail (.prisma "P2025")
        | some _ => issueTokens config (toIdentity user)

def logout (userId : UserId) (rawRefreshToken : κ.Token) : Req κ Unit := do
  match ← findMatchingRefreshToken userId rawRefreshToken with
  | none => return ()
  | some stored =>
    match ← await (.refreshTokenUpdate stored) with
    | none => .fail (.prisma "P2025")
    | some _ => return ()

end AuthService

namespace PasswordResetService

/-- `LIEN_INVALIDE`. -/
def lienInvalide : String := "Lien invalide ou expiré"

def requestReset (email : String) : Req κ Sent := do
  if config.resetMailerAvailable = false then
    .fail (.serviceUnavailable
      "La réinitialisation du mot de passe n'est pas encore disponible")
  else
    match ← Prog.left (UsersService.findByEmailWithPassword κ.toLowerCase email) with
    | none => return { sent := true }
    | some (id, user) =>
      -- a column that is null or empty is falsy
      if user.passwordHash.getD "" = "" then return { sent := true }
      else if user.email.getD "" = "" then return { sent := true }
      else if user.isActive = false then return { sent := true }
      else if resetRoles user.role = false then return { sent := true }
      else
        let token : String ← await (.randomBytes 32)
        let now : Time ← Prog.left (OumraHajj.await .now)
        match ← await (.passwordResetTokenReplace id (κ.sha256 token)
          (now + config.resetTtlMinutes * 60000)) with
        | .error code => .fail (.prisma code)
        | .ok _ =>
          match κ.url "/reset-password"
            (if config.webAppUrl = "" then webAppUrlLocale else config.webAppUrl)
            ("token=" ++ token) with
          | none => .fail (.autre "TypeError")
          | some resetUrl =>
            -- an error of the mailer is logged
            let _ ← await (.mailerSend (user.email.getD "") resetUrl config.resetTtlMinutes)
            return { sent := true }

def resetPassword (token newPassword : String) : Req κ Unit := do
  match ← await (.passwordResetTokenFindUnique (κ.sha256 token)) with
  | none => .fail (.badRequest lienInvalide)
  | some (record, user) =>
    let now : Time ← Prog.left (OumraHajj.await .now)
    if record.expiresAt < now then .fail (.badRequest lienInvalide)
    else if user.isActive = false then .fail (.badRequest lienInvalide)
    else
      let passwordHash ← Prog.left (OumraHajj.await (.bcryptHash newPassword))
      match ← await (.passwordReset record.userId passwordHash) with
      | none => .fail (.prisma "P2025")
      | some _ => return ()

end PasswordResetService

namespace JwtStrategy

def validate (payload : JwtPayload) : Req κ JwtPayload := do
  let user ← Prog.left (UsersService.findById payload.sub)
  if user.any (·.isActive) = false then
    .fail (.unauthorized "Compte introuvable ou suspendu")
  else return payload

end JwtStrategy

namespace RealtimeTicketService

def consume (ticket : κ.Token) : Req κ JwtPayload := do
  if config.ticketSecret = "" then .fail (.unauthorized "Temps réel non configuré")
  else
    match ← await (.jwtVerify ticket config.ticketSecret (some audience)) with
    | none => .fail (.unauthorized "Ticket invalide ou expiré")
    | some payload =>
      match ← await (.consommer (payload.jti.getD "") payload.exp) with
      | false => .fail (.unauthorized "Ticket déjà utilisé")
      | true => return { sub := payload.sub, role := payload.role }

end RealtimeTicketService

namespace WsJwtAuthGuard

def extractToken (client : Handshake κ) : Option κ.Token := client.token.or client.bearer

def authenticate (client : Handshake κ) : Req κ JwtPayload := do
  match client.ticket with
  | some ticket => RealtimeTicketService.consume config ticket
  | none =>
    match extractToken client with
    | none => .fail (.unauthorized "Token manquant")
    | some token =>
      match ← await (.jwtVerify token config.accessSecret none) with
      | none => .fail (.unauthorized "Token invalide ou expiré")
      | some payload => return payload.toJwtPayload

end WsJwtAuthGuard

end Services

/-! ## An example -/

def AppConfig.exemple : AppConfig where
  accessSecret := "access"
  accessExpiresIn := 900
  refreshSecret := "refresh"
  refreshExpiresIn := 2592000
  ticketSecret := "ticket"
  otpTtlSeconds := 300
  otpCodeLength := 6
  resetTtlMinutes := 30
  webAppUrl := "https://app.exemple.gn"
  resetMailerAvailable := true

/-- The owner of an agency (user 0), with a password. -/
def User.exemple : User where
  fullName := "Gérante"
  email := some "contact@agence.gn"
  passwordHash := some (Crypto.exemple.hash 0 "motdepasse")
  role := .agency

def Store.exemple : Store where
  app := { users := [User.exemple] }

/-- What the tokens of the owner say of her. -/
def JwtPayload.exemple : JwtPayload where
  sub := 0
  role := .agency
  email := some "contact@agence.gn"

/-- Her refresh token of a second. -/
def jeton (emis : Int) : Crypto.exemple.Token :=
  Crypto.exemple.sign "refresh" { JwtPayload.exemple with exp := emis + 2592000 }

/-- She has a session, which was opened with `jeton 0`. -/
def Store.connecte : Store :=
  { Store.exemple with refreshTokens := [
    { userId := 0
      tokenHash := Crypto.exemple.hash 0 (Crypto.exemple.text (jeton 0))
      expiresAt := 2592000000 }] }

/-- The handlers take turns, in the order given. -/
def tours {n : Nat} (l : List Nat) : List (Fin (n + 1) × Env) :=
  (turns l).map fun x => (x.1, {})

end OumraHajj.Auth
