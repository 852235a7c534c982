import OumraHajj.Auth.Service

/-!
# What the answers reveal

What `requestOtp` and `requestReset` answer in two databases that differ in the account of an
address. `requestReset` answers the same in both (`requestReset_discreet`): it catches the errors of
the mailer. `requestOtp` does not: an excluded address is answered before anything is sent, and an
error of the sender is the answer for the others (`requestOtp_discreet_iff`).
-/

namespace OumraHajj.Auth

open Async

namespace Discretion

variable {κ : Crypto} {config : AppConfig}

/-- The account of an address. -/
def accountAt (κ : Crypto) (s : Store) (email : String) : Option User :=
  (s.app.users.findFirst (·.email = some (κ.toLowerCase email))).map Prod.snd

/-- The two spellings are those of one address. -/
def SameAddress (κ : Crypto) (email email' : String) : Prop :=
  κ.toLowerCase email = κ.toLowerCase email'

/-- The databases agree on the accounts of the other addresses. -/
def AgreeBut (κ : Crypto) (address : String) (s₁ s₂ : Store) : Prop :=
  ∀ email, ¬ SameAddress κ email address → accountAt κ s₁ email = accountAt κ s₂ email

/-! ## The codes -/

/-- A call of `requestOtp`, with the error of the sender if it is asked to send. -/
structure OtpCall where
  contact : OtpContact
  envoi : Option Erreur

/-- A code is sent to the contact. -/
def allowed (κ : Crypto) (s : Store) : OtpContact → Bool
  | .email email => (accountAt κ s email).all fun user => otpRoles user.role
  | .phone _ => true

/-- The calls run one after the other and answer `rs`. -/
def Answers (config : AppConfig) : Store → List OtpCall → List (Except Erreur Sent) → Prop
  | _, [], rs => rs = []
  | s, q :: qs, rs => ∃ env : (sig κ).Stmt → Env,
      (∀ code, (env (.inr (.otpSend q.contact code))).envoi = q.envoi) ∧
      ∃ rs', rs = ((backend κ).evalBy env (AuthService.requestOtp config q.contact) s).1 :: rs' ∧
        Answers config ((backend κ).evalBy env (AuthService.requestOtp config q.contact) s).2 qs rs'

/-- What a call answers. -/
def answer (κ : Crypto) (s : Store) (q : OtpCall) : Except Erreur Sent :=
  if allowed κ s q.contact = false then .ok { sent := true }
  else match q.envoi with
    | some e => .error e
    | none => .ok { sent := true }

theorem otpAllowed_eval (env : (sig κ).Stmt → Env) (contact : OtpContact) (s : Store) :
    ∃ s', (backend κ).evalBy env (AuthService.otpAllowed contact) s =
      (.ok (allowed κ s contact), s') ∧ s'.app = s.app := by
  cases contact with
  | phone phone => exact ⟨s, rfl, rfl⟩
  | email email =>
    refine ⟨s.tick (env (.inl (.userFindByEmail (κ.toLowerCase email)))), ?_, rfl⟩
    have hall : ((s.app.users.findFirst (·.email = some (κ.toLowerCase email))).map
        fun x => toUserShape x.1 x.2).all (fun user => otpRoles user.role) =
        allowed κ s (.email email) := by
      rw [allowed, accountAt]
      cases s.app.users.findFirst (·.email = some (κ.toLowerCase email)) <;> rfl
    exact congrArg (fun x => (Except.ok x, s.tick _)) hall

/-- The handler answers `x`, and the accounts stay those of `app`. -/
def Says (env : (sig κ).Stmt → Env) (x : Except Erreur Sent) (app : Db) (p : Req κ Sent)
    (s : Store) : Prop :=
  ((backend κ).evalBy env p s).1 = x ∧ ((backend κ).evalBy env p s).2.app = app

theorem says_call {env : (sig κ).Stmt → Env} {x : Except Erreur Sent} {app : Db} {s : Store}
    {c : (sig κ).Stmt} {k : (sig κ).Resp c → Req κ Sent} (hs : s.app = app)
    (hc : ∀ s, ((backend κ).exec c (env c) s).2.app = s.app)
    (hk : ∀ a s', s'.app = app → Says env x app (k a) s') : Says env x app (.call c k) s :=
  hk _ _ ((hc s).trans hs)

/-- The sender answers. -/
theorem says_otpSend {env : (sig κ).Stmt → Env} {x : Except Erreur Sent} {app : Db} {s : Store}
    {contact : OtpContact} {code : String} {envoi : Option Erreur} {k : Except Erreur Unit → Req κ Sent}
    (henv : (env (.inr (.otpSend contact code))).envoi = envoi) (hs : s.app = app)
    (hk : ∀ s', s'.app = app → Says env x app (k (Store.outcome envoi)) s') :
    Says env x app (.call (.inr (.otpSend contact code)) k) s := by
  rw [← henv] at hk
  exact hk _ hs

variable (config) in
theorem requestOtp_says {env : (sig κ).Stmt → Env} {q : OtpCall} (s : Store)
    (henv : ∀ code, (env (.inr (.otpSend q.contact code))).envoi = q.envoi) :
    Says env (answer κ s q) s.app (AuthService.requestOtp config q.contact) s := by
  obtain ⟨s₁, hs, happ⟩ := otpAllowed_eval env q.contact s
  rw [Says, AuthService.requestOtp, Prog.bind_eq, Backend.evalBy_bind_ok hs, answer, ← Says]
  by_cases ha : allowed κ s q.contact = false
  · rw [if_pos ha, if_pos ha]
    exact ⟨rfl, happ⟩
  · rw [if_neg ha, if_neg ha]
    refine says_call happ (fun _ => rfl) fun value s₂ h₂ => ?_
    refine says_call h₂ (fun _ => rfl) fun codeHash s₃ h₃ => ?_
    refine says_call h₃ (fun _ => rfl) fun deleted s₄ h₄ => ?_
    refine says_call h₄ (fun _ => rfl) fun now s₅ h₅ => ?_
    refine says_call h₅ (fun _ => rfl) fun created s₆ h₆ => ?_
    refine says_otpSend (henv _) h₆ fun s₇ h₇ => ?_
    cases q.envoi <;> exact ⟨rfl, h₇⟩

theorem answer_congr {s s' : Store} (h : s'.app = s.app) (q : OtpCall) :
    answer κ s' q = answer κ s q := by
  have hallowed : allowed κ s' q.contact = allowed κ s q.contact := by
    cases q.contact with
    | phone phone => rfl
    | email email => rw [allowed, allowed, accountAt, accountAt, h]
  rw [answer, answer, hallowed]

theorem Answers.eq_map {s : Store} {qs : List OtpCall} {rs : List (Except Erreur Sent)}
    (h : Answers (κ := κ) config s qs rs) : rs = qs.map (answer κ s) := by
  induction qs generalizing s rs with
  | nil => exact h
  | cons q qs ih =>
    obtain ⟨env, henv, rs', rfl, h⟩ := h
    obtain ⟨hr, happ⟩ := requestOtp_says config s henv
    rw [List.map_cons, hr, ih h]
    exact congrArg _ (List.map_congr_left fun q _ => answer_congr happ q)

/-- The call is about the address. -/
def OtpCall.At (κ : Crypto) (address : String) (q : OtpCall) : Prop :=
  ∃ email, q.contact = .email email ∧ SameAddress κ email address

theorem allowed_of_not_at {address : String} {s₁ s₂ : Store} (h : AgreeBut κ address s₁ s₂)
    {q : OtpCall} (hq : ¬ q.At κ address) : allowed κ s₁ q.contact = allowed κ s₂ q.contact := by
  rcases hc : q.contact with phone | email
  · rfl
  · rw [allowed, allowed, h email fun hs => hq ⟨email, hc, hs⟩]

theorem allowed_at {address : String} {s : Store} {q : OtpCall} (hq : q.At κ address) :
    allowed κ s q.contact = allowed κ s (.email address) := by
  obtain ⟨email, hc, hs⟩ := hq
  rw [hc, allowed, allowed, accountAt, accountAt, hs]

/-- Two databases answer a call alike unless they disagree on it and the sender fails. -/
theorem answer_eq_iff {s₁ s₂ : Store} {q : OtpCall} :
    answer κ s₁ q = answer κ s₂ q ↔
      allowed κ s₁ q.contact = allowed κ s₂ q.contact ∨ q.envoi = none := by
  rw [answer, answer]
  cases allowed κ s₁ q.contact <;> cases allowed κ s₂ q.contact <;> cases q.envoi <;> simp

/-- **When the answers of `requestOtp` reveal nothing of an account.** -/
theorem requestOtp_discreet_iff {address : String} {s₁ s₂ : Store} (h : AgreeBut κ address s₁ s₂)
    {qs : List OtpCall} {rs₁ rs₂ : List (Except Erreur Sent)}
    (h₁ : Answers (κ := κ) config s₁ qs rs₁) (h₂ : Answers (κ := κ) config s₂ qs rs₂) :
    rs₁ = rs₂ ↔ allowed κ s₁ (.email address) = allowed κ s₂ (.email address) ∨
      ∀ q ∈ qs, q.At κ address → q.envoi = none := by
  rw [h₁.eq_map, h₂.eq_map, List.map_inj_left]
  constructor
  · intro hsame
    by_cases ha : allowed κ s₁ (.email address) = allowed κ s₂ (.email address)
    · exact .inl ha
    · refine .inr fun q hq hat => (answer_eq_iff.mp (hsame q hq)).resolve_left ?_
      rwa [allowed_at hat, allowed_at hat]
  · intro hcond q hq
    refine answer_eq_iff.mpr ?_
    by_cases hat : q.At κ address
    · rcases hcond with ha | hnone
      · exact .inl (by rw [allowed_at hat, allowed_at hat, ha])
      · exact .inr (hnone q hq hat)
    · exact .inl (allowed_of_not_at h hat)

/-- The address of the owner. -/
private def adresse : String := "contact@agence.gn"

private def appel (envoi : Option Erreur) : OtpCall := ⟨.email adresse, envoi⟩

/-- What the call answers where every statement gets the same environment. -/
private def reponse (s : Store) (envoi : Option Erreur) : Except Erreur Sent :=
  ((backend Crypto.exemple).evalBy (fun _ => { envoi })
    (AuthService.requestOtp .exemple (appel envoi).contact) s).1

private theorem answers_appel (s : Store) (envoi : Option Erreur) :
    Answers (κ := Crypto.exemple) .exemple s [appel envoi] [reponse s envoi] :=
  ⟨fun _ => { envoi }, fun _ => rfl, [], rfl, rfl⟩

private theorem agreeBut_adresse : AgreeBut Crypto.exemple adresse .exemple {} := by
  intro email hne
  have hne' : ¬ adresse = email := fun h => hne h.symm
  have hnone : Table.findFirst [User.exemple] (·.email = some email) = none := by
    simp [Table.findFirst, Table.withIds, User.exemple, hne', show "contact@agence.gn" = adresse from rfl]
  exact congrArg (Option.map Prod.snd) hnone

theorem requestOtp_discreet_exemple :
    [reponse .exemple none] = [reponse {} none] ↔
      allowed Crypto.exemple .exemple (.email adresse) = allowed Crypto.exemple {} (.email adresse) ∨
        ∀ q ∈ [appel none], q.At Crypto.exemple adresse → q.envoi = none :=
  requestOtp_discreet_iff agreeBut_adresse (answers_appel _ _) (answers_appel _ _)

/-- Where the sender is not available, the answer tells the address of an agency from a free one. -/
theorem requestOtp_reveals : ¬ ∀ (config : AppConfig) (address : String) (s₁ s₂ : Store)
    (qs : List OtpCall) (rs₁ rs₂ : List (Except Erreur Sent)),
    AgreeBut Crypto.exemple address s₁ s₂ → Answers (κ := Crypto.exemple) config s₁ qs rs₁ →
      Answers (κ := Crypto.exemple) config s₂ qs rs₂ → rs₁ = rs₂ := by
  intro h
  have hsame := h .exemple adresse .exemple {} _ _ _ agreeBut_adresse
    (answers_appel _ (some (.serviceUnavailable "La connexion par email n'est pas encore disponible")))
    (answers_appel _ _)
  exact absurd hsame (by decide +kernel)

/-! ## The reset links -/

/-- The URL of the web application is one. -/
def ValidWebAppUrl (κ : Crypto) (config : AppConfig) : Prop :=
  ∀ hash, κ.url "/reset-password"
    (if config.webAppUrl = "" then webAppUrlLocale else config.webAppUrl) hash ≠ none

/-- What `requestReset` answers where its statements succeed. -/
def resetAnswer (config : AppConfig) : Except Erreur Sent :=
  if config.resetMailerAvailable = false then
    .error (.serviceUnavailable "La réinitialisation du mot de passe n'est pas encore disponible")
  else .ok { sent := true }

/-- The answer of the mailer is dropped. -/
theorem requestReset_runs (hurl : ValidWebAppUrl κ config) {email : String} {s s' : Store}
    {r : Except Erreur Sent}
    (h : (backend κ).Runs (PasswordResetService.requestReset config email) s r s') :
    (∃ code, r = .error (.prisma code)) ∨ r = resetAnswer config := by
  unfold PasswordResetService.requestReset at h
  unfold resetAnswer
  by_cases hm : config.resetMailerAvailable = false
  · rw [if_pos hm] at h ⊢
    exact .inr h.1
  rw [if_neg hm] at h ⊢
  refine h.rest fun found s₁ h => ?_
  rcases found with - | ⟨id, user⟩
  · exact .inr h.1
  simp only [Prog.left, Prog.ret_bind] at h
  split at h
  · exact .inr h.1
  split at h
  · exact .inr h.1
  split at h
  · exact .inr h.1
  split at h
  · exact .inr h.1
  refine h.rest fun (token : String) s₂ h₂ => h₂.rest fun now s₃ h₃ => h₃.rest fun answer s₄ h₄ => ?_
  rcases answer with code | done
  · exact .inl ⟨code, h₄.1⟩
  simp only at h₄
  rcases hu : κ.url "/reset-password"
      (if config.webAppUrl = "" then webAppUrlLocale else config.webAppUrl) ("token=" ++ token)
    with - | resetUrl
  · exact (hurl _ hu).elim
  · rw [hu] at h₄
    exact h₄.rest fun sent s₅ h₅ => .inr h₅.1

/-- **`requestReset` reveals nothing.** -/
theorem requestReset_discreet (hurl : ValidWebAppUrl κ config) {email : String} {s₁ s₂ s₁' s₂' : Store}
    {r₁ r₂ : Except Erreur Sent}
    (h₁ : (backend κ).Runs (PasswordResetService.requestReset config email) s₁ r₁ s₁')
    (h₂ : (backend κ).Runs (PasswordResetService.requestReset config email) s₂ r₂ s₂')
    (hs₁ : ∀ code, r₁ ≠ .error (.prisma code)) (hs₂ : ∀ code, r₂ ≠ .error (.prisma code)) :
    r₁ = r₂ := by
  have hr : ∀ {s s' : Store} {r : Except Erreur Sent},
      (backend κ).Runs (PasswordResetService.requestReset config email) s r s' →
      (∀ code, r ≠ .error (.prisma code)) → r = resetAnswer config := by
    intro s s' r h hs
    rcases requestReset_runs hurl h with ⟨code, hcode⟩ | hr
    · exact absurd hcode (hs code)
    · exact hr
  rw [hr h₁ hs₁, hr h₂ hs₂]

/-- The owner has an account, and without her account the answer is the same. -/
theorem requestReset_discreet_exemple :
    ((backend Crypto.exemple).eval {} (PasswordResetService.requestReset .exemple adresse)
      .exemple).1 =
    ((backend Crypto.exemple).eval {} (PasswordResetService.requestReset .exemple adresse) {}).1 := by
  have hok : ∀ {r : Except Erreur Sent}, r = .ok { sent := true } → ∀ code, r ≠ .error (.prisma code) := by
    rintro r rfl code ⟨⟩
  exact requestReset_discreet (fun _ => by rintro ⟨⟩) (Backend.eval_runs _ _ _)
    (Backend.eval_runs _ _ _) (hok (by decide +kernel)) (hok (by decide +kernel))

end Discretion

end OumraHajj.Auth
