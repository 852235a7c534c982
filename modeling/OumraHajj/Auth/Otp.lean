import OumraHajj.Async.History
import OumraHajj.Auth.Spec

/-!
# Concurrent requests and verifications of codes

The requests for codes and their verifications run at once. The history (`Reading`) keeps, for each
verification, the row of the code that it has read and the row whose attempts it has counted.
`calm` tells the statements that do not touch the codes, `unnoted` those that are not noted; `exec_otpUpdate`,
`exec_otpDelete`, `otpFindFirst_some` and the lemmas beside them say what the others do.
-/

namespace OumraHajj.Auth

open Async

inductive OtpRequest where
  | requestOtp (contact : OtpContact)
  | verifyOtp (contact : OtpContact) (code : String) (fullName : Option String)

namespace Otp

/-- The rows that the verifications have used (module doc). -/
structure Reading (ι : Type) where
  read : ι → Option OtpId := fun _ => none
  counted : ι → Option OtpId := fun _ => none

variable {κ : Crypto} {ι : Type}

/-- A verification answers the tokens that it issues. -/
def handler (config : AppConfig) : OtpRequest → Req κ (Option (AuthTokens κ))
  | .requestOtp contact => (AuthService.requestOtp config contact).bind fun _ => .ret none
  | .verifyOtp contact code fullName =>
    (AuthService.verifyOtp config contact code fullName).bind fun tokens => .ret (some tokens)

variable [DecidableEq ι]

def note : Note (sig κ) ι Store (Reading ι)
  | t, .inr (.otpFindFirst _), some (id, _), _, h =>
    { h with read := Function.update h.read t (some id) }
  | t, .inr (.otpUpdate id), _, _, h => { h with counted := Function.update h.counted t (some id) }
  | _, _, _, _, h => h

/-- The requests run at once, with their history. -/
def poolOf (config : AppConfig) (requests : ι → OtpRequest) (s : Store) :
    Pool ((sig κ).tagged ι) ι (Store × Reading ι) Erreur (Option (AuthTokens κ)) :=
  Pool.tagged ⟨fun t => handler config (requests t), s⟩ {}

/-- The statement is none of those that read or write codes. -/
def calm : (sig κ).Stmt → Bool
  | .inr (.otpFindFirst _) => false
  | .inr (.otpUpdate _) => false
  | .inr (.otpDelete _) => false
  | .inr (.otpDeleteMany _) => false
  | .inr (.otpCreate _ _ _) => false
  | _ => true

theorem exec_calm {c : (sig κ).Stmt} (hc : calm c = true) (e : Env) (s : Store) :
    ((backend κ).exec c e s).2.otps = s.otps := by
  rcases c with c | c
  · rfl
  cases c with
  | otpFindFirst contact => cases hc
  | otpUpdate id => cases hc
  | otpDelete id => cases hc
  | otpDeleteMany contact => cases hc
  | otpCreate contact codeHash expiresAt => cases hc
  | refreshTokenUpdate id =>
    simp only [backend, exec]
    split <;> rfl
  | refreshTokenCreate u tokenHash expiresAt =>
    simp only [backend, exec]
    split <;> rfl
  | passwordResetTokenReplace u tokenHash expiresAt =>
    simp only [backend, exec]
    split <;> rfl
  | passwordReset u passwordHash =>
    simp only [backend, exec]
    split <;> rfl
  | consommer jti exp =>
    simp only [backend, exec]
    split <;> rfl
  | _ => rfl

/-- The history notes nothing of the statement. -/
def unnoted : (sig κ).Stmt → Bool
  | .inr (.otpFindFirst _) => false
  | .inr (.otpUpdate _) => false
  | _ => true

theorem note_unnoted {c : (sig κ).Stmt} (hc : unnoted c = true) (t : ι) (r : (sig κ).Resp c)
    (s : Store) (h : Reading ι) : note t c r s h = h := by
  rcases c with c | c
  · rfl
  cases c with
  | otpFindFirst contact => cases hc
  | otpUpdate id => cases hc
  | _ => rfl

theorem unnoted_of_calm {c : (sig κ).Stmt} (hc : calm c = true) : unnoted c = true := by
  rcases c with c | c
  · rfl
  cases c with
  | otpFindFirst contact => cases hc
  | otpUpdate id => cases hc
  | _ => rfl

/-! ## The statements on codes -/

omit [DecidableEq ι]

theorem otpFindFirst_some {contact : OtpContact} {e : Env} {s : Store} {id : OtpId} {otp : Otp}
    (h : ((backend κ).exec (.inr (.otpFindFirst contact)) e s).1 = some (id, otp)) :
    s.otps.row id = some otp := by
  have hmem := List.mem_of_mem_head? (Option.mem_def.mpr h)
  rw [List.mem_insertionSort] at hmem
  obtain ⟨⟨id', row⟩, hrow, hmap⟩ := List.mem_filterMap.mp hmem
  obtain ⟨hrow, -⟩ := List.mem_filter.mp hrow
  obtain ⟨otp', hotp, hx⟩ := Option.map_eq_some_iff.mp hmap
  cases hx
  have hget : s.otps[id]? = some (some otp) := by
    rw [← hotp]
    exact Table.mem_withIds.mp hrow
  rw [Table.row, hget]
  rfl

theorem exec_otpUpdate (κ : Crypto) (s : Store) (id : OtpId) (e : Env) :
    s.otps.row id = none ∧ (backend κ).exec (.inr (.otpUpdate id)) e s = (none, s.tick e) ∨
    ∃ otp, s.otps.row id = some otp ∧ (backend κ).exec (.inr (.otpUpdate id)) e s =
      (some (), { s.tick e with
        otps := s.otps.set id (some { otp with attempts := otp.attempts + 1 }) }) := by
  rcases hr : s.otps.row id with - | otp
  · refine .inl ⟨rfl, ?_⟩
    have hr' : (s.tick e).otps.row id = none := hr
    simp only [backend, exec, hr']
    rfl
  · refine .inr ⟨otp, rfl, ?_⟩
    have hr' : (s.tick e).otps.row id = some otp := hr
    simp only [backend, exec, hr']
    rfl

theorem exec_otpDelete (κ : Crypto) (s : Store) (id : OtpId) (e : Env) :
    s.otps.row id = none ∧ (backend κ).exec (.inr (.otpDelete id)) e s = (none, s.tick e) ∨
    ∃ otp, s.otps.row id = some otp ∧ (backend κ).exec (.inr (.otpDelete id)) e s =
      (some (), { s.tick e with otps := s.otps.set id none }) := by
  rcases hr : s.otps.row id with - | otp
  · refine .inl ⟨rfl, ?_⟩
    have hr' : (s.tick e).otps.row id = none := hr
    simp only [backend, exec, hr']
    rfl
  · refine .inr ⟨otp, rfl, ?_⟩
    have hr' : (s.tick e).otps.row id = some otp := hr
    simp only [backend, exec, hr']
    rfl

/-- A row that was deleted. -/
def Gone (id : OtpId) (s : Store) : Prop := s.otps.row id = none ∧ id < s.otps.length

/-- A row that was deleted stays so: identifiers are not used again. -/
theorem Gone.exec {id : OtpId} {s : Store} (h : Gone id s) (c : (sig κ).Stmt) (e : Env) :
    Gone id ((backend κ).exec c e s).2 := by
  by_cases hc : calm c = true
  · rw [Gone, exec_calm hc]
    exact h
  rcases c with c | c
  · exact absurd rfl hc
  cases c with
  | otpFindFirst contact => exact h
  | otpUpdate id' =>
    rcases exec_otpUpdate κ s id' e with ⟨-, hx⟩ | ⟨otp, hr, hx⟩
    · rw [hx]
      exact h
    · rw [hx]
      refine ⟨?_, lt_of_lt_of_eq h.2 (List.length_set ..).symm⟩
      have hne : id' ≠ id := by
        rintro rfl
        rw [h.1] at hr
        cases hr
      exact (Table.row_set hr _ _).trans ((if_neg hne).trans h.1)
  | otpDelete id' =>
    rcases exec_otpDelete κ s id' e with ⟨-, hx⟩ | ⟨otp, hr, hx⟩
    · rw [hx]
      exact h
    · rw [hx]
      refine ⟨?_, lt_of_lt_of_eq h.2 (List.length_set ..).symm⟩
      by_cases hne : id' = id
      · exact (Table.row_set hr _ _).trans (if_pos hne)
      · exact (Table.row_set hr _ _).trans ((if_neg hne).trans h.1)
  | otpDeleteMany contact =>
    refine ⟨?_, lt_of_lt_of_eq h.2 (List.length_map _).symm⟩
    have hrow := Table.row_map_filter s.otps (fun otp => decide (otp.contact ≠ contact)) id
    rw [h.1] at hrow
    exact hrow
  | otpCreate contact codeHash expiresAt =>
    have hlen : id < s.otps.length := h.2
    have happ : ((backend κ).exec (.inr (.otpCreate contact codeHash expiresAt)) e s).2.otps.length =
        s.otps.length + 1 := List.length_append
    refine ⟨?_, lt_of_lt_of_eq (Nat.lt_succ_of_lt hlen) happ.symm⟩
    exact (Table.row_append s.otps _ id).trans ((if_neg (Nat.ne_of_lt hlen)).trans h.1)
  | _ => exact absurd rfl hc

/-! ## The handlers -/

theorem findOrCreate_calm (contact : OtpContact) (fullName : Option String) :
    (AuthService.findOrCreate (κ := κ) contact fullName).Uses fun c => calm c = true := by
  refine Prog.Uses.bind (p := AuthService.findByContact contact) ?_ fun found => ?_
  · cases contact with
    | email email => exact ⟨rfl, fun _ => trivial⟩
    | phone phone => exact ⟨rfl, fun _ => trivial⟩
  · cases found with
    | some user => trivial
    | none =>
      refine ⟨rfl, fun created => ?_⟩
      cases created with
      | some row => trivial
      | none => trivial

theorem issueTokens_calm (config : AppConfig) (user : Identity) :
    (AuthService.issueTokens (κ := κ) config user).Uses fun c => calm c = true := by
  refine ⟨rfl, fun accessToken => ⟨rfl, fun refreshToken => ⟨rfl, fun tokenHash => ⟨rfl, fun row => ?_⟩⟩⟩⟩
  cases row with
  | some row => trivial
  | none => trivial

/-- What `verifyOtp` does once the row of the code is deleted. -/
theorem login_calm (config : AppConfig) (contact : OtpContact) (fullName : Option String) :
    (AuthService.findOrCreate (κ := κ) contact fullName >>= fun user =>
      if otpRoles user.role = false then .fail (.unauthorized "Code invalide ou expiré")
      else if user.isActive = false then .fail (.unauthorized "Compte suspendu")
      else AuthService.issueTokens config (toIdentity user)).Uses fun c => calm c = true := by
  refine Prog.Uses.bind (findOrCreate_calm contact fullName) fun user => ?_
  split
  · trivial
  split
  · trivial
  · exact issueTokens_calm config _

theorem requestOtp_unnoted (config : AppConfig) (contact : OtpContact) :
    (AuthService.requestOtp (κ := κ) config contact).Uses fun c => unnoted c = true := by
  refine Prog.Uses.bind (p := AuthService.otpAllowed contact) ?_ fun allowed => ?_
  · cases contact with
    | email email => exact ⟨rfl, fun _ => trivial⟩
    | phone phone => trivial
  split
  · trivial
  refine ⟨rfl, fun value => ⟨rfl, fun codeHash => ⟨rfl, fun deleted => ⟨rfl, fun now =>
    ⟨rfl, fun created => ⟨rfl, fun sent => ?_⟩⟩⟩⟩⟩⟩
  cases sent with
  | error e => trivial
  | ok u => trivial

/-- A pilgrim has asked for a code. -/
def demande : Store where
  otps := [some
    { contact := .phone "+224620000000"
      codeHash := Crypto.exemple.hash 0 "123456"
      expiresAt := 300000
      createdAt := 0 }]

/-- The verification of a code for the telephone of the pilgrim. -/
def essai (code : String) : OtpRequest := .verifyOtp (.phone "+224620000000") code none

end Otp

end OumraHajj.Auth
