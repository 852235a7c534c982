import OumraHajj.Async.Once
import OumraHajj.Auth.Otp

/-!
# A code is used once

Several verifications may read one row and find that their code matches. Each of them deletes the row
before it issues tokens, and the deletion of a row that is gone fails, so one of them at most issues
tokens, whatever the requests for new codes beside them (`otp_once`).

**Ghost values** (`Ph`): a verification that has read the row `id` (`lu id`), and one that has deleted
it (`gagne id`).
-/

namespace OumraHajj.Auth

open Async

namespace Otp

namespace Once

inductive Ph where
  | avant
  | lu (id : OtpId)
  | gagne (id : OtpId)

/-- The row that a verification has deleted. -/
def Ph.won : Ph → Option OtpId
  | .gagne id => some id
  | _ => none

/-- The row that a verification has read. -/
def Ph.row : Ph → Option OtpId
  | .avant => none
  | .lu id => some id
  | .gagne id => some id

variable {κ : Crypto} {ι : Type} {config : AppConfig}

/-- The rows that were deleted by a verification are gone (module doc). -/
structure OnceInv (γ : ι → Ph) (x : Store × Reading ι) : Prop where
  winners : Winners Gone (fun t => (γ t).won) x.1
  read : ∀ t id, (γ t).row = some id → x.2.read t = some id

variable [DecidableEq ι] {γ : ι → Ph} {x : Store × Reading ι} {t : ι}

theorem won_update (γ : ι → Ph) (t : ι) (g : Ph) :
    (fun u => (Function.update γ t g u).won) = Function.update (fun u => (γ u).won) t g.won :=
  Function.comp_update Ph.won γ t g

namespace OnceInv

omit [DecidableEq ι] in
/-- A statement that reads no row. -/
theorem keep (h : OnceInv γ x) (c : (sig κ).Stmt) (e : Env) {h' : Reading ι}
    (hr : h'.read = x.2.read) : OnceInv γ (((backend κ).exec c e x.1).2, h') :=
  ⟨h.winners.keep fun _ hr => hr.exec c e, fun t id ht => by rw [hr]; exact h.read t id ht⟩

/-- A verification reads a row. -/
theorem lire (h : OnceInv γ x) (ht : γ t = .avant) (id : OtpId) :
    OnceInv (Function.update γ t (.lu id))
      (x.1, { x.2 with read := Function.update x.2.read t (some id) }) := by
  refine ⟨?_, fun u id' hu => ?_⟩
  · have hw : (fun u => (Function.update γ t (.lu id) u).won) = fun u => (γ u).won := by
      rw [won_update]
      refine Function.update_eq_self_iff.mpr ?_
      rw [ht]
      rfl
    rw [hw]
    exact h.winners
  · by_cases hut : u = t
    · subst hut
      rw [Function.update_self] at hu
      exact (Function.update_self ..).trans hu
    · rw [Function.update_of_ne hut] at hu
      exact (Function.update_of_ne hut ..).trans (h.read u id' hu)

/-- A verification deletes the row that it has read. -/
theorem delete (h : OnceInv γ x) {id : OtpId} (ht : γ t = .lu id) {s' : Store}
    (hfree : ¬ Gone id x.1) (hkeep : ∀ id, Gone id x.1 → Gone id s') (hgone : Gone id s') :
    OnceInv (Function.update γ t (.gagne id)) (s', x.2) := by
  refine ⟨?_, fun u id' hu => ?_⟩
  · rw [won_update]
    exact h.winners.win hfree hkeep hgone
  · by_cases hut : u = t
    · subst hut
      rw [Function.update_self] at hu
      cases hu
      exact h.read u id (by rw [ht]; rfl)
    · rw [Function.update_of_ne hut] at hu
      exact h.read u id' hu

end OnceInv

/-! ## The handlers -/

/-- The protocol of the requests (module doc). -/
def proto (ι : Type) : Proto ((sig κ).tagged ι) ι (Store × Reading ι) where
  Gh := Ph
  inv := OnceInv
  place _ _ := True

/-- A verification issues tokens once it has deleted its row. -/
def Ended (r : Except Erreur (Option (AuthTokens κ))) (g : Ph) : Prop :=
  ∀ tk, r = .ok (some tk) → ∃ id, g = .gagne id

/-- The handler `t` keeps the protocol, from the ghost value `g`. -/
def Kept (t : ι) (p : Req κ (Option (AuthTokens κ))) (g : Ph) : Prop :=
  (proto ι).Safe ((backend κ).recorded note) Pool.anyStep t (p.tag t) Ended g

variable {g : Ph}

/-- A statement that reads no row. -/
theorem kept_quiet {c : (sig κ).Stmt} {k : (sig κ).Resp c → Req κ (Option (AuthTokens κ))}
    (hc : ∀ r s (h : Reading ι), (note t c r s h).read = h.read) (hk : ∀ r, Kept t (k r) g) :
    Kept t (.call c k) g :=
  Proto.safe_call (P := proto ι) trivial (fun _ _ e hi _ => OnceInv.keep hi c e (hc _ _ _))
    fun _ _ _ _ _ => hk _

theorem kept_unnoted {c : (sig κ).Stmt} {k : (sig κ).Resp c → Req κ (Option (AuthTokens κ))}
    (hc : unnoted c = true) (hk : ∀ r, Kept t (k r) g) : Kept t (.call c k) g :=
  kept_quiet (fun r s h => by rw [note_unnoted hc t r s h]) hk

/-- What remains of a handler, once its tokens may be issued. -/
theorem kept_tail {p : Req κ (Option (AuthTokens κ))} {id : OtpId}
    (hp : p.Uses fun c => calm c = true) : Kept t p (.gagne id) := by
  induction p with
  | ret a => exact fun _ _ => ⟨id, rfl⟩
  | fail x => exact fun _ _ => ⟨id, rfl⟩
  | call c k ih => exact kept_unnoted (unnoted_of_calm hp.1) fun r => ih r (hp.2 r)

theorem kept_fail {x : Erreur} : Kept (κ := κ) t (.fail x) g := by
  rintro tk ⟨⟩

/-- The row that a verification reads. -/
theorem kept_findFirst {contact : OtpContact}
    {k : Option (OtpId × Otp) → Req κ (Option (AuthTokens κ))} (hnone : Kept t (k none) .avant)
    (hsome : ∀ id otp, Kept t (k (some (id, otp))) (.lu id)) :
    Kept t (.call (.inr (.otpFindFirst contact)) k) .avant := by
  refine ⟨trivial, fun γ next x e hi ht _ _ _ => ?_⟩
  have hi' : OnceInv γ (((backend κ).exec (.inr (.otpFindFirst contact)) e x.1).2, x.2) :=
    OnceInv.keep hi _ e rfl
  rcases hx : ((backend κ).exec (.inr (.otpFindFirst contact)) e x.1).1 with - | ⟨id, otp⟩
  · refine ⟨.avant, ?_, ?_⟩
    · rw [← ht, Function.update_eq_self]
      simp only [Backend.recorded, hx]
      exact hi'
    · simp only [Backend.recorded, hx]
      exact hnone
  · refine ⟨.lu id, ?_, ?_⟩
    · simp only [Backend.recorded, hx]
      exact hi'.lire ht id
    · simp only [Backend.recorded, hx]
      exact hsome id otp

/-- The deletion of the row that a verification has read. -/
theorem kept_delete {id : OtpId} {k : Option Unit → Req κ (Option (AuthTokens κ))}
    (hnone : Kept t (k none) (.lu id)) (hsome : Kept t (k (some ())) (.gagne id)) :
    Kept t (.call (.inr (.otpDelete id)) k) (.lu id) := by
  refine ⟨trivial, fun γ next x e hi ht _ _ _ => ?_⟩
  have hkeep : ∀ r, Gone r x.1 → Gone r ((backend κ).exec (.inr (.otpDelete id)) e x.1).2 :=
    fun r hr => hr.exec _ e
  rcases exec_otpDelete κ x.1 id e with ⟨-, hx⟩ | ⟨otp, hr, hx⟩
  · refine ⟨.lu id, ?_, ?_⟩
    · rw [← ht, Function.update_eq_self]
      exact OnceInv.keep hi _ e rfl
    · simp only [Backend.recorded, hx]
      exact hnone
  · refine ⟨.gagne id, ?_, ?_⟩
    · have hlt : id < x.1.otps.length := Table.lt_of_get (Table.get_of_row hr)
      refine OnceInv.delete hi ht (fun hgone => ?_) hkeep ?_
      · rw [hgone.1] at hr
        cases hr
      · rw [hx]
        refine ⟨(Table.row_set hr _ _).trans (if_pos rfl), ?_⟩
        exact lt_of_lt_of_eq hlt (List.length_set ..).symm
    · simp only [Backend.recorded, hx]
      exact hsome

theorem kept_now {α : Type} {f : Time → Req κ α} {h : α → Req κ (Option (AuthTokens κ))}
    (hf : ∀ now, Kept t ((f now).bind h) g) :
    Kept t (((Prog.left (OumraHajj.await .now)).bind f).bind h) g :=
  kept_unnoted rfl fun now => hf now

theorem verifyOtp_kept (contact : OtpContact) (code : String) (fullName : Option String) :
    Kept t (handler (κ := κ) config (.verifyOtp contact code fullName)) .avant := by
  refine kept_findFirst kept_fail fun id otp => kept_now fun now => ?_
  split
  · exact kept_fail
  split
  · exact kept_fail
  split
  · refine kept_quiet (fun _ _ _ => rfl) fun counted => ?_
    rcases counted with - | counted
    · exact kept_fail
    · exact kept_fail
  exact kept_delete kept_fail (kept_tail ((login_calm config contact fullName).bind fun _ => trivial))

/-- A handler that reads no row and issues no tokens. -/
theorem kept_none {α : Type} {p : Req κ α} (hp : p.Uses fun c => unnoted c = true) :
    Kept t (p.bind fun _ => .ret none) g := by
  induction p with
  | ret a => rintro tk ⟨⟩
  | fail x => rintro tk ⟨⟩
  | call c k ih => exact kept_unnoted hp.1 fun r => ih r (hp.2 r)

theorem requestOtp_kept (contact : OtpContact) :
    Kept t (handler (κ := κ) config (.requestOtp contact)) .avant :=
  kept_none (requestOtp_unnoted config contact)

/-- **A code is used once.** In every interleaving of requests for codes and verifications, each
verification that has issued tokens has read a row, and no two of them the same one. -/
theorem otp_once {requests : ι → OtpRequest} {s : Store}
    {c : Pool ((sig κ).tagged ι) ι (Store × Reading ι) Erreur (Option (AuthTokens κ))}
    (hr : Pool.Reach ((backend κ).recorded note) Pool.anyStep (poolOf config requests s) c) :
    (∀ t tk, c.procs t = .ret (some tk) → ∃ id, c.st.2.read t = some id) ∧
      ∀ t u tk tk', c.procs t = .ret (some tk) → c.procs u = .ret (some tk') →
        c.st.2.read t = c.st.2.read u → t = u := by
  have h₀ : (proto ι).Keeps ((backend κ).recorded note) Pool.anyStep (fun _ => Ended)
      (poolOf config requests s) := by
    refine ⟨fun _ => .avant, ⟨Winners.nobody Gone s, by rintro t id ⟨⟩⟩, fun t => ?_⟩
    cases hq : requests t with
    | requestOtp contact =>
      have hk : Kept t (handler (κ := κ) config (.requestOtp contact)) .avant :=
        requestOtp_kept contact
      rw [← hq] at hk
      exact hk
    | verifyOtp contact code fullName =>
      have hk : Kept t (handler (κ := κ) config (.verifyOtp contact code fullName)) .avant :=
        verifyOtp_kept contact code fullName
      rw [← hq] at hk
      exact hk
  obtain ⟨γ, hi, hs⟩ := Proto.reach (fun _ _ _ _ => trivial) h₀ hr
  have hend : ∀ t tk, c.procs t = .ret (some tk) → ∃ id, γ t = .gagne id := by
    intro t tk ht
    have hsafe := hs t
    rw [ht] at hsafe
    exact hsafe tk rfl
  refine ⟨fun t tk ht => ?_, fun t u tk tk' ht hu heq => ?_⟩
  · obtain ⟨id, hid⟩ := hend t tk ht
    exact ⟨id, hi.read t id (by rw [hid]; rfl)⟩
  · obtain ⟨id, hid⟩ := hend t tk ht
    obtain ⟨id', hid'⟩ := hend u tk' hu
    have hread := hi.read t id (by rw [hid]; rfl)
    have hread' := hi.read u id' (by rw [hid']; rfl)
    rw [hread, hread'] at heq
    cases heq
    exact hi.winners.unique t u id (by rw [hid]; rfl) (by rw [hid']; rfl)

/-- Two verifications of the right code read the row before one of them deletes it. -/
private def finie : Pool ((sig Crypto.exemple).tagged (Fin 2)) (Fin 2) (Store × Reading (Fin 2))
    Erreur (Option (AuthTokens Crypto.exemple)) :=
  Pool.run ((backend _).recorded note) (tours [0, 1, 0, 1, 0, 1, 0, 0, 0, 0, 0, 0])
    (poolOf .exemple (fun _ => essai "123456") demande)

theorem otp_once_exemple : ((finie.result 0).join).isSome = true ∧ finie.next 1 = none ∧
    (∀ t tk, finie.procs t = .ret (some tk) → ∃ id, finie.st.2.read t = some id) ∧
      ∀ t u tk tk', finie.procs t = .ret (some tk) → finie.procs u = .ret (some tk') →
        finie.st.2.read t = finie.st.2.read u → t = u :=
  ⟨by decide +kernel, by decide +kernel, otp_once (Pool.Reach.run .refl _)⟩

end Once

end Otp

end OumraHajj.Auth
