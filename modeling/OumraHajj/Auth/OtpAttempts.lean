import Mathlib.Algebra.BigOperators.Group.Finset.Piecewise
import Mathlib.Algebra.Order.BigOperators.Group.Finset
import OumraHajj.Auth.Otp

/-!
# How many wrong codes are compared with a row

`verifyOtp` reads the attempts of a row, compares, and increments the attempts in a statement of its
own. Verifications that have read the row and have not counted their attempt yet (`pending`) are not
in the attempts that the next one reads. `InTime` is the condition under which the bound holds all the
same: a wrong code reads the row only while its attempts and the pending ones are below the maximum.

**Ghost values** (`Ph`): a verification that compares no wrong code (`avant`), one that has read a row
too late (`perime`), one with a wrong code that has read the row `id` (`lu id`), has compared
(`compare id`) and has counted the attempt (`fini id`).
-/

namespace OumraHajj.Auth

open Async

namespace Otp

namespace Attempts

variable {κ : Crypto} {ι : Type}

/-- The code of a verification is not the one of the hash. -/
def wrong (κ : Crypto) (codeHash : String) : OtpRequest → Bool
  | .verifyOtp _ code _ => !κ.compare code codeHash
  | .requestOtp _ => false

/-- The contact whose row a statement reads. -/
def reads : (sig κ).Stmt → Option OtpContact
  | .inr (.otpFindFirst contact) => some contact
  | _ => none

/-- The row whose attempts a statement increments. -/
def counts : (sig κ).Stmt → Option OtpId
  | .inr (.otpUpdate id) => some id
  | _ => none

/-- The row that a verification of the contact reads. -/
def newest (κ : Crypto) (contact : OtpContact) (e : Env) (s : Store) : Option (OtpId × Otp) :=
  ((backend κ).exec (.inr (.otpFindFirst contact)) e s).1

section Condition

variable [Fintype ι] (requests : ι → OtpRequest)

/-- The verifications of wrong codes that have read the row and have not ended. -/
def pending (id : OtpId) (codeHash : String) (next : ι → Option ((sig κ).tagged ι).Stmt)
    (h : Reading ι) : Finset ι :=
  Finset.univ.filter fun u =>
    h.read u = some id ∧ wrong κ codeHash (requests u) = true ∧ (next u).isSome = true

variable [DecidableEq ι]

/-- A wrong code reads a row that is not expired while its attempts and the pending ones are below
the maximum. -/
def InTime : Pool.Cond ((sig κ).tagged ι) ι (Store × Reading ι) Env := fun next x t e =>
  ∀ contact ∈ (next t).bind fun c => reads c.2, ∀ row ∈ newest κ contact e x.1,
    wrong κ row.2.codeHash (requests t) = true → (x.1.tick e).clock ≤ row.2.expiresAt →
      row.2.attempts < maxOtpAttempts →
        row.2.attempts + (pending requests row.1 row.2.codeHash next x.2).card < maxOtpAttempts

instance (next : ι → Option ((sig κ).tagged ι).Stmt) (x : Store × Reading ι) (t : ι) (e : Env) :
    Decidable (InTime requests next x t e) :=
  inferInstanceAs (Decidable (∀ _ ∈ _, ∀ _ ∈ _, _ → _ → _ → _))

/-- The verifications that have compared a wrong code with the hash of the row: they increment its
attempts next, or have done so. -/
def compared (c : Pool ((sig κ).tagged ι) ι (Store × Reading ι) Erreur (Option (AuthTokens κ)))
    (id : OtpId) : Finset ι :=
  Finset.univ.filter fun t =>
    ((c.next t).bind fun c => counts c.2) = some id ∨ c.st.2.counted t = some id

end Condition

/-- The attempts that a row has. -/
def attemptsOf (s : Store) (id : OtpId) : Nat := ((s.otps.row id).map (·.attempts)).getD 0

inductive Ph where
  | avant
  | perime (expiresAt : Time)
  | lu (id : OtpId)
  | compare (id : OtpId)
  | fini (id : OtpId)

namespace Ph

/-- The row that a pending verification has read. -/
def row : Ph → Option OtpId
  | .lu id => some id
  | .compare id => some id
  | _ => none

/-- The row on which an attempt is counted. -/
def counted : Ph → Option OtpId
  | .fini id => some id
  | _ => none

/-- A verification goes on to compare a wrong code, or will not compare one. -/
inductive Next : Ph → Ph → Prop
  | avant {g : Ph} (hg : g.counted = none) : Next g .avant
  | compare (id : OtpId) : Next (.lu id) (.compare id)

end Ph

/-- How many ghost values `f` sends to the row `id`. -/
def total [Fintype ι] (f : Ph → Option OtpId) (γ : ι → Ph) (id : OtpId) : Nat :=
  ∑ u, if f (γ u) = some id then 1 else 0

/-! ## The statements that are not noted -/

/-- Identifiers are not used again, and the clock does not go back. -/
structure Later (s s' : Store) : Prop where
  row : ∀ id otp', s'.otps.row id = some otp' →
    (∃ otp, s.otps.row id = some otp ∧ otp.codeHash = otp'.codeHash) ∨ s.otps.length ≤ id
  length : s.otps.length ≤ s'.otps.length
  clock : s.clock ≤ s'.clock

theorem Later.refl (s : Store) : Later s s :=
  ⟨fun _ otp hr => .inl ⟨otp, hr, rfl⟩, le_rfl, le_rfl⟩

/-- Rows are deleted, and created without attempts. -/
structure Fades (s s' : Store) : Prop where
  row : ∀ id otp, s'.otps.row id = some otp →
    s.otps.row id = some otp ∨ s.otps.length ≤ id ∧ otp.attempts = 0
  length : s.otps.length ≤ s'.otps.length
  clock : s.clock ≤ s'.clock

theorem Fades.later {s s' : Store} (h : Fades s s') : Later s s' where
  row id otp hr := (h.row id otp hr).imp (fun hr => ⟨otp, hr, rfl⟩) And.left
  length := h.length
  clock := h.clock

theorem clock_exec (κ : Crypto) (c : (sig κ).Stmt) (e : Env) (s : Store) :
    ((backend κ).exec c e s).2.clock = (s.tick e).clock := by
  rcases c with c | c
  · rfl
  cases c with
  | otpUpdate id =>
    simp only [backend, exec]
    split <;> rfl
  | otpDelete id =>
    simp only [backend, exec]
    split <;> rfl
  | refreshTokenUpdate id =>
    simp only [backend, exec]
    split <;> rfl
  | refreshTokenCreate u tokenHash expiresAt =>
    simp only [backend, exec]
    split <;> rfl
  | passwordResetTokenReplace u tokenHash expiresAt =>
    simp only [backend, exec]
    split <;> rfl
  | passwordReset u passwordHash =>
    simp only [backend, exec]
    split <;> rfl
  | consommer jti exp =>
    simp only [backend, exec]
    split <;> rfl
  | _ => rfl

theorem clock_le (κ : Crypto) (c : (sig κ).Stmt) (e : Env) (s : Store) :
    s.clock ≤ ((backend κ).exec c e s).2.clock := by
  rw [clock_exec]
  exact Int.le_max_left _ _

theorem Fades.of_eq {s s' : Store} (h : s'.otps = s.otps) (hc : s.clock ≤ s'.clock) : Fades s s' where
  row id otp hr := .inl (by rwa [h] at hr)
  length := by rw [h]
  clock := hc

theorem fades_unnoted {c : (sig κ).Stmt} (hc : unnoted c = true) (e : Env) (s : Store) :
    Fades s ((backend κ).exec c e s).2 := by
  by_cases hcalm : calm c = true
  · exact .of_eq (exec_calm hcalm e s) (clock_le κ c e s)
  rcases c with c | c
  · exact absurd rfl hcalm
  cases c with
  | otpFindFirst contact => cases hc
  | otpUpdate id => cases hc
  | otpDelete id =>
    have hclock := clock_le κ (.inr (.otpDelete id)) e s
    rcases exec_otpDelete κ s id e with ⟨-, hx⟩ | ⟨otp, hr, hx⟩
    · rw [hx] at hclock ⊢
      exact .of_eq rfl hclock
    · rw [hx] at hclock ⊢
      refine ⟨fun id' otp' hrow => .inl ?_, le_of_eq (List.length_set ..).symm, hclock⟩
      have hset := (Table.row_set hr none id').symm.trans hrow
      split at hset
      · cases hset
      · exact hset
  | otpDeleteMany contact =>
    refine ⟨fun id otp hrow => .inl ?_, le_of_eq (List.length_map _).symm, clock_le κ _ e s⟩
    have hfilter :=
      (Table.row_map_filter s.otps (fun otp => decide (otp.contact ≠ contact)) id).symm.trans hrow
    exact (Option.filter_eq_some_iff.mp hfilter).1
  | otpCreate contact codeHash expiresAt =>
    have happ : ((backend κ).exec (.inr (.otpCreate contact codeHash expiresAt)) e s).2.otps.length =
        s.otps.length + 1 := List.length_append
    refine ⟨fun id otp hrow => ?_, happ ▸ Nat.le_succ _, clock_le κ _ e s⟩
    have hrow' := (Table.row_append s.otps _ id).symm.trans hrow
    split at hrow'
    · rename_i hid
      cases hrow'
      exact .inr ⟨le_of_eq hid.symm, rfl⟩
    · exact .inl hrow'
  | _ => exact absurd rfl hcalm

/-- An attempt is counted on the row `id` alone. -/
theorem otpUpdate_row {id id' : OtpId} {otp' : Otp} {e : Env} {s : Store}
    (h : ((backend κ).exec (.inr (.otpUpdate id)) e s).2.otps.row id' = some otp') :
    ∃ otp, s.otps.row id' = some otp ∧ otp.codeHash = otp'.codeHash ∧
      otp'.attempts = otp.attempts + if some id = some id' then 1 else 0 := by
  rcases exec_otpUpdate κ s id e with ⟨hnone, hx⟩ | ⟨otp, hr, hx⟩
  · rw [hx] at h
    have hne : some id ≠ some id' := by
      rintro ⟨⟩
      exact absurd (hnone.symm.trans h) (by rintro ⟨⟩)
    exact ⟨otp', h, rfl, by rw [if_neg hne]; rfl⟩
  · rw [hx] at h
    have hset := (Table.row_set hr _ id').symm.trans h
    split at hset
    · rename_i hid
      subst hid
      cases hset
      exact ⟨otp, hr, rfl, by rw [if_pos rfl]⟩
    · rename_i hid
      have hne : some id ≠ some id' := fun heq => hid (Option.some.inj heq)
      exact ⟨otp', hset, rfl, by rw [if_neg hne]; rfl⟩

theorem otpUpdate_later (κ : Crypto) (id : OtpId) (e : Env) (s : Store) :
    Later s ((backend κ).exec (.inr (.otpUpdate id)) e s).2 where
  row id' otp' hr := by
    obtain ⟨otp, hr', hhash, -⟩ := otpUpdate_row hr
    exact .inl ⟨otp, hr', hhash⟩
  length := by
    rcases exec_otpUpdate κ s id e with ⟨-, hx⟩ | ⟨otp, -, hx⟩
    · rw [hx]
      exact le_rfl
    · rw [hx]
      exact le_of_eq (List.length_set ..).symm
  clock := clock_le κ _ e s

/-! ## The invariant -/

section Inv

variable [Fintype ι]

theorem total_update [DecidableEq ι] (f : Ph → Option OtpId) (γ : ι → Ph) (t : ι) (g : Ph)
    (id : OtpId) :
    total f (Function.update γ t g) id + (if f (γ t) = some id then 1 else 0) =
      total f γ id + if f g = some id then 1 else 0 :=
  Proto.sum_update (fun g => if f g = some id then 1 else 0) γ t g

/-- A verification that counts no attempt. -/
theorem total_counted [DecidableEq ι] {γ : ι → Ph} {t : ι} {g : Ph} (ht : (γ t).counted = none)
    (hg : g.counted = none) (id : OtpId) :
    total Ph.counted (Function.update γ t g) id = total Ph.counted γ id := by
  have hsum := total_update Ph.counted γ t g id
  rw [ht, hg] at hsum
  exact hsum

theorem total_eq_zero {f : Ph → Option OtpId} {γ : ι → Ph} {id : OtpId}
    (h : ∀ u, f (γ u) ≠ some id) : total f γ id = 0 :=
  Finset.sum_eq_zero fun u _ => if_neg (h u)

/-- The ghost value of a verification agrees with the store and the history. -/
structure Fits (κ : Crypto) (requests : ι → OtpRequest) (x : Store × Reading ι) (u : ι) (g : Ph) :
    Prop where
  fresh : ∀ id, x.1.otps.length ≤ id → g.row ≠ some id ∧ g.counted ≠ some id
  read : ∀ id, g.row = some id → x.2.read u = some id
  wrong : ∀ id otp, g.row = some id → x.1.otps.row id = some otp →
    wrong κ otp.codeHash (requests u) = true
  late : ∀ d, g = .perime d → d < x.1.clock
  ended : ∀ id, x.2.counted u = some id → g = .fini id

/-- The attempts of a row are those that are counted, `a₀` of them before the run, and the pending
ones stay below the maximum with them (module doc). -/
structure AttemptsInv (κ : Crypto) (requests : ι → OtpRequest) (a₀ : OtpId → Nat) (γ : ι → Ph)
    (x : Store × Reading ι) : Prop where
  bound : ∀ id, total Ph.row γ id + total Ph.counted γ id ≤ maxOtpAttempts - a₀ id
  count : ∀ id otp, x.1.otps.row id = some otp → otp.attempts = a₀ id + total Ph.counted γ id
  zero : ∀ id, x.1.otps.length ≤ id → a₀ id = 0
  fits : ∀ u, Fits κ requests x u (γ u)

variable {requests : ι → OtpRequest} {a₀ : OtpId → Nat} {γ : ι → Ph} {x x' : Store × Reading ι}
  {t u : ι} {g : Ph}

omit [Fintype ι] in
/-- The statement of another handler. -/
theorem Fits.move (h : Fits κ requests x u g) (hs : Later x.1 x'.1)
    (hread : x'.2.read u = x.2.read u) (hcounted : x'.2.counted u = x.2.counted u) :
    Fits κ requests x' u g where
  fresh id hid := h.fresh id (le_trans hs.length hid)
  read id hg := hread.trans (h.read id hg)
  wrong id otp' hg hr := by
    rcases hs.row id otp' hr with ⟨otp, hr', hhash⟩ | hid
    · rw [← hhash]
      exact h.wrong id otp hg hr'
    · exact absurd hg (h.fresh id hid).1
  late d hg := lt_of_lt_of_le (h.late d hg) hs.clock
  ended id hu := h.ended id (hcounted.symm.trans hu)

omit [Fintype ι] in
/-- A verification that has read no row whose wrong code it may compare. -/
theorem Fits.of_none (hrow : g.row = none) (hcounted : g.counted = none)
    (hlate : ∀ d, g = .perime d → d < x.1.clock) (hended : ∀ id, x.2.counted u ≠ some id) :
    Fits κ requests x u g where
  fresh id _ := by
    rw [hrow, hcounted]
    exact ⟨by rintro ⟨⟩, by rintro ⟨⟩⟩
  read id hg := by
    rw [hrow] at hg
    cases hg
  wrong id otp hg := by
    rw [hrow] at hg
    cases hg
  late := hlate
  ended id hu := absurd hu (hended id)

namespace AttemptsInv

/-- A statement that is not noted. -/
theorem keep (h : AttemptsInv κ requests a₀ γ x) {s' : Store} (hs : Fades x.1 s') :
    AttemptsInv κ requests a₀ γ (s', x.2) where
  bound := h.bound
  count id otp hr := by
    rcases hs.row id otp hr with hr | ⟨hid, hzero⟩
    · exact h.count id otp hr
    · rw [hzero, h.zero id hid, total_eq_zero fun u => ((h.fits u).fresh id hid).2]
  zero id hid := h.zero id (le_trans hs.length hid)
  fits u := (h.fits u).move hs.later rfl rfl

variable [DecidableEq ι]

/-- The handler `t` moves: what remains to show is about its own ghost value and the totals. -/
theorem change (h : AttemptsInv κ requests a₀ γ x) (hs : Later x.1 x'.1)
    (hread : ∀ u ≠ t, x'.2.read u = x.2.read u) (hcounted : ∀ u ≠ t, x'.2.counted u = x.2.counted u)
    (ht : Fits κ requests x' t g)
    (hbound : ∀ id, total Ph.row (Function.update γ t g) id +
      total Ph.counted (Function.update γ t g) id ≤ maxOtpAttempts - a₀ id)
    (hcount : ∀ id otp, x'.1.otps.row id = some otp →
      otp.attempts = a₀ id + total Ph.counted (Function.update γ t g) id) :
    AttemptsInv κ requests a₀ (Function.update γ t g) x' where
  bound := hbound
  count := hcount
  zero id hid := h.zero id (le_trans hs.length hid)
  fits u := by
    by_cases hut : u = t
    · rw [hut, Function.update_self]
      exact ht
    · rw [Function.update_of_ne hut]
      exact (h.fits u).move hs (hread u hut) (hcounted u hut)

/-- A verification that has read the row goes on. -/
theorem next (h : AttemptsInv κ requests a₀ γ x) {g₀ : Ph} (ht : γ t = g₀) (hg : g₀.Next g) :
    AttemptsInv κ requests a₀ (Function.update γ t g) x := by
  have hrow : ∀ id, g.row = some id → g₀.row = some id := by
    intro id hid
    cases hg with
    | avant => cases hid
    | compare id' => exact hid
  have hnone : g.counted = none ∧ g₀.counted = none := by
    cases hg with
    | avant hn => exact ⟨rfl, hn⟩
    | compare id => exact ⟨rfl, rfl⟩
  have hcount := total_counted (γ := γ) (t := t) (by rw [ht]; exact hnone.2) hnone.1
  have hfits : Fits κ requests x t g₀ := ht ▸ h.fits t
  refine h.change (.refl x.1) (fun _ _ => rfl)
    (fun _ _ => rfl) ⟨fun id hid => ⟨fun hr => (hfits.fresh id hid).1 (hrow id hr), ?_⟩,
      fun id hr => hfits.read id (hrow id hr), fun id otp hr => hfits.wrong id otp (hrow id hr), ?_, ?_⟩
    (fun id => ?_) fun id otp hr => ?_
  · rw [hnone.1]
    rintro ⟨⟩
  · rintro d rfl
    cases hg
  · intro id hu
    have hfini := hfits.ended id hu
    rw [hfini] at hnone
    cases hnone.2
  · have hsum := total_update Ph.row γ t g id
    have hle : (if g.row = some id then 1 else 0) ≤ if (γ t).row = some id then 1 else 0 := by
      by_cases hid : g.row = some id
      · rw [if_pos hid, ht, if_pos (hrow id hid)]
      · rw [if_neg hid]
        exact Nat.zero_le _
    have hb := h.bound id
    rw [hcount id]
    omega
  · rw [hcount id]
    exact h.count id otp hr

/-- A verification reads the row `id`. -/
theorem lire (h : AttemptsInv κ requests a₀ γ x) (ht : γ t = .avant) {id : OtpId}
    (hg : g.counted = none)
    (hfits : Fits κ requests (x.1, { x.2 with read := Function.update x.2.read t (some id) }) t g)
    (hbound : ∀ id, g.row = some id →
      total Ph.row γ id + total Ph.counted γ id < maxOtpAttempts - a₀ id) :
    AttemptsInv κ requests a₀ (Function.update γ t g)
      (x.1, { x.2 with read := Function.update x.2.read t (some id) }) := by
  have hcount := total_counted (γ := γ) (t := t) (by rw [ht]; rfl) hg
  refine h.change (.refl x.1)
    (fun u hut => Function.update_of_ne hut ..) (fun _ _ => rfl) hfits (fun id' => ?_)
    fun id' otp hr => ?_
  · have hsum := total_update Ph.row γ t g id'
    have hzero : (if (γ t).row = some id' then 1 else 0) = 0 := by
      rw [ht]
      exact if_neg (by rintro ⟨⟩)
    have hb := h.bound id'
    rw [hcount id']
    by_cases hid : g.row = some id'
    · rw [if_pos hid] at hsum
      have hlt := hbound id' hid
      omega
    · rw [if_neg hid] at hsum
      omega
  · rw [hcount id']
    exact h.count id' otp hr

/-- A verification counts its attempt. -/
theorem compter (h : AttemptsInv κ requests a₀ γ x) {id : OtpId} (ht : γ t = .compare id) (e : Env) :
    AttemptsInv κ requests a₀ (Function.update γ t (.fini id))
      (((backend κ).exec (.inr (.otpUpdate id)) e x.1).2,
        { x.2 with counted := Function.update x.2.counted t (some id) }) := by
  have hrow : ∀ id', total Ph.row (Function.update γ t (.fini id)) id' +
      (if some id = some id' then 1 else 0) = total Ph.row γ id' := by
    intro id'
    have hsum := total_update Ph.row γ t (.fini id) id'
    rwa [ht] at hsum
  have hcounted : ∀ id', total Ph.counted (Function.update γ t (.fini id)) id' =
      total Ph.counted γ id' + if some id = some id' then 1 else 0 := by
    intro id'
    have hsum := total_update Ph.counted γ t (.fini id) id'
    rwa [ht] at hsum
  have hlt : id < x.1.otps.length := by
    by_contra hid
    exact ((h.fits t).fresh id (not_lt.mp hid)).1 (by rw [ht]; rfl)
  have hlater := otpUpdate_later κ id e x.1
  refine h.change hlater (fun _ _ => rfl) (fun u hut => Function.update_of_ne hut ..)
    ⟨fun id' hid => ⟨by rintro ⟨⟩, ?_⟩, by rintro _ ⟨⟩, by rintro _ _ ⟨⟩, by rintro _ ⟨⟩, fun id' hu => ?_⟩
    (fun id' => ?_) fun id' otp' hr' => ?_
  · rintro ⟨⟩
    exact absurd (le_trans hlater.length hid) (not_le.mpr hlt)
  · have hself := (Function.update_self t (some id) x.2.counted).symm.trans hu
    cases hself
    rfl
  · have hb := h.bound id'
    have hrow' := hrow id'
    have hcounted' := hcounted id'
    omega
  · obtain ⟨otp, hr, -, hattempts⟩ := otpUpdate_row hr'
    have hc := h.count id' otp hr
    rw [hattempts, hc, hcounted id', Nat.add_assoc]

end AttemptsInv

end Inv

/-! ## The handlers -/

section Handlers

variable [Fintype ι] [DecidableEq ι]

/-- The protocol of the requests (module doc). -/
def proto (κ : Crypto) (requests : ι → OtpRequest) (a₀ : OtpId → Nat) :
    Proto ((sig κ).tagged ι) ι (Store × Reading ι) where
  Gh := Ph
  inv := AttemptsInv κ requests a₀
  place g next := (∀ id ∈ next.bind fun c => counts c.2, g = .compare id) ∧
    (g.row.isSome = true → next.isSome = true)

variable {requests : ι → OtpRequest} {a₀ : OtpId → Nat} {config : AppConfig} {t : ι} {g : Ph}

/-- The handler `t` keeps the protocol, from the ghost value `g`. -/
def Kept (requests : ι → OtpRequest) (a₀ : OtpId → Nat) (t : ι)
    (p : Req κ (Option (AuthTokens κ))) (g : Ph) : Prop :=
  (proto κ requests a₀).Safe ((backend κ).recorded note) (InTime requests) t (p.tag t)
    (fun _ g => g.row = none) g

theorem kept_unnoted {c : (sig κ).Stmt} {k : (sig κ).Resp c → Req κ (Option (AuthTokens κ))}
    (hc : unnoted c = true) (hk : ∀ r, Kept requests a₀ t (k r) g) :
    Kept requests a₀ t (.call c k) g := by
  have hnone : counts c = none := by
    rcases c with c | c
    · rfl
    cases c with
    | otpUpdate id => cases hc
    | _ => rfl
  refine Proto.safe_call (P := proto κ requests a₀) ⟨?_, fun _ => rfl⟩ (fun γ x e hi _ => ?_)
    fun _ _ _ _ _ => hk _
  · intro id hid
    rw [Option.bind_some, hnone] at hid
    cases hid
  · simp only [Backend.recorded, note_unnoted hc]
    exact AttemptsInv.keep hi (fades_unnoted hc e x.1)

/-- The ghost value of a verification that has read a row. -/
inductive Ph.Read (κ : Crypto) (r : OtpRequest) (id : OtpId) (otp : Otp) : Ph → Prop
  | avant (h : ¬(wrong κ otp.codeHash r = true ∧ otp.attempts < maxOtpAttempts)) :
    Ph.Read κ r id otp .avant
  | perime : Ph.Read κ r id otp (.perime otp.expiresAt)
  | lu : Ph.Read κ r id otp (.lu id)

omit [DecidableEq ι] in
theorem total_le_pending {γ : ι → Ph} {x : Store × Reading ι}
    {next : ι → Option ((sig κ).tagged ι).Stmt} (h : AttemptsInv κ requests a₀ γ x)
    (hp : ∀ u, (γ u).row.isSome = true → (next u).isSome = true) {id : OtpId} {otp : Otp}
    (hr : x.1.otps.row id = some otp) :
    total Ph.row γ id ≤ (pending requests id otp.codeHash next x.2).card := by
  rw [pending, Finset.card_filter]
  refine Finset.sum_le_sum fun u _ => ?_
  by_cases hu : (γ u).row = some id
  · have hsome : (γ u).row.isSome = true := by rw [hu]; rfl
    rw [if_pos hu, if_pos ⟨(h.fits u).read id hu, (h.fits u).wrong id otp hu hr, hp u hsome⟩]
  · rw [if_neg hu]
    exact Nat.zero_le _

/-- The ghost value of a verification that reads the row `id`. -/
theorem exists_read {γ : ι → Ph} {s : Store} {h : Reading ι} {id : OtpId} {otp : Otp}
    (hi : AttemptsInv κ requests a₀ γ (s, h)) (hr : s.otps.row id = some otp)
    (hended : ∀ id', h.counted t ≠ some id')
    (hplace : wrong κ otp.codeHash (requests t) = true → s.clock ≤ otp.expiresAt →
      otp.attempts < maxOtpAttempts → otp.attempts + total Ph.row γ id < maxOtpAttempts) :
    ∃ g, Ph.Read κ (requests t) id otp g ∧ g.counted = none ∧
      Fits κ requests (s, { h with read := Function.update h.read t (some id) }) t g ∧
      ∀ id, g.row = some id → total Ph.row γ id + total Ph.counted γ id < maxOtpAttempts - a₀ id := by
  by_cases hw : wrong κ otp.codeHash (requests t) = true ∧ otp.attempts < maxOtpAttempts
  swap
  · exact ⟨_, .avant hw, rfl, .of_none rfl rfl (by rintro _ ⟨⟩) hended, by rintro _ ⟨⟩⟩
  by_cases hlate : otp.expiresAt < s.clock
  · refine ⟨_, .perime, rfl, .of_none rfl rfl ?_ hended, by rintro _ ⟨⟩⟩
    rintro d ⟨⟩
    exact hlate
  refine ⟨_, .lu, rfl, ⟨fun id' hid => ⟨?_, by rintro ⟨⟩⟩, ?_, ?_, by rintro _ ⟨⟩,
    fun id' hid => absurd hid (hended id')⟩, ?_⟩
  · rintro ⟨⟩
    exact absurd (Table.lt_of_get (Table.get_of_row hr)) (not_lt.mpr hid)
  · rintro _ ⟨⟩
    exact Function.update_self ..
  · rintro _ otp' ⟨⟩ hr'
    cases hr.symm.trans hr'
    exact hw.1
  · rintro _ ⟨⟩
    have hlt := hplace hw.1 (not_lt.mp hlate) hw.2
    have hcount := hi.count id otp hr
    omega

/-- The row that a verification reads. -/
theorem kept_findFirst {contact : OtpContact}
    {k : Option (OtpId × Otp) → Req κ (Option (AuthTokens κ))}
    (hnone : Kept requests a₀ t (k none) .avant)
    (hsome : ∀ id otp g, Ph.Read κ (requests t) id otp g → Kept requests a₀ t (k (some (id, otp))) g) :
    Kept requests a₀ t (.call (.inr (.otpFindFirst contact)) k) .avant := by
  refine ⟨⟨by rintro id ⟨⟩, fun _ => rfl⟩, fun γ next x e hi ht hp hn hok => ?_⟩
  have hi' : AttemptsInv κ requests a₀ γ (x.1.tick e, x.2) :=
    AttemptsInv.keep hi (.of_eq rfl (clock_le κ (.inr (.otpFindFirst contact)) e x.1))
  rcases hx : ((backend κ).exec (.inr (.otpFindFirst contact)) e x.1).1 with - | ⟨id, otp⟩
  · refine ⟨.avant, ?_, ?_⟩
    · rw [← ht, Function.update_eq_self]
      simp only [Backend.recorded, hx]
      exact hi'
    · simp only [Backend.recorded, hx]
      exact hnone
  have hr : x.1.otps.row id = some otp := otpFindFirst_some hx
  have hended : ∀ id', x.2.counted t ≠ some id' := by
    intro id' hid
    have hfini := (hi'.fits t).ended id' hid
    rw [ht] at hfini
    cases hfini
  obtain ⟨g, hread, hcounted, hfits, hbound⟩ := exists_read hi' hr hended fun hw htime hmax => by
    have hcard := hok contact (by rw [hn]; rfl) (id, otp) hx hw htime hmax
    have hle : total Ph.row γ id ≤ (pending requests id otp.codeHash next x.2).card :=
      total_le_pending hi (fun u => (hp u).2) hr
    simp only at hcard
    omega
  refine ⟨g, ?_, ?_⟩
  · simp only [Backend.recorded, hx]
    exact hi'.lire ht hcounted hfits hbound
  · simp only [Backend.recorded, hx]
    exact hsome id otp g hread

/-- The clock that is read before the comparison. -/
theorem kept_now {α : Type} {f : Time → Req κ α} {h : α → Req κ (Option (AuthTokens κ))}
    (hf : ∀ now, (∀ d, g = .perime d → d < now) →
      ∃ g', g.Next g' ∧ Kept requests a₀ t ((f now).bind h) g') :
    Kept requests a₀ t (((Prog.left (OumraHajj.await .now)).bind f).bind h) g := by
  refine ⟨⟨by rintro id ⟨⟩, fun _ => rfl⟩, fun γ next x e hi ht hp hn hok => ?_⟩
  have hi' : AttemptsInv κ requests a₀ γ (x.1.tick e, x.2) :=
    AttemptsInv.keep hi (.of_eq rfl (Int.le_max_left _ _))
  obtain ⟨g', hg', hk⟩ := hf (x.1.tick e).clock fun d hd => (hi'.fits t).late d (ht.trans hd)
  exact ⟨g', hi'.next ht hg', hk⟩

theorem kept_fail {x : Erreur} (hg : g.row = none) : Kept (κ := κ) requests a₀ t (.fail x) g := hg

/-- The attempt on the row is counted. -/
theorem kept_otpUpdate {id : OtpId} {k : Option Unit → Req κ (Option (AuthTokens κ))}
    (hk : ∀ r, Kept requests a₀ t (k r) (.fini id)) :
    Kept requests a₀ t (.call (.inr (.otpUpdate id)) k) (.compare id) := by
  refine ⟨⟨?_, fun _ => rfl⟩, fun γ next x e hi ht hp hn hok => ⟨.fini id, ?_, hk _⟩⟩
  · rintro id' hid
    cases hid
    rfl
  · exact AttemptsInv.compter hi ht e

/-- What remains of a handler that compares no wrong code. -/
theorem kept_tail {p : Req κ (Option (AuthTokens κ))} (hp : p.Uses fun c => unnoted c = true)
    (hg : g.row = none) : Kept requests a₀ t p g := by
  induction p with
  | ret a => exact hg
  | fail x => exact hg
  | call c k ih => exact kept_unnoted hp.1 fun r => ih r (hp.2 r)

theorem verifyOtp_kept {contact : OtpContact} {code : String} {fullName : Option String}
    (hq : requests t = .verifyOtp contact code fullName) :
    Kept requests a₀ t (handler (κ := κ) config (.verifyOtp contact code fullName)) .avant := by
  refine kept_findFirst (kept_fail rfl) fun id otp g hg => kept_now fun now hlate => ?_
  have hwrong : wrong κ otp.codeHash (requests t) = !κ.compare code otp.codeHash := by rw [hq]; rfl
  have hnone : g.counted = none := by cases hg <;> rfl
  split
  · exact ⟨.avant, .avant hnone, kept_fail rfl⟩
  rename_i hexp
  split
  · exact ⟨.avant, .avant hnone, kept_fail rfl⟩
  rename_i hmax
  split
  · rename_i hcompare
    cases hg with
    | avant h => exact absurd ⟨by rw [hwrong, hcompare]; rfl, not_le.mp hmax⟩ h
    | perime => exact absurd (hlate _ rfl) hexp
    | lu =>
      refine ⟨.compare id, .compare id, kept_otpUpdate fun r => ?_⟩
      rcases r with - | r
      · exact kept_fail rfl
      · exact kept_fail rfl
  refine ⟨.avant, .avant hnone, kept_unnoted rfl fun deleted => ?_⟩
  rcases deleted with - | deleted
  · exact kept_fail rfl
  have hlogin := (login_calm (κ := κ) config contact fullName).mono fun _ => unnoted_of_calm
  exact kept_tail (hlogin.bind fun _ => trivial) rfl

omit [DecidableEq ι] in
theorem place_none (requests : ι → OtpRequest) (a₀ : OtpId → Nat) (hg : g.row = none) :
    (proto κ requests a₀).place g none := by
  refine ⟨by rintro id ⟨⟩, fun hsome => ?_⟩
  rw [hg] at hsome
  cases hsome

theorem handler_kept (request : OtpRequest) (hq : requests t = request) :
    Kept requests a₀ t (handler (κ := κ) config request) .avant := by
  cases request with
  | requestOtp contact =>
    exact kept_tail ((requestOtp_unnoted config contact).bind fun _ => trivial) rfl
  | verifyOtp contact code fullName => exact verifyOtp_kept hq

omit [DecidableEq ι] in
theorem attemptsInv_init (s : Store) :
    AttemptsInv κ requests (attemptsOf s) (fun _ => .avant) (s, {}) where
  bound id := by
    rw [total_eq_zero fun u => (by rintro ⟨⟩), total_eq_zero fun u => (by rintro ⟨⟩)]
    exact Nat.zero_le _
  count id otp hr := by
    rw [total_eq_zero fun u => (by rintro ⟨⟩), attemptsOf, hr]
    rfl
  zero id hid := by
    have hrow : s.otps.row id = none := by
      by_contra hne
      obtain ⟨otp, hr⟩ := Option.ne_none_iff_exists'.mp hne
      exact absurd (Table.lt_of_get (Table.get_of_row hr)) (not_lt.mpr hid)
    rw [attemptsOf, hrow]
    rfl
  fits u := .of_none rfl rfl (by rintro _ ⟨⟩) (by rintro _ ⟨⟩)

/-- **Wrong guesses are bounded.** In every interleaving of requests for codes and verifications whose
reads satisfy `InTime`, the wrong codes that are compared with a row and the attempts that it had
before are `maxOtpAttempts` together at most. -/
theorem attempts_bounded {s : Store}
    {c : Pool ((sig κ).tagged ι) ι (Store × Reading ι) Erreur (Option (AuthTokens κ))}
    (hr : Pool.Reach ((backend κ).recorded note) (InTime requests) (poolOf config requests s) c)
    (id : OtpId) : (compared c id).card ≤ maxOtpAttempts - attemptsOf s id := by
  have h₀ : (proto κ requests (attemptsOf s)).Keeps ((backend κ).recorded note) (InTime requests)
      (fun _ _ g => g.row = none) (poolOf config requests s) :=
    ⟨fun _ => .avant, attemptsInv_init s, fun t => handler_kept (requests t) rfl⟩
  have hnone : ∀ (_ : ι) (_ : Except Erreur (Option (AuthTokens κ))) (g : Ph), g.row = none →
      (proto κ requests (attemptsOf s)).place g none :=
    fun _ _ _ hg => place_none requests (attemptsOf s) hg
  obtain ⟨γ, hi, -, hp⟩ := (Proto.reach hnone h₀ hr).place hnone
  refine le_trans ?_ (AttemptsInv.bound hi id)
  unfold compared total
  rw [Finset.card_filter, ← Finset.sum_add_distrib]
  refine Finset.sum_le_sum fun u _ => ?_
  split
  · rename_i hu
    rcases hu with hu | hu
    · have hcompare := (hp u).1 id hu
      rw [hcompare, if_pos (show (Ph.compare id).row = some id from rfl)]
      exact Nat.le_add_right _ _
    · rw [(hi.fits u).ended id hu, if_pos (show (Ph.fini id).counted = some id from rfl)]
      exact Nat.le_add_left _ _
  · exact Nat.zero_le _

end Handlers

/-! ## Schedules on fixed inputs -/

/-- Six guesses at the code of the pilgrim. -/
private def six : Pool ((sig Crypto.exemple).tagged (Fin 6)) (Fin 6) (Store × Reading (Fin 6))
    Erreur (Option (AuthTokens Crypto.exemple)) :=
  poolOf .exemple (fun _ => essai "000000") demande

/-- One guess follows the other: the sixth is refused. -/
private def unParUn : List (Fin 6 × Env) := tours [0, 0, 0, 1, 1, 1, 2, 2, 2, 3, 3, 3, 4, 4, 4, 5, 5]

theorem attempts_bounded_exemple :
    (compared (Pool.run ((backend _).recorded note) unParUn six) 0).card = 5 ∧
      (compared (Pool.run ((backend _).recorded note) unParUn six) 0).card ≤
        maxOtpAttempts - attemptsOf demande 0 := by
  have hallowed : Pool.Allowed ((backend _).recorded note) (InTime fun _ => essai "000000") six
      unParUn := by decide +kernel
  exact ⟨by decide +kernel, attempts_bounded (hallowed.reach .refl) 0⟩

/-- All of them read the row before one counts its attempt: six wrong codes are compared. -/
theorem attempts_exceeded : ¬ ∀ (requests : Fin 6 → OtpRequest) (s : Store)
    (c : Pool ((sig Crypto.exemple).tagged (Fin 6)) (Fin 6) (Store × Reading (Fin 6)) Erreur
      (Option (AuthTokens Crypto.exemple))),
    Pool.Reach ((backend _).recorded note) Pool.anyStep (poolOf .exemple requests s) c →
      ∀ id, (compared c id).card ≤ maxOtpAttempts := by
  intro h
  have hr : Pool.Reach ((backend _).recorded note) Pool.anyStep six
      (Pool.run ((backend _).recorded note) (tours [0, 1, 2, 3, 4, 5, 0, 1, 2, 3, 4, 5]) six) :=
    Pool.Reach.run .refl _
  have hle := h _ _ _ hr 0
  exact absurd hle (by decide +kernel)

end Attempts

end Otp

end OumraHajj.Auth
