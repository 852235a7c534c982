import Mathlib.Algebra.BigOperators.Group.Finset.Piecewise
import OumraHajj.Seats.Conservation

/-!
# Seats under concurrency

Creations and cancellations of bookings of one package run at once. `reserveSeat` and `releaseSeat`
read the counter and write a new value later, so another request can come in between, and `cancel`
tests the status before it releases, so two cancellations of one booking can both release its seat.
`FreshSeats` is the condition on a step under which neither happens, and `no_oversell` the result:
under every schedule of such steps the counter ends as the number of bookings, within the capacity.

**Ghost values** (`Ph`): a creation that has written the counter and has not created its booking
(`reserved`), a cancellation that has read the booking (`target`) and one that writes its status
next (`cancelling`). **Invariant** (`SeatInv`): the counter is the number of bookings that no
cancellation is about to cancel (`held`) plus the number of `reserved` creations.
-/

namespace OumraHajj

open Async

namespace Seats

/-- How far a request has come (module doc). -/
inductive Ph where
  | outside
  | reserved
  | target (id : BookingId)
  | cancelling (id : BookingId)
  deriving DecidableEq

/-- The statement that a request executes next. -/
def Ph.place : Ph → Option Stmt → Prop
  | .outside, n => ∀ id, n ≠ some (.bookingUpdate id .cancelled)
  | .reserved, n => ∃ pilgrimId p agencyId json, n = some (.bookingCreate pilgrimId p agencyId json)
  | .target _, n => ∀ id, n ≠ some (.bookingUpdate id .cancelled)
  | .cancelling id, n => n = some (.bookingUpdate id .cancelled)

variable {ι : Type} [DecidableEq ι] [Fintype ι] {p : PackageId} {γ : ι → Ph} {t : ι} {s : Db}
  {id : BookingId}

/-- A cancellation writes the status of the booking next. -/
def Pending (γ : ι → Ph) (id : BookingId) : Prop := ∃ t, γ t = .cancelling id

instance (γ : ι → Ph) : DecidablePred (Pending γ) :=
  fun id => inferInstanceAs (Decidable (∃ t, γ t = .cancelling id))

/-- The bookings that no cancellation is about to cancel. -/
def held (p : PackageId) (γ : ι → Ph) (s : Db) : Finset BookingId :=
  (s.holders p).filter fun id => ¬ Pending γ id

/-- The creations between the counter and the booking. -/
def reservers (γ : ι → Ph) : Finset ι := Finset.univ.filter fun t => γ t = .reserved

/-- The requests, on bookings of the package only. -/
def OnPackage (p : PackageId) (s : Db) : Request → Prop
  | .createBooking _ q => q = p
  | .cancelBooking _ id => ∀ b, s.bookings[id]? = some b → b.packageId = p
  | _ => False

theorem OnPackage.append {q : Request} (h : OnPackage p s q) {b : Booking} (hb : b.packageId = p) :
    OnPackage p { s with bookings := s.bookings ++ [b] } q := by
  cases q with
  | cancelBooking pilgrimId id =>
    intro b' hb'
    have hget := (Table.get_append s.bookings b id).symm.trans hb'
    split at hget
    · cases hget
      exact hb
    · exact h b' hget
  | _ => exact h

theorem OnPackage.putBooking {q : Request} (h : OnPackage p s q) {b b' : Booking}
    (hb : s.bookings[id]? = some b) (hp : b'.packageId = b.packageId) :
    OnPackage p (s.putBooking id b') q := by
  cases q with
  | cancelBooking pilgrimId id' =>
    intro b₁ hb₁
    have hget := (Table.get_set hb b' id').symm.trans hb₁
    split at hget
    · cases hget
      rename_i heq
      rw [hp]
      exact h b (heq ▸ hb)
    · exact h b₁ hget
  | _ => exact h

structure SeatInv (requests : ι → Request) (p : PackageId) (capacity : Int) (γ : ι → Ph) (s : Db) :
    Prop where
  row : ∃ pkg, s.packages[p]? = some pkg ∧ pkg.capacity = capacity ∧ pkg.seatsTaken ≤ capacity ∧
    pkg.seatsTaken = (held p γ s).card + (reservers γ).card
  onPackage : ∀ t, OnPackage p s (requests t)
  exists_of : ∀ t id, γ t = .target id ∨ γ t = .cancelling id → id < s.bookings.length

/-- The statement cancels the booking. -/
def cancels (id : BookingId) : Stmt → Bool
  | .bookingUpdate id' .cancelled => id' = id
  | _ => false

/-- Some request cancels the booking next. -/
def Cancelling (next : ι → Option Stmt) (id : BookingId) : Prop :=
  ∃ u, (next u).any (cancels id) = true

instance (next : ι → Option Stmt) (id : BookingId) : Decidable (Cancelling next id) :=
  inferInstanceAs (Decidable (∃ _, _))

/-- What a request adds to the counter: a creation one seat, a cancellation that is the first to
give back the seat of its booking minus one, and any other cancellation nothing. -/
def seatDelta (next : ι → Option Stmt) (s : Db) (p : PackageId) : Request → Int
  | .createBooking _ _ => 1
  | .cancelBooking _ id => if id ∈ s.holders p ∧ ¬ Cancelling next id then -1 else 0
  | _ => 0

/-- The value that the statement writes to the counter of the package. -/
def writesCounter (p : PackageId) : Stmt → Option Int
  | .packageUpdate q data => if q = p then data.seatsTaken else none
  | _ => none

/-- A request that writes the counter of the package adds to its value then what the request is to
add. -/
def FreshSeats (requests : ι → Request) (p : PackageId) : Pool.Cond prismaSig ι Db Env :=
  fun next s t _ => ∀ n ∈ (next t).bind (writesCounter p), ∀ pkg ∈ s.packages[p]?,
    n = pkg.seatsTaken + seatDelta next s p (requests t)

instance (requests : ι → Request) (p : PackageId) (next : ι → Option Stmt) (s : Db) (t : ι)
    (e : Env) : Decidable (FreshSeats requests p next s t e) :=
  inferInstanceAs (Decidable (∀ _ ∈ _, _))

omit [DecidableEq ι] in
theorem FreshSeats.delta {requests : ι → Request} {next : ι → Option Stmt} {e : Env}
    (h : FreshSeats requests p next s t e) {data : PackageUpdate} {n : Int} {pkg : Package}
    (hn : next t = some (.packageUpdate p data)) (hd : data.seatsTaken = some n)
    (hp : s.packages[p]? = some pkg) :
    n = pkg.seatsTaken + seatDelta next s p (requests t) := by
  have hw : (next t).bind (writesCounter p) = some n := by
    rw [hn, Option.bind_some, writesCounter, if_pos rfl, hd]
  exact h n hw pkg hp

/-! ## Updates of a ghost value -/

omit [Fintype ι] in
theorem pending_update_of_ne {g : Ph} (hold : γ t ≠ .cancelling id) (hg : g ≠ .cancelling id) :
    Pending (Function.update γ t g) id ↔ Pending γ id := by
  unfold Pending
  constructor
  · rintro ⟨u, hu⟩
    by_cases hut : u = t
    · rw [hut, Function.update_self] at hu
      exact absurd hu hg
    · rw [Function.update_of_ne hut] at hu
      exact ⟨u, hu⟩
  · rintro ⟨u, hu⟩
    have hut : u ≠ t := fun h => hold (h ▸ hu)
    exact ⟨u, by rw [Function.update_of_ne hut, hu]⟩

theorem cancels_iff {c : Stmt} : cancels id c = true ↔ c = .bookingUpdate id .cancelled := by
  constructor
  · intro h
    unfold cancels at h
    split at h
    · rw [of_decide_eq_true h]
    · cases h
  · rintro rfl
    exact decide_eq_true rfl

omit [DecidableEq ι] [Fintype ι] in
/-- The cancellations that write next are those with the ghost value `cancelling`. -/
theorem cancelling_iff {next : ι → Option Stmt} (h : ∀ u, (γ u).place (next u)) (id : BookingId) :
    Cancelling next id ↔ Pending γ id := by
  constructor
  · rintro ⟨u, hu⟩
    obtain ⟨c, hc, hcancels⟩ := (Option.any_eq_true _ _).mp hu
    rw [cancels_iff.mp hcancels] at hc
    have hplace := h u
    rw [hc] at hplace
    rcases hg : γ u with _ | _ | id' | id' <;> rw [hg] at hplace
    · exact absurd rfl (hplace id)
    · obtain ⟨_, _, _, _, heq⟩ := hplace
      cases heq
    · exact absurd rfl (hplace id)
    · cases hplace
      exact ⟨u, hg⟩
  · rintro ⟨u, hu⟩
    have hplace := h u
    rw [hu] at hplace
    refine ⟨u, ?_⟩
    rw [hplace]
    exact cancels_iff.mpr rfl

theorem card_reservers_update (g : Ph) :
    (reservers (Function.update γ t g)).card + (if γ t = .reserved then 1 else 0) =
      (reservers γ).card + if g = .reserved then 1 else 0 := by
  simp only [reservers, Finset.card_filter]
  exact Proto.sum_update (fun g => if g = .reserved then 1 else 0) γ t g

theorem card_reservers_keep {g : Ph} (hold : γ t ≠ .reserved) (hg : g ≠ .reserved) :
    (reservers (Function.update γ t g)).card = (reservers γ).card := by
  simpa [hold, hg] using card_reservers_update (γ := γ) (t := t) g

theorem card_reservers_insert (hold : γ t ≠ .reserved) :
    (reservers (Function.update γ t .reserved)).card = (reservers γ).card + 1 := by
  simpa [hold] using card_reservers_update (γ := γ) (t := t) .reserved

theorem card_reservers_erase {g : Ph} (hold : γ t = .reserved) (hg : g ≠ .reserved) :
    (reservers (Function.update γ t g)).card + 1 = (reservers γ).card := by
  simpa [hold, hg] using card_reservers_update (γ := γ) (t := t) g

omit [DecidableEq ι] in
theorem mem_held : id ∈ held p γ s ↔ id ∈ s.holders p ∧ ¬ Pending γ id := by
  simp [held]

/-- The bookings held do not depend on what a thread does outside cancellations. -/
theorem held_update {g : Ph} (hold : ∀ id, γ t ≠ .cancelling id) (hg : ∀ id, g ≠ .cancelling id) :
    held p (Function.update γ t g) s = held p γ s := by
  ext id
  rw [mem_held, mem_held, pending_update_of_ne (hold id) (hg id)]

/-- A cancellation takes its booking out of those held. -/
theorem held_update_cancelling (hold : ∀ id, γ t ≠ .cancelling id) (id : BookingId) :
    held p (Function.update γ t (.cancelling id)) s = (held p γ s).erase id := by
  ext id'
  rw [mem_held, Finset.mem_erase, mem_held]
  by_cases hid : id' = id
  · subst hid
    have hpend : Pending (Function.update γ t (.cancelling id')) id' :=
      ⟨t, Function.update_self _ _ _⟩
    simp [hpend]
  · rw [pending_update_of_ne (hold id') (fun h => hid (Ph.cancelling.inj h).symm)]
    simp [hid]

/-! ## What each statement does to the invariant -/

namespace SeatInv

variable {requests : ι → Request} {capacity : Int} {pkg : Package} {b : Booking}

/-- The ghost value stays as it is. -/
theorem keep (h : SeatInv requests p capacity γ s) {g : Ph} (ht : γ t = g) :
    SeatInv requests p capacity (Function.update γ t g) s := by
  rw [← ht, Function.update_eq_self]
  exact h

/-- The rows that a request has found still exist. -/
theorem exists_update (h : SeatInv requests p capacity γ s) {g : Ph}
    (hg : ∀ id, g = .target id ∨ g = .cancelling id → id < s.bookings.length) (u : ι)
    (id : BookingId)
    (hu : Function.update γ t g u = .target id ∨ Function.update γ t g u = .cancelling id) :
    id < s.bookings.length := by
  by_cases hut : u = t
  · subst hut
    rw [Function.update_self] at hu
    exact hg id hu
  · rw [Function.update_of_ne hut] at hu
    exact h.exists_of u id hu

/-- A cancellation has read its booking. -/
theorem toTarget (h : SeatInv requests p capacity γ s) (ht : γ t = .outside)
    (hb : s.bookings[id]? = some b) :
    SeatInv requests p capacity (Function.update γ t (.target id)) s := by
  refine ⟨?_, h.onPackage, h.exists_update fun id' hid => ?_⟩
  · rw [held_update (by simp [ht]) (by simp), card_reservers_keep (by simp [ht]) (by simp)]
    exact h.row
  · obtain rfl : id = id' := by simpa using hid
    exact Table.lt_of_get hb

/-- A cancellation has read a booking that is `CANCELLED` already. -/
theorem toCancelling (h : SeatInv requests p capacity γ s) (ht : γ t = .outside)
    (hb : s.bookings[id]? = some b) (hst : b.status = .cancelled) :
    SeatInv requests p capacity (Function.update γ t (.cancelling id)) s := by
  have hnot : id ∉ held p γ s := by
    intro hid
    obtain ⟨b', hb', -, hst'⟩ := Db.mem_holders.mp (mem_held.mp hid).1
    rw [hb, Option.some.injEq] at hb'
    exact hst' (hb' ▸ hst)
  refine ⟨?_, h.onPackage, h.exists_update fun id' hid => ?_⟩
  · rw [held_update_cancelling (by simp [ht]), Finset.erase_eq_of_notMem hnot,
      card_reservers_keep (by simp [ht]) (by simp)]
    exact h.row
  · obtain rfl : id = id' := by simpa using hid
    exact Table.lt_of_get hb

omit [DecidableEq ι] in
/-- The package is written. -/
theorem write (h : SeatInv requests p capacity γ s) (hp : s.packages[p]? = some pkg) {γ' : ι → Ph}
    {data : PackageUpdate}
    (hn : (data.apply pkg).seatsTaken = (held p γ' s).card + (reservers γ').card)
    (hle : (data.apply pkg).seatsTaken ≤ capacity)
    (hex : ∀ t id, γ' t = .target id ∨ γ' t = .cancelling id → id < s.bookings.length) :
    SeatInv requests p capacity γ' (s.putPackage p (data.apply pkg)) := by
  obtain ⟨pkg', hp', hcap, -, -⟩ := h.row
  obtain rfl : pkg = pkg' := Option.some.inj (hp.symm.trans hp')
  have hget : (s.putPackage p (data.apply pkg)).packages[p]? = some (data.apply pkg) := by
    unfold Db.putPackage
    rw [Table.get_set hp, if_pos rfl]
  exact ⟨⟨_, hget, hcap, hle, hn⟩, h.onPackage, hex⟩

omit [DecidableEq ι] in
/-- A write that leaves the counter. -/
theorem writeStatus (h : SeatInv requests p capacity γ s) (hp : s.packages[p]? = some pkg)
    {data : PackageUpdate} (hd : data.seatsTaken = none) :
    SeatInv requests p capacity γ (s.putPackage p (data.apply pkg)) := by
  obtain ⟨pkg', hp', hcap, hle, hn⟩ := h.row
  obtain rfl : pkg = pkg' := Option.some.inj (hp.symm.trans hp')
  have hsame : (data.apply pkg).seatsTaken = pkg.seatsTaken := by
    unfold PackageUpdate.apply
    rw [hd]
    rfl
  exact h.write hp (hsame.trans hn) (hsame ▸ hle) h.exists_of

/-- A creation takes a seat. -/
theorem reserve (h : SeatInv requests p capacity γ s) (ht : γ t = .outside)
    (hp : s.packages[p]? = some pkg) {data : PackageUpdate}
    (hd : data.seatsTaken = some (pkg.seatsTaken + 1)) (hlt : pkg.seatsTaken < capacity) :
    SeatInv requests p capacity (Function.update γ t .reserved) (s.putPackage p (data.apply pkg)) := by
  obtain ⟨pkg', hp', hcap, hle, hn⟩ := h.row
  obtain rfl : pkg = pkg' := Option.some.inj (hp.symm.trans hp')
  have hnew : (data.apply pkg).seatsTaken = pkg.seatsTaken + 1 := by
    unfold PackageUpdate.apply
    rw [hd]
    rfl
  have hcard := card_reservers_insert (γ := γ) (t := t) (by simp [ht])
  refine h.write hp ?_ (by omega) (h.exists_update (by simp))
  rw [held_update (by simp [ht]) (by simp), hcard, hnew, hn]
  push_cast
  ring

/-- A creation creates its booking. -/
theorem created (h : SeatInv requests p capacity γ s) (ht : γ t = .reserved) (hb : b.packageId = p)
    (hst : b.status ≠ .cancelled) :
    SeatInv requests p capacity (Function.update γ t .outside)
      { s with bookings := s.bookings ++ [b] } := by
  obtain ⟨pkg, hp, hcap, hle, hn⟩ := h.row
  have hcard := card_reservers_erase (γ := γ) (t := t) (g := .outside) ht (by simp)
  have hheld : held p (Function.update γ t .outside) { s with bookings := s.bookings ++ [b] } =
      insert s.bookings.length (held p γ s) := by
    have hnew : ¬ Pending γ s.bookings.length := by
      rintro ⟨u, hu⟩
      exact absurd (h.exists_of u _ (.inr hu)) (Nat.lt_irrefl _)
    rw [held_update (by simp [ht]) (by simp)]
    ext id
    rw [mem_held, Finset.mem_insert, mem_held, Db.holders_append s b p hst, if_pos hb,
      Finset.mem_insert]
    constructor
    · rintro ⟨rfl | hid, hpend⟩
      · exact .inl rfl
      · exact .inr ⟨hid, hpend⟩
    · rintro (rfl | ⟨hid, hpend⟩)
      · exact ⟨.inl rfl, hnew⟩
      · exact ⟨.inr hid, hpend⟩
  have hnot : s.bookings.length ∉ held p γ s := fun hid =>
    s.length_not_mem_holders p (mem_held.mp hid).1
  refine ⟨⟨pkg, hp, hcap, hle, ?_⟩, fun u => ?_, fun u id hu => ?_⟩
  · rw [hheld, Finset.card_insert_of_notMem hnot]
    omega
  · exact (h.onPackage u).append hb
  · have := h.exists_update (t := t) (g := .outside) (by simp) u id hu
    rw [List.length_append]
    exact Nat.lt_add_right _ this

/-- A cancellation that has read its booking writes the counter: it gives the seat back, unless
the booking is `CANCELLED` or about to be. -/
theorem release (h : SeatInv requests p capacity γ s) (ht : γ t = .target id)
    (hp : s.packages[p]? = some pkg) {data : PackageUpdate} {n : Int}
    (hd : data.seatsTaken = some n)
    (hdelta : n = pkg.seatsTaken + if id ∈ held p γ s then -1 else 0) :
    SeatInv requests p capacity (Function.update γ t (.cancelling id))
      (s.putPackage p (data.apply pkg)) := by
  obtain ⟨pkg', hp', hcap, hle, hn⟩ := h.row
  obtain rfl : pkg = pkg' := Option.some.inj (hp.symm.trans hp')
  have hnew : (data.apply pkg).seatsTaken = n := by
    unfold PackageUpdate.apply
    rw [hd]
    rfl
  have hlt := h.exists_of t id (.inl ht)
  have hex := h.exists_update (t := t) (g := .cancelling id) fun id' hid => by
    obtain rfl : id = id' := by simpa using hid
    exact hlt
  have hres : (reservers (Function.update γ t (.cancelling id))).card = (reservers γ).card :=
    card_reservers_keep (by simp [ht]) (by simp)
  have hheld := held_update_cancelling (p := p) (s := s) (t := t) (γ := γ) (by simp [ht]) id
  by_cases hid : id ∈ held p γ s
  · rw [if_pos hid] at hdelta
    have hcard := Finset.card_erase_add_one hid
    refine h.write hp ?_ (by omega) hex
    rw [hheld, hres, hnew]
    omega
  · rw [if_neg hid] at hdelta
    refine h.write hp ?_ (by omega) hex
    rw [hheld, hres, hnew, Finset.erase_eq_of_notMem hid]
    omega

/-- A cancellation writes the status of its booking. -/
theorem cancelled (h : SeatInv requests p capacity γ s) (ht : γ t = .cancelling id)
    (hb : s.bookings[id]? = some b) :
    SeatInv requests p capacity (Function.update γ t .outside)
      (s.putBooking id { b with status := .cancelled }) := by
  obtain ⟨pkg, hp, hcap, hle, hn⟩ := h.row
  have hheld : held p (Function.update γ t .outside) (s.putBooking id { b with status := .cancelled })
      = held p γ s := by
    ext id'
    rw [mem_held, mem_held, Db.holders_putBooking_cancelled hb rfl, Finset.mem_erase]
    by_cases hid : id' = id
    · subst hid
      have hpend : Pending γ id' := ⟨t, ht⟩
      simp [hpend]
    · have hne : γ t ≠ .cancelling id' := by
        rw [ht]
        exact fun h => hid (Ph.cancelling.inj h).symm
      rw [pending_update_of_ne hne (by simp)]
      simp [hid]
  refine ⟨⟨pkg, hp, hcap, hle, ?_⟩, fun u => ?_, fun u id' hu => ?_⟩
  · rw [hheld, card_reservers_keep (by simp [ht]) (by simp)]
    exact hn
  · exact (h.onPackage u).putBooking hb rfl
  · have := h.exists_update (t := t) (g := .outside) (by simp) u id' hu
    unfold Db.putBooking
    rwa [List.length_set]

end SeatInv

/-! ## The requests keep the protocol -/

section Requests

variable {requests : ι → Request} {capacity : Int}

/-- The protocol of the requests. -/
abbrev proto (requests : ι → Request) (p : PackageId) (capacity : Int) : Proto prismaSig ι Db where
  Gh := Ph
  inv := SeatInv requests p capacity
  place := Ph.place

/-- A request ends with nothing left to do. -/
def Ends (_ : Except Erreur Unit) (g : Ph) : Prop := g.place none

/-- A statement that only reads. -/
theorem safe_read {α : Type} {c : Stmt} {k : c.Resp → Req α} {Q : Except Erreur α → Ph → Prop}
    {g : Ph} (hc : ReadOnly c) (hp : g.place (some c))
    (hk : ∀ γ s e, SeatInv requests p capacity γ s → γ t = g →
      (proto requests p capacity).Safe prisma (FreshSeats requests p) t (k (exec c e s).1) Q g) :
    (proto requests p capacity).Safe prisma (FreshSeats requests p) t (.call c k) Q g := by
  refine Proto.safe_call (P := proto requests p capacity) hp (fun γ s e hi _ => ?_) hk
  rw [prisma_exec, hc e s]
  exact hi

/-- The next statement cancels no booking. -/
theorem ne_cancelled {n : Option Stmt} (h : ∀ id, n.any (cancels id) = false) (id : BookingId) :
    n ≠ some (.bookingUpdate id .cancelled) := by
  rintro rfl
  have := h id
  rw [Option.any_some, cancels_iff.mpr rfl] at this
  cases this

theorem create_safe {pilgrimId : UserId} (hq : requests t = .createBooking pilgrimId p) :
    (proto requests p capacity).Safe prisma (FreshSeats requests p) t
      (BookingsService.create pilgrimId p).void Ends .outside := by
  simp only [Prog.void, BookingsService.create, PackagesService.reserveSeat,
    PackagesService.findByIdOrFail, PackagesService.update, Prog.bind_eq, await_bind,
    Prog.call_bind]
  refine safe_read (fun _ _ => rfl) (ne_cancelled fun _ => rfl) fun γ s e hi _ => ?_
  obtain ⟨pkg, hp, -⟩ := hi.row
  simp only [exec, hp, Prog.pure_eq, Prog.ret_bind, Prog.call_bind]
  refine safe_read (fun _ _ => rfl) (ne_cancelled fun _ => rfl) fun _ _ _ _ _ => ?_
  refine safe_read (fun _ _ => rfl) (ne_cancelled fun _ => rfl) fun γ s e hi _ => ?_
  obtain ⟨pkg', hp', hcap, -⟩ := hi.row
  simp only [exec, hp', Prog.ret_bind]
  by_cases hopen : (toPackageShape p pkg').status ≠ .open
  · rw [if_pos hopen]
    exact ne_cancelled fun _ => rfl
  rw [if_neg hopen]
  by_cases hfull : (toPackageShape p pkg').seatsTaken ≥ (toPackageShape p pkg').capacity
  · rw [if_pos hfull]
    simp only [toPackageShape, Prog.call_bind]
    refine Proto.safe_call (P := proto requests p capacity) (ne_cancelled fun _ => rfl)
      (fun γ s e hi _ => ?_) fun γ s e hi _ => ?_
    · obtain ⟨pkg, hp, -⟩ := hi.row
      simp only [prisma_exec, exec, hp]
      exact hi.writeStatus hp rfl
    · obtain ⟨pkg, hp, -⟩ := hi.row
      simp only [prisma_exec, exec, hp, Prog.ret_bind]
      exact ne_cancelled fun _ => rfl
  · rw [if_neg hfull]
    have hlt : pkg'.seatsTaken < pkg'.capacity := not_le.mp hfull
    simp only [toPackageShape, Prog.call_bind]
    refine ⟨ne_cancelled fun _ => rfl, fun γ next s e hi hg _ hn hok => ?_⟩
    obtain ⟨pkg'', hp'', -, hle, -⟩ := hi.row
    have hfresh : pkg'.seatsTaken + 1 = pkg''.seatsTaken + 1 := by
      have := hok.delta hn rfl hp''
      rwa [hq] at this
    refine ⟨.reserved, ?_, ?_⟩
    · simp only [prisma_exec, exec, hp'']
      exact hi.reserve hg hp'' (congrArg some (by omega)) (by omega)
    · simp only [prisma_exec, exec, hp'', Prog.ret_bind, Prog.call_bind]
      refine ⟨⟨_, _, _, _, rfl⟩, fun γ next s e hi hg _ _ _ => ?_⟩
      exact ⟨.outside, hi.created hg rfl (by simp), ne_cancelled fun _ => rfl⟩

/-- The last statement of a cancellation. -/
theorem updateStatus_safe : (proto requests p capacity).Safe prisma (FreshSeats requests p) t
    ((BookingsService.updateStatus id .cancelled).bind fun _ => .ret ()) Ends (.cancelling id) := by
  refine ⟨rfl, fun γ next s e hi hg _ _ _ => ?_⟩
  have hlt := hi.exists_of t id (.inr hg)
  have hb : s.bookings[id]? = some s.bookings[id] := List.getElem?_eq_getElem hlt
  simp only [prisma_exec, exec, hb]
  exact ⟨.outside, hi.cancelled hg hb, ne_cancelled fun _ => rfl⟩

/-- The next statements write the counter and the status. -/
theorem releaseSeat_safe {pilgrimId : UserId} (hq : requests t = .cancelBooking pilgrimId id) :
    (proto requests p capacity).Safe prisma (FreshSeats requests p) t
      ((PackagesService.releaseSeat p).bind fun _ =>
        (BookingsService.updateStatus id .cancelled).bind fun _ => .ret ()) Ends (.target id) := by
  simp only [PackagesService.releaseSeat, PackagesService.findByIdOrFail, PackagesService.update,
    Prog.bind_eq, await_bind, Prog.call_bind]
  refine safe_read (fun _ _ => rfl) (ne_cancelled fun _ => rfl) fun γ s e hi _ => ?_
  obtain ⟨pkg, hp, -⟩ := hi.row
  simp only [exec, hp, Prog.pure_eq, Prog.ret_bind, toPackageShape, Prog.call_bind]
  refine ⟨ne_cancelled fun _ => rfl, fun γ next s e hi hg hplace hn hok => ?_⟩
  obtain ⟨pkg', hp', -⟩ := hi.row
  have hdelta := hok.delta hn rfl hp'
  have hheld : (id ∈ s.holders p ∧ ¬ Cancelling next id) ↔ id ∈ held p γ s := by
    rw [mem_held, cancelling_iff hplace]
  simp only [hq, seatDelta, hheld] at hdelta
  simp only [prisma_exec, exec, hp', Prog.ret_bind]
  exact ⟨.cancelling id, hi.release hg hp' rfl hdelta, updateStatus_safe⟩

theorem cancel_safe {pilgrimId : UserId} (hq : requests t = .cancelBooking pilgrimId id) :
    (proto requests p capacity).Safe prisma (FreshSeats requests p) t
      (BookingsService.cancel pilgrimId id).void Ends .outside := by
  simp only [Prog.void, BookingsService.cancel, BookingsService.findByIdOrFail, Prog.bind_eq,
    await_bind, Prog.call_bind]
  refine ⟨ne_cancelled fun _ => rfl, fun γ next s e hi hg _ _ _ => ?_⟩
  have hkeep := hi.keep hg
  rcases hb : s.bookings[id]? with _ | b
  · simp only [prisma_exec, exec, hb]
    exact ⟨.outside, hkeep, ne_cancelled fun _ => rfl⟩
  have hpkg : (toBookingShape id b).packageId = p := by
    have := hi.onPackage t
    rw [hq] at this
    exact this b hb
  simp only [prisma_exec, exec, hb, Prog.pure_eq, Prog.ret_bind]
  by_cases hpil : (toBookingShape id b).pilgrimId ≠ pilgrimId
  · rw [if_pos hpil]
    exact ⟨.outside, hkeep, ne_cancelled fun _ => rfl⟩
  rw [if_neg hpil]
  by_cases hst : (toBookingShape id b).status ≠ .cancelled
  · rw [if_pos hst, hpkg, Prog.bind_assoc]
    exact ⟨.target id, hi.toTarget hg hb, releaseSeat_safe hq⟩
  · rw [if_neg hst]
    exact ⟨.cancelling id, hi.toCancelling hg hb (not_not.mp hst), updateStatus_safe⟩

theorem handler_safe (h : OnPackage p s (requests t)) :
    (proto requests p capacity).Safe prisma (FreshSeats requests p) t (handler (requests t)) Ends
      .outside := by
  rcases hreq : requests t with ⟨pilgrimId, q⟩ | ⟨pilgrimId, id⟩ | _ <;> rw [hreq] at h
  · obtain rfl : q = p := h
    exact create_safe hreq
  · exact cancel_safe hreq
  all_goals exact h.elim

omit [DecidableEq ι] in
/-- No request has started. -/
theorem SeatInv.start {pkg : Package} (hp : s.packages[p]? = some pkg)
    (hn : pkg.seatsTaken = (s.holders p).card) (hle : ((s.holders p).card : Int) ≤ pkg.capacity)
    (hq : ∀ t, OnPackage p s (requests t)) :
    SeatInv requests p pkg.capacity (fun _ => .outside) s := by
  refine ⟨⟨pkg, hp, rfl, hn ▸ hle, ?_⟩, hq, nofun⟩
  have hheld : held p (fun _ : ι => .outside) s = s.holders p := by
    ext id
    rw [mem_held]
    exact and_iff_left nofun
  have hres : reservers (fun _ : ι => .outside) = ∅ := by simp [reservers]
  rw [hheld, hres, hn]
  simp

omit [DecidableEq ι] in
/-- Every request has ended. -/
theorem SeatInv.finish (h : SeatInv requests p capacity γ s) (hend : ∀ t, (γ t).place none) :
    SeatsConserved p s := by
  obtain ⟨pkg, hp, rfl, hle, hn⟩ := h.row
  have hheld : held p γ s = s.holders p := by
    ext id
    rw [mem_held]
    refine and_iff_left fun ⟨t, ht⟩ => ?_
    have := hend t
    rw [ht] at this
    cases this
  have hres : reservers γ = ∅ := by
    refine Finset.filter_eq_empty_iff.mpr fun t _ ht => ?_
    have := hend t
    rw [ht] at this
    obtain ⟨_, _, _, _, heq⟩ := this
    cases heq
  rw [hheld, hres, Finset.card_empty, Nat.cast_zero, add_zero] at hn
  exact ⟨pkg, hp, hn, hn ▸ hle⟩

end Requests

end Seats

/-! ## Results -/

/-- **No oversell.** Creations and cancellations of bookings of the package run at once, and each one
writes the counter from its value then. Once all have ended, the counter is the number of bookings
that are not `CANCELLED`, within the capacity. -/
theorem no_oversell {ι : Type} [DecidableEq ι] [Fintype ι] {requests : ι → Request} {p : PackageId}
    {s : Db} (h₀ : SeatsConserved p s) (hq : ∀ t, Seats.OnPackage p s (requests t))
    {c : Pool prismaSig ι Db Erreur Unit}
    (hr : Pool.Reach prisma (Seats.FreshSeats requests p) (poolOf requests s) c)
    (hf : c.Finished) : SeatsConserved p c.st := by
  obtain ⟨pkg, hp, hn, hle⟩ := h₀
  have hstart : (Seats.proto requests p pkg.capacity).Keeps prisma (Seats.FreshSeats requests p)
      (fun _ => Seats.Ends) (poolOf requests s) :=
    ⟨fun _ => .outside, Seats.SeatInv.start hp hn hle hq, fun t => Seats.handler_safe (hq t)⟩
  have hkeeps := Proto.reach (fun _ _ _ h => h) hstart hr
  obtain ⟨γ, hi, -, hplace⟩ := hkeeps.place fun _ _ _ h => h
  refine hi.finish fun t => ?_
  have := hplace t
  rwa [hf t] at this

/-! ## Schedules on fixed inputs -/

private def reserverAnnuler : Fin 2 → Request
  | 0 => .createBooking 0 0
  | 1 => .cancelBooking 0 0

/-- The cancellation runs after the creation. -/
private def apres : Pool prismaSig (Fin 2) Db Erreur Unit :=
  Pool.run prisma (turns [0, 0, 0, 0, 0, 1, 1, 1, 1]) (poolOf reserverAnnuler .exemple)

theorem no_oversell_exemple : SeatsConserved 0 apres.st := by
  have hq : ∀ t, Seats.OnPackage 0 .exemple (reserverAnnuler t) := by
    intro t
    match t with
    | 0 => rfl
    | 1 =>
      intro b hb
      simp [Db.exemple] at hb
  have hallowed : Pool.Allowed prisma (Seats.FreshSeats reserverAnnuler 0)
      (poolOf reserverAnnuler .exemple) (turns [0, 0, 0, 0, 0, 1, 1, 1, 1]) := by decide +kernel
  exact no_oversell (by decide) hq (hallowed.reach .refl) (by decide +kernel)

/-- Two creations read the counter before either writes it. -/
private def survente : Pool prismaSig (Fin 2) Db Erreur Unit :=
  Pool.run prisma (turns [0, 0, 0, 1, 1, 1, 0, 1, 0, 1])
    (poolOf (fun _ => .createBooking 0 0) .exemple)

theorem oversold : ¬ ∀ (requests : Fin 2 → Request) (p : PackageId) (s : Db)
    (c : Pool prismaSig (Fin 2) Db Erreur Unit), SeatsConserved p s →
    (∀ t, Seats.OnPackage p s (requests t)) →
    Pool.Reach prisma Pool.anyStep (poolOf requests s) c → c.Finished → SeatsConserved p c.st := by
  intro h
  have hr : Pool.Reach prisma Pool.anyStep (poolOf (fun _ => .createBooking 0 0) .exemple)
      survente := Pool.Reach.run .refl _
  have hf : survente.Finished := by decide +kernel
  have hnot : ¬ SeatsConserved 0 survente.st := by decide +kernel
  exact hnot (h (fun _ => .createBooking 0 0) 0 .exemple survente (by decide) (fun _ => rfl) hr hf)

end OumraHajj
