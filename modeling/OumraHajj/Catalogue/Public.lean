import Mathlib.Data.List.Sort
import OumraHajj.Spec.Packages

/-!
# The public packages

`PackagesService.listPublic` (`src/modules/packages/packages.service.ts`): the open packages that suit a family,
by price if it has a budget, else by departure. The seats are compared after the query. `Reservable s id n`: of
up to `n` requests for the package that come one after the other, among requests for other packages, every one
gets its booking.
-/

namespace OumraHajj.Catalogue

open Async

structure QueryPackagesDto where
  type : Option PilgrimageType := none
  agencyId : Option AgencyId := none
  maxBudget : Option ℚ := none
  familySize : Option Int := none
  startDateFrom : Option Time := none
  startDateTo : Option Time := none
  /-- `@IsPositive()`. -/
  maxBudget_pos : ∀ b ∈ maxBudget, 0 < b := by decide
  /-- `@Min(1)`. -/
  familySize_pos : ∀ n ∈ familySize, 1 ≤ n := by decide

namespace QueryPackagesDto

variable (query : QueryPackagesDto)

/-- The `where` of the query, but for the status. -/
def Convient (p : Package) : Prop :=
  (∀ t ∈ query.type, p.type = t) ∧ (∀ a ∈ query.agencyId, p.agencyId = a) ∧
    (∀ b ∈ query.maxBudget, p.price ≤ b) ∧ (∀ d ∈ query.startDateFrom, d ≤ p.startDate) ∧
      ∀ d ∈ query.startDateTo, p.startDate ≤ d

instance (p : Package) : Decidable (query.Convient p) := inferInstanceAs (Decidable (_ ∧ _))

/-- `orderBy`. -/
def Avant (x y : PackageId × Package) : Prop :=
  if query.maxBudget.isSome then x.2.price ≤ y.2.price else x.2.startDate ≤ y.2.startDate

instance (x y : PackageId × Package) : Decidable (query.Avant x y) := by
  unfold Avant
  infer_instance

end QueryPackagesDto

/-- The rows that are equal for `orderBy` come in the order that the database finds. -/
structure PublicEnv where
  ordre : PackageId → Nat := id

inductive PublicQuery where
  /-- `where: { status: 'OPEN', … }`, `orderBy`. -/
  | packageFindMany (query : QueryPackagesDto)

def PublicQuery.Resp : PublicQuery → Type
  | .packageFindMany _ => List (PackageId × Package)

abbrev publicSig : Sig := ⟨PublicQuery, PublicQuery.Resp⟩

/-- The query reads the database. -/
def publicBackend : Backend publicSig Db PublicEnv where
  exec
    | .packageFindMany query, e, s =>
      (((s.packages.findMany fun p => p.status = .open ∧ query.Convient p).insertionSort
        fun x y => e.ordre x.1 ≤ e.ordre y.1).insertionSort query.Avant, s)

namespace PackagesService

def listPublic (query : QueryPackagesDto) : Prog publicSig Erreur (List PackageShape) := do
  let pkgs ← @Prog.exec publicSig _ (.packageFindMany query)
  let filtered : List (PackageId × Package) :=
    match query.familySize with
    | some n => List.filter (fun p : PackageId × Package => p.2.capacity - p.2.seatsTaken ≥ n) pkgs
    | none => pkgs
  return filtered.map fun p => toPackageShape p.1 p.2

end PackagesService

/-! ## What is listed -/

section Listed

variable {query : QueryPackagesDto} {s s' : Db} {shapes : List PackageShape}

theorem listPublic_runs {r : Except Erreur (List PackageShape)}
    (h : publicBackend.Runs (PackagesService.listPublic query) s r s') :
    ∃ rows : List (PackageId × Package), r = .ok (rows.map fun p => toPackageShape p.1 p.2) ∧
      rows.Pairwise query.Avant ∧ ∀ id p, (id, p) ∈ rows ↔ s.packages[id]? = some p ∧ p.status = .open ∧
        query.Convient p ∧ ∀ n ∈ query.familySize, n ≤ p.capacity - p.seatsTaken := by
  obtain ⟨e, h⟩ := h
  obtain ⟨rfl, rfl⟩ := h
  have htotal : Std.Total query.Avant := ⟨fun x y => by
    unfold QueryPackagesDto.Avant
    split <;> exact le_total _ _⟩
  have htrans : IsTrans _ query.Avant := ⟨fun x y z => by
    unfold QueryPackagesDto.Avant
    split <;> exact le_trans⟩
  set pkgs : List (PackageId × Package) := ((s'.packages.findMany fun p =>
    p.status = .open ∧ query.Convient p).insertionSort fun x y => e.ordre x.1 ≤ e.ordre y.1).insertionSort
      query.Avant with hpkgs
  have hsorted : pkgs.Pairwise query.Avant := List.pairwise_insertionSort _ _
  have hmem : ∀ id p, (id, p) ∈ pkgs ↔ s'.packages[id]? = some p ∧ p.status = .open ∧ query.Convient p := by
    intro id p
    rw [hpkgs, List.mem_insertionSort, List.mem_insertionSort, Table.findMany, List.mem_filter,
      Table.mem_withIds, decide_eq_true_iff]
  rcases hsize : query.familySize with _ | n
  · refine ⟨pkgs, rfl, hsorted, fun id p => (hmem id p).trans ?_⟩
    simp
  · refine ⟨pkgs.filter fun p => p.2.capacity - p.2.seatsTaken ≥ n, rfl,
      hsorted.filter _, fun id p => ?_⟩
    rw [List.mem_filter, hmem, decide_eq_true_iff]
    simp [and_assoc]

end Listed

/-! ## What can be booked -/

/-- The request asks for a seat of the package. -/
def demande (id : PackageId) : OumraHajj.Request → Bool
  | .createBooking _ q => q = id
  | _ => false

/-- The run asks for bookings only. -/
def Demandes (tr : Trace OumraHajj.Request Db) : Prop := ∀ x ∈ tr, ∃ u q, x.1 = .createBooking u q

/-- The bookings of a package. -/
def reservations (id : PackageId) (s : Db) : Nat := s.bookings.countP (·.packageId = id)

/-- Up to `n` requests for the package are all served (module doc). -/
def Reservable (s : Db) (id : PackageId) (n : Nat) : Prop :=
  ∀ tr, prisma.Run OumraHajj.handler s tr → Demandes tr → tr.countP (fun x => demande id x.1) ≤ n →
    reservations id (Trace.last s tr) = reservations id s + tr.countP fun x => demande id x.1

/-- The seats that can be booked. -/
def places (p : Package) : Nat := if p.status = .open then (p.capacity - p.seatsTaken).toNat else 0

section Bookable

variable {s s' : Db} {id : PackageId} {p : Package}

theorem reserveSeat_served {r : Except Erreur PackageShape} (hp : s.packages[id]? = some p)
    (hst : p.status = .open) (hlt : p.seatsTaken < p.capacity)
    (h : prisma.Runs (PackagesService.reserveSeat id) s r s') :
    (∃ shape, r = .ok shape) ∧ s' = s.putPackage id p.reserved := by
  simp only [OumraHajj.PackagesService.reserveSeat, OumraHajj.PackagesService.findByIdOrFail,
    OumraHajj.PackagesService.update, Prog.bind_eq, await_bind, Prog.call_bind, Backend.runs_call,
    prisma_exec, OumraHajj.exec, hp, Prog.pure_eq, Prog.ret_bind, toPackageShape, hst, ne_eq,
    not_true_eq_false, if_false, ge_iff_le, not_le.mpr hlt, Backend.runs_ret] at h
  obtain ⟨_, _, rfl, h⟩ := h
  refine ⟨⟨_, rfl⟩, h.trans ?_⟩
  rw [Package.reserved, hst]
  rfl

theorem create_served {u : UserId} {r : Except Erreur BookingShape} (hp : s.packages[id]? = some p)
    (hst : p.status = .open) (hlt : p.seatsTaken < p.capacity)
    (h : prisma.Runs (BookingsService.create u id) s r s') : ∃ shape, r = .ok shape := by
  simp only [BookingsService.create, OumraHajj.PackagesService.findByIdOrFail, Prog.bind_eq, await_bind,
    Prog.call_bind, Backend.runs_call, prisma_exec, OumraHajj.exec, hp, Prog.pure_eq, Prog.ret_bind] at h
  obtain ⟨_, _, h⟩ := h
  rcases Backend.runs_bind.mp h with ⟨shape, s₁, -, h⟩ | ⟨x, hr, rfl⟩
  · simp only [Backend.runs_call, prisma_exec, OumraHajj.exec, Backend.runs_ret] at h
    obtain ⟨_, hr, -⟩ := h
    exact ⟨_, hr⟩
  · obtain ⟨⟨shape, hshape⟩, -⟩ := reserveSeat_served hp hst hlt hr
    cases hshape

/-- A request for a seat is served as long as there is one. -/
theorem create_places {u : UserId} (hp : s.packages[id]? = some p) {r : Except Erreur Unit}
    (h : prisma.Runs (OumraHajj.handler (.createBooking u id)) s r s') :
    ∃ p', s'.packages[id]? = some p' ∧
      ((places p = 0 ∧ places p' = 0 ∧ s'.bookings = s.bookings) ∨
        (places p = places p' + 1 ∧ ∃ b, b.packageId = id ∧ s'.bookings = s.bookings ++ [b])) := by
  obtain ⟨r, h⟩ : ∃ r, prisma.Runs (BookingsService.create u id) s r s' := by
    rcases Backend.runs_bind.mp h with ⟨shape, s₁, h, -, rfl⟩ | ⟨x, h, -⟩
    · exact ⟨_, h⟩
    · exact ⟨_, h⟩
  rcases create_row h with ⟨⟨x, rfl⟩, hs'⟩ | ⟨p₁, b, hp₁, hst, hlt, hb, rfl⟩
  · have hnone : places p = 0 := by
      by_contra hplaces
      unfold places at hplaces
      split at hplaces
      · next hst =>
        obtain ⟨shape, hshape⟩ := create_served hp hst (by omega) h
        cases hshape
      · exact hplaces rfl
    rcases hs' with rfl | ⟨p₁, hp₁, rfl⟩
    · exact ⟨p, hp, .inl ⟨hnone, hnone, rfl⟩⟩
    · refine ⟨_, by rw [Db.putPackage, Table.get_set hp₁, if_pos rfl], .inl ⟨hnone, ?_, rfl⟩⟩
      exact if_neg fun h => by cases h
  · obtain rfl : p₁ = p := Option.some.inj (hp₁.symm.trans hp)
    refine ⟨p₁.reserved, ?_, .inr ⟨?_, b, hb.package, rfl⟩⟩
    · show (s.packages.set id p₁.reserved)[id]? = _
      rw [Table.get_set hp, if_pos rfl]
    · unfold places Package.reserved
      rw [if_pos hst]
      simp only [hst]
      split <;> simp <;> omega

theorem create_other {u : UserId} {q : PackageId} (hq : q ≠ id) (hp : s.packages[id]? = some p)
    {r : Except Erreur Unit} (h : prisma.Runs (OumraHajj.handler (.createBooking u q)) s r s') :
    s'.packages[id]? = some p ∧ reservations id s' = reservations id s := by
  obtain ⟨r, h⟩ : ∃ r, prisma.Runs (BookingsService.create u q) s r s' := by
    rcases Backend.runs_bind.mp h with ⟨shape, s₁, h, -, rfl⟩ | ⟨x, h, -⟩
    · exact ⟨_, h⟩
    · exact ⟨_, h⟩
  have hput : ∀ (p₁ p₂ : Package), s.packages[q]? = some p₁ →
      (s.packages.set q p₂)[id]? = some p := by
    intro p₁ p₂ hp₁
    rw [Table.get_set hp₁, if_neg hq, hp]
  rcases create_row h with ⟨-, rfl | ⟨p₁, hp₁, rfl⟩⟩ | ⟨p₁, b, hp₁, -, -, hb, rfl⟩
  · exact ⟨hp, rfl⟩
  · exact ⟨hput p₁ _ hp₁, rfl⟩
  · refine ⟨hput p₁ _ hp₁, ?_⟩
    rw [reservations, List.countP_append, List.countP_cons_of_neg (by simp [hb.package, hq])]
    rfl

/-- **A run of requests for bookings** serves those for the package as long as it has seats. -/
theorem reservations_after {tr : Trace OumraHajj.Request Db} (hr : prisma.Run OumraHajj.handler s tr)
    (htr : Demandes tr) (hp : s.packages[id]? = some p) : reservations id (Trace.last s tr) =
      reservations id s + min (tr.countP fun x => demande id x.1) (places p) := by
  induction tr generalizing s p with
  | nil => simp [Trace.last]
  | cons x tr ih =>
    obtain ⟨q, s₁⟩ := x
    obtain ⟨⟨r, hq⟩, hr⟩ := hr
    obtain ⟨u, q', hq'⟩ := htr (q, s₁) List.mem_cons_self
    obtain rfl : q = .createBooking u q' := hq'
    have htr' : Demandes tr := fun y hy => htr y (List.mem_cons_of_mem _ hy)
    rw [Trace.last]
    by_cases hid : q' = id
    · subst hid
      rw [List.countP_cons_of_pos (by simp [demande])]
      obtain ⟨p', hp', ⟨hplaces, hplaces', hbookings⟩ | ⟨hplaces, b, hb, hbookings⟩⟩ := create_places hp hq
      · rw [ih hr htr' hp', reservations, hbookings, hplaces, hplaces', Nat.min_zero, Nat.min_zero]
        rfl
      · rw [ih hr htr' hp', reservations, hbookings, List.countP_append,
          List.countP_cons_of_pos (by simp [hb]), hplaces, reservations]
        simp only [List.countP_nil]
        omega
    · obtain ⟨hp', hres⟩ := create_other hid hp hq
      rw [ih hr htr' hp', hres, List.countP_cons_of_neg (by simp [demande, hid])]

theorem reservable_iff {n : Nat} (hp : s.packages[id]? = some p) : Reservable s id n ↔ n ≤ places p := by
  constructor
  · intro h
    set qs : List OumraHajj.Request := List.replicate n (.createBooking 0 id)
    have hr : prisma.Run OumraHajj.handler s (runAll {} s qs) := Backend.evalAll_run ({} : Env) s qs
    have htr : ∀ x ∈ runAll {} s qs, x.1 = .createBooking 0 id := fun x hx =>
      List.eq_of_mem_replicate (Backend.evalAll_requests ({} : Env) s qs ▸ List.mem_map_of_mem hx)
    have hdemandes : Demandes (runAll {} s qs) := fun x hx => ⟨0, id, htr x hx⟩
    have hcount : (runAll {} s qs).countP (fun x => demande id x.1) = n := by
      rw [List.countP_eq_length.mpr fun x hx => by simp [htr x hx, demande], ← List.length_map Prod.fst,
        Backend.evalAll_requests, List.length_replicate]
    have hafter := h _ hr hdemandes hcount.le
    rw [reservations_after hr hdemandes hp, hcount] at hafter
    omega
  · intro hn tr hr htr hle
    rw [reservations_after hr htr hp]
    omega

end Bookable

/-- Two packages that are on sale, with two seats and with one. -/
private def enVente : Db :=
  { Db.exemple with
    packages :=
      [{ agencyId := 0, type := .oumra, title := "Oumra", startDate := 0, endDate := 0, price := 100
         capacity := 3, seatsTaken := 1 },
        { agencyId := 0, type := .oumra, title := "Hajj", startDate := 0, endDate := 0, price := 100
          capacity := 1 }] }

/-- A family of two with a budget. -/
private def famille : QueryPackagesDto where
  maxBudget := some 100
  familySize := some 2
  maxBudget_pos := by simp
  familySize_pos := by simp

/-- **The list is exact.** The packages that are listed are the open ones that suit the query and whose every
request of the family would be served, one after the other, whatever bookings of other packages come between;
they come by price if the query has a budget, else by departure. -/
theorem public_bookable {query : QueryPackagesDto} {s s' : Db} {shapes : List PackageShape}
    (h : publicBackend.Runs (PackagesService.listPublic query) s (.ok shapes) s') :
    (shapes.Pairwise fun x y => if query.maxBudget.isSome then x.price ≤ y.price
      else x.startDate ≤ y.startDate) ∧
      ∀ shape, shape ∈ shapes ↔ ∃ p, s.packages[shape.id]? = some p ∧ shape = toPackageShape shape.id p ∧
        p.status = .open ∧ query.Convient p ∧ ∀ n ∈ query.familySize, Reservable s shape.id n.toNat := by
  obtain ⟨rows, hrows, hsorted, hmem⟩ := listPublic_runs h
  obtain rfl := Except.ok.inj hrows
  refine ⟨List.pairwise_map.mpr hsorted, fun shape => ?_⟩
  have hplaces : ∀ id p, s.packages[id]? = some p → p.status = .open →
      ((∀ n ∈ query.familySize, n ≤ p.capacity - p.seatsTaken) ↔
        ∀ n ∈ query.familySize, Reservable s id n.toNat) := by
    intro id p hp hst
    refine forall₂_congr fun n hn => ?_
    have hpos := query.familySize_pos n hn
    rw [reservable_iff hp, places, if_pos hst]
    omega
  constructor
  · intro hshape
    obtain ⟨⟨id, p⟩, hx, rfl⟩ := List.mem_map.mp hshape
    obtain ⟨hp, hst, hconvient, hseats⟩ := (hmem id p).mp hx
    exact ⟨p, hp, rfl, hst, hconvient, (hplaces id p hp hst).mp hseats⟩
  · rintro ⟨p, hp, heq, hst, hconvient, hseats⟩
    rw [heq]
    exact List.mem_map_of_mem (f := fun p => toPackageShape p.1 p.2)
      ((hmem shape.id p).mpr ⟨hp, hst, hconvient, (hplaces _ p hp hst).mpr hseats⟩)

/-- The package with two seats is listed, and may be booked for two. -/
theorem public_bookable_famille : ∃ shapes s',
    publicBackend.Runs (PackagesService.listPublic famille) enVente (.ok shapes) s' ∧
      shapes.map (·.id) = [0] ∧ Reservable enVente 0 2 := by
  have hids : (publicBackend.eval ({} : PublicEnv) (PackagesService.listPublic famille)
      enVente).1.toOption.map (List.map (·.id)) = some [0] := by decide +kernel
  have hsome : (publicBackend.eval ({} : PublicEnv) (PackagesService.listPublic famille)
      enVente).1.toOption.isSome = true := by decide +kernel
  have hr := Backend.eval_runs_ok hsome
  set shapes := Option.get _ hsome with hshapes
  have hmap : shapes.map (·.id) = [0] := by
    rw [← Option.some_get hsome, Option.map_some] at hids
    exact Option.some.inj hids
  obtain ⟨shape, hshape, hid⟩ := List.mem_map.mp (hmap ▸ List.mem_singleton_self 0 : 0 ∈ shapes.map (·.id))
  obtain ⟨p, -, -, -, -, hseats⟩ := ((public_bookable hr).2 shape).mp hshape
  exact ⟨shapes, _, hr, hmap, hid ▸ hseats 2 rfl⟩

end OumraHajj.Catalogue
