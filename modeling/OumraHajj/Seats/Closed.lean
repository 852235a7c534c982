import OumraHajj.Spec.Frame

/-!
# Closed packages under concurrency

`close`, creations and cancellations of bookings run at once. `reserveSeat` and `releaseSeat` write a
status that they computed from an earlier read, so a `close` that comes between their read and their
write is undone. `FermetureSeule` is the condition on a step under which that does not happen, and
`package_stays_closed` the result: once a `close` has ended, the package is `CLOSED` in every later state.

**Ghost values** (`Etape`): a request that writes another status than `CLOSED` next (`ecrit`) and a
`close` that has written (`ferme`). **Invariant** (`Inv`): once some `close` has written, the package is
`CLOSED` and no request is about to write another status.
-/

namespace OumraHajj

open Async

namespace Seats.Fermeture

/-- How far a request has come (module doc). -/
inductive Etape where
  | libre
  | ecrit
  | ferme
  deriving DecidableEq

/-- The statement writes a status other than `CLOSED` to the package. -/
def rouvre (p : PackageId) : Stmt → Bool
  | .packageUpdate q data => q = p ∧ data.status.any (· ≠ .closed)
  | _ => false

/-- The statement writes the package. -/
def ecritForfait (p : PackageId) : Stmt → Bool
  | .packageUpdate q _ => q = p
  | _ => false

/-- The request closes the package. -/
def Ferme (p : PackageId) : Request → Prop
  | .closePackage _ q => q = p
  | _ => False

instance (p : PackageId) : DecidablePred (Ferme p)
  | .closePackage _ q => inferInstanceAs (Decidable (q = p))
  | .createBooking _ _ | .cancelBooking _ _ | .updateStep _ _ _ _ | .markStepDone _ _
  | .initiatePayment _ _ | .webhook _ | .requestRefund _ _ _ | .uploadDocument _ _ _ _
  | .validateDocument _ _ | .rejectDocument _ _ _ => isFalse id

/-- Creations and cancellations of bookings, and closings of packages. -/
def SurForfaits : Request → Prop
  | .createBooking _ _ | .cancelBooking _ _ | .closePackage _ _ => True
  | _ => False

section Protocol

variable {ι : Type} [DecidableEq ι] {p : PackageId} {γ : ι → Etape} {t : ι} {s : Db}
  {requests : ι → Request}

/-- When a `close` writes the package, no request is between its read of the package and its write of
another status. -/
def FermetureSeule (requests : ι → Request) (p : PackageId) : Pool.Cond prismaSig ι Db Env :=
  fun next _ t _ => Ferme p (requests t) → (next t).any (ecritForfait p) = true →
    ∀ u, (next u).any (rouvre p) = false

instance [Fintype ι] (requests : ι → Request) (p : PackageId) (next : ι → Option Stmt) (s : Db)
    (t : ι) (e : Env) : Decidable (FermetureSeule requests p next s t e) :=
  inferInstanceAs (Decidable (_ → _ → ∀ _, _))

/-- The statement that a request executes next. -/
def Etape.place (p : PackageId) : Etape → Option Stmt → Prop
  | .ecrit, n => n.any (rouvre p) = true
  | _, n => n.any (rouvre p) = false

/-- The package is `CLOSED`. -/
def Fermee (p : PackageId) (s : Db) : Prop :=
  ∃ pkg, s.packages[p]? = some pkg ∧ pkg.status = .closed

theorem fermee_iff {s : Db} : Fermee p s ↔ (s.packages[p]?).map (·.status) = some .closed :=
  Option.map_eq_some_iff.symm

instance (p : PackageId) (s : Db) : Decidable (Fermee p s) := decidable_of_iff _ fermee_iff.symm

/-- The invariant (module doc). -/
def Inv (p : PackageId) (γ : ι → Etape) (s : Db) : Prop :=
  (∃ t, γ t = .ferme) → Fermee p s ∧ ∀ u, γ u ≠ .ecrit

omit [DecidableEq ι] in
theorem Inv.of_packages {s' : Db} (h : Inv p γ s) (hs' : s'.packages = s.packages) : Inv p γ s' := by
  unfold Inv Fermee at h ⊢
  rwa [hs']

/-- A request that has read the package knows what it writes next. -/
theorem Inv.read {g : Etape} (h : Inv p γ s) (ht : γ t = .libre) (hg : g ≠ .ferme)
    (hopen : g = .ecrit → ¬ Fermee p s) : Inv p (Function.update γ t g) s := by
  rintro ⟨u, hu⟩
  have hut : u ≠ t := by
    rintro rfl
    rw [Function.update_self] at hu
    exact hg hu
  rw [Function.update_of_ne hut] at hu
  obtain ⟨hclosed, hnone⟩ := h ⟨u, hu⟩
  refine ⟨hclosed, fun v hv => ?_⟩
  by_cases hvt : v = t
  · subst hvt
    rw [Function.update_self] at hv
    exact hopen hv hclosed
  · rw [Function.update_of_ne hvt] at hv
    exact hnone v hv

/-- What a statement that does not write another status leaves: the package stays `CLOSED`. -/
theorem fermee_exec {q : PackageId} {data : PackageUpdate} {e : Env}
    (hr : rouvre p (.packageUpdate q data) = false) (h : Fermee p s) :
    Fermee p (exec (.packageUpdate q data) e s).2 := by
  obtain ⟨pkg, hp, hst⟩ := h
  rcases hq : s.packages[q]? with _ | pkg'
  · simp only [exec, hq]
    exact ⟨pkg, hp, hst⟩
  · simp only [exec, hq]
    unfold Fermee
    rw [Table.get_set hq]
    split
    · next hqp =>
      subst hqp
      obtain rfl := Option.some.inj (hp.symm.trans hq)
      refine ⟨_, rfl, ?_⟩
      rcases hd : data.status with _ | status
      · simp [PackageUpdate.apply, hd, hst]
      · simpa [PackageUpdate.apply, rouvre, hd] using hr
    · exact ⟨pkg, hp, hst⟩

/-- A request writes the package. -/
theorem Inv.write {q : PackageId} {data : PackageUpdate} {e : Env} (h : Inv p γ s)
    (ht : (γ t).place p (some (.packageUpdate q data))) :
    Inv p (Function.update γ t .libre) (exec (.packageUpdate q data) e s).2 := by
  rintro ⟨u, hu⟩
  have hut : u ≠ t := by
    rintro rfl
    rw [Function.update_self] at hu
    cases hu
  rw [Function.update_of_ne hut] at hu
  obtain ⟨hclosed, hnone⟩ := h ⟨u, hu⟩
  have hr : rouvre p (.packageUpdate q data) = false := by
    have := hnone t
    rcases hg : γ t with _ | _ | _ <;> rw [hg] at ht this
    · exact ht
    · exact absurd rfl this
    · exact ht
  refine ⟨fermee_exec hr hclosed, fun v hv => ?_⟩
  by_cases hvt : v = t
  · subst hvt
    rw [Function.update_self] at hv
    cases hv
  · rw [Function.update_of_ne hvt] at hv
    exact hnone v hv

/-- A `close` writes the package, and no other request is about to write another status. -/
theorem Inv.close {next : ι → Option Stmt} (hplace : ∀ u, (γ u).place p (next u))
    (hnone : ∀ u, (next u).any (rouvre p) = false) (hclosed : Fermee p s) :
    Inv p (Function.update γ t .ferme) s := by
  refine fun _ => ⟨hclosed, fun v hv => ?_⟩
  by_cases hvt : v = t
  · subst hvt
    rw [Function.update_self] at hv
    cases hv
  · rw [Function.update_of_ne hvt] at hv
    have hany := hplace v
    rw [hv] at hany
    rw [Etape.place, hnone v] at hany
    cases hany

/-! ## The requests keep the protocol -/

/-- The protocol of the requests. -/
abbrev fermeture (ι : Type) (p : PackageId) : Proto prismaSig ι Db where
  Gh := Etape
  inv := Inv p
  place := Etape.place p

variable {α : Type}

/-- A statement that leaves the packages. -/
theorem safe_autre {c : Stmt} {k : c.Resp → Req α} {Q : Except Erreur α → Etape → Prop}
    (hc : ∀ e s, (exec c e s).2.packages = s.packages) (hp : rouvre p c = false)
    (hk : ∀ r, (fermeture ι p).Safe prisma (FermetureSeule requests p) t (k r) Q .libre) :
    (fermeture ι p).Safe prisma (FermetureSeule requests p) t (.call c k) Q .libre := by
  refine Proto.safe_call (P := fermeture ι p) hp (fun γ s e hi _ => ?_) fun _ _ _ _ _ => hk _
  exact Inv.of_packages hi (hc e s)

/-- A read of the package, then what `f` makes of the row: a write of another status only where the row
is not `CLOSED`. -/
theorem safe_lire {q : PackageId} {f : PackageShape → Req α} {Q : Except Erreur α → Etape → Prop}
    (hQ : ∀ x, Q (.error x) .libre)
    (hf : ∀ pkg : Package, ∃ g : Etape, g ≠ .ferme ∧
      (g = .ecrit → q = p ∧ pkg.status ≠ .closed) ∧
      (fermeture ι p).Safe prisma (FermetureSeule requests p) t (f (toPackageShape q pkg)) Q g) :
    (fermeture ι p).Safe prisma (FermetureSeule requests p) t
      ((PackagesService.findByIdOrFail q).bind f) Q .libre := by
  refine ⟨rfl, fun γ next s e hi hg _ _ _ => ?_⟩
  rcases hq : s.packages[q]? with _ | pkg
  · refine ⟨.libre, ?_, ?_⟩
    · exact Inv.read hi hg (by simp) (by simp)
    · simp only [prisma_exec, exec, hq]
      exact hQ _
  · obtain ⟨g, hferme, hecrit, hsafe⟩ := hf pkg
    refine ⟨g, Inv.read hi hg hferme fun h => ?_, ?_⟩
    · obtain ⟨rfl, hst⟩ := hecrit h
      rintro ⟨pkg', hp', hst'⟩
      obtain rfl := Option.some.inj (hq.symm.trans hp')
      exact hst hst'
    · simp only [prisma_exec, exec, hq]
      exact hsafe

/-- The ghost value of a request that writes `data` next. -/
def etapeDe (p q : PackageId) (data : PackageUpdate) : Etape :=
  if rouvre p (.packageUpdate q data) then .ecrit else .libre

theorem etapeDe_ne_ferme {q : PackageId} {data : PackageUpdate} : etapeDe p q data ≠ .ferme := by
  unfold etapeDe
  split <;> simp

theorem etapeDe_place {q : PackageId} {data : PackageUpdate} :
    (etapeDe p q data).place p (some (.packageUpdate q data)) := by
  unfold etapeDe
  split
  · next h => exact h
  · next h => exact Bool.eq_false_of_not_eq_true h

/-- Another status is written to the package itself, where the row read is not `CLOSED`. -/
theorem etapeDe_ecrit {q : PackageId} {data : PackageUpdate} {pkg : Package}
    (hd : ∀ status ∈ data.status, pkg.status = .closed → status = .closed)
    (h : etapeDe p q data = .ecrit) : q = p ∧ pkg.status ≠ .closed := by
  unfold etapeDe at h
  split at h
  · next hr =>
    simp only [rouvre, Bool.decide_and, Bool.and_eq_true, decide_eq_true_eq] at hr
    obtain ⟨hqp, hany⟩ := hr
    obtain ⟨status, hstatus, hne⟩ := (Option.any_eq_true _ _).mp hany
    exact ⟨hqp, fun hc => of_decide_eq_true hne (hd status hstatus hc)⟩
  · cases h

/-- The write that follows a read. -/
theorem safe_ecrire {q : PackageId} {data : PackageUpdate} {f : PackageShape → Req α}
    {Q : Except Erreur α → Etape → Prop} (hQ : ∀ x, Q (.error x) .libre)
    (hf : ∀ shape, (fermeture ι p).Safe prisma (FermetureSeule requests p) t (f shape) Q .libre) :
    (fermeture ι p).Safe prisma (FermetureSeule requests p) t
      ((PackagesService.update q data).bind f) Q (etapeDe p q data) := by
  refine ⟨etapeDe_place, fun γ next s e hi hg _ _ _ => ⟨.libre, ?_, ?_⟩⟩
  · have hplace : (γ t).place p (some (.packageUpdate q data)) := hg ▸ etapeDe_place
    exact Inv.write (e := e) hi hplace
  · rcases hq : s.packages[q]? with _ | pkg
    · simp only [prisma_exec, exec, hq]
      exact hQ _
    · simp only [prisma_exec, exec, hq]
      exact hf _

theorem reserveSeat_safe {q : PackageId} {f : PackageShape → Req α}
    {Q : Except Erreur α → Etape → Prop} (hQ : ∀ x, Q (.error x) .libre)
    (hf : ∀ shape, (fermeture ι p).Safe prisma (FermetureSeule requests p) t (f shape) Q .libre) :
    (fermeture ι p).Safe prisma (FermetureSeule requests p) t
      ((PackagesService.reserveSeat q).bind f) Q .libre := by
  simp only [PackagesService.reserveSeat, Prog.bind_eq, Prog.bind_assoc]
  refine safe_lire hQ fun pkg => ?_
  by_cases hopen : (toPackageShape q pkg).status = .open
  · have hclosed : pkg.status ≠ .closed := by
      intro hc
      cases hopen.symm.trans hc
    rw [if_neg (not_not.mpr hopen)]
    by_cases hfull : (toPackageShape q pkg).seatsTaken ≥ (toPackageShape q pkg).capacity
    · rw [if_pos hfull, Prog.bind_assoc]
      exact ⟨_, etapeDe_ne_ferme, etapeDe_ecrit fun _ _ hc => absurd hc hclosed,
        safe_ecrire hQ fun _ => hQ _⟩
    · rw [if_neg hfull]
      exact ⟨_, etapeDe_ne_ferme, etapeDe_ecrit fun _ _ hc => absurd hc hclosed, safe_ecrire hQ hf⟩
  · refine ⟨.libre, by simp, by simp, ?_⟩
    rw [if_pos hopen]
    exact hQ _

theorem releaseSeat_safe {q : PackageId} {f : PackageShape → Req α}
    {Q : Except Erreur α → Etape → Prop} (hQ : ∀ x, Q (.error x) .libre)
    (hf : ∀ shape, (fermeture ι p).Safe prisma (FermetureSeule requests p) t (f shape) Q .libre) :
    (fermeture ι p).Safe prisma (FermetureSeule requests p) t
      ((PackagesService.releaseSeat q).bind f) Q .libre := by
  simp only [PackagesService.releaseSeat, Prog.bind_eq, Prog.bind_assoc]
  refine safe_lire hQ fun pkg => ⟨_, etapeDe_ne_ferme, etapeDe_ecrit ?_, safe_ecrire hQ hf⟩
  intro status hstatus hc
  obtain rfl := Option.some.inj hstatus
  simp [toPackageShape, hc]

/-- A request ends with nothing left to do, and a `close` that succeeded has written. -/
def Finit (requests : ι → Request) (p : PackageId) (t : ι) (r : Except Erreur Unit) (g : Etape) :
    Prop :=
  g.place p none ∧ (Ferme p (requests t) → r = .ok () → g = .ferme)

theorem create_safe {pilgrimId : UserId} {q : PackageId} (hq : requests t = .createBooking pilgrimId q) :
    (fermeture ι p).Safe prisma (FermetureSeule requests p) t (BookingsService.create pilgrimId q).void
      (Finit requests p t) .libre := by
  have hfin : ∀ r, Finit requests p t r .libre := fun r => ⟨rfl, fun h => by rw [hq] at h; exact h.elim⟩
  simp only [Prog.void, BookingsService.create, Prog.bind_eq, Prog.bind_assoc]
  refine safe_lire (fun _ => hfin _) fun pkg => ⟨.libre, by simp, by simp, ?_⟩
  refine safe_autre (fun _ _ => rfl) rfl fun paliers => ?_
  refine reserveSeat_safe (fun _ => hfin _) fun _ => ?_
  exact safe_autre (fun _ _ => rfl) rfl fun _ => hfin _

theorem updateStatus_safe {id : BookingId} {status : BookingStatus} {f : BookingShape → Req α}
    {Q : Except Erreur α → Etape → Prop} (hQ : ∀ x, Q (.error x) .libre)
    (hf : ∀ shape, (fermeture ι p).Safe prisma (FermetureSeule requests p) t (f shape) Q .libre) :
    (fermeture ι p).Safe prisma (FermetureSeule requests p) t
      ((BookingsService.updateStatus id status).bind f) Q .libre := by
  refine safe_autre (fun e s => ?_) rfl fun r => ?_
  · simp only [exec]
    split <;> rfl
  · cases r with
    | none => exact hQ _
    | some _ => exact hf _

theorem cancel_safe {pilgrimId : UserId} {id : BookingId}
    (hq : requests t = .cancelBooking pilgrimId id) :
    (fermeture ι p).Safe prisma (FermetureSeule requests p) t (BookingsService.cancel pilgrimId id).void
      (Finit requests p t) .libre := by
  have hfin : ∀ r, Finit requests p t r .libre := fun r => ⟨rfl, fun h => by rw [hq] at h; exact h.elim⟩
  simp only [Prog.void, BookingsService.cancel, BookingsService.findByIdOrFail, Prog.bind_eq,
    await_bind, Prog.call_bind, Prog.bind_assoc]
  refine safe_autre (fun _ _ => rfl) rfl fun r => ?_
  cases r with
  | none => exact hfin _
  | some b =>
    simp only [Prog.pure_eq, Prog.ret_bind]
    by_cases hpil : (toBookingShape id b).pilgrimId ≠ pilgrimId
    · rw [if_pos hpil]
      exact hfin _
    rw [if_neg hpil]
    by_cases hst : (toBookingShape id b).status ≠ .cancelled
    · rw [if_pos hst]
      simp only [Prog.bind_assoc]
      exact releaseSeat_safe (fun _ => hfin _) fun _ => updateStatus_safe (fun _ => hfin _) fun _ => hfin _
    · rw [if_neg hst]
      exact updateStatus_safe (fun _ => hfin _) fun _ => hfin _

theorem close_safe {ownerId : UserId} {q : PackageId} (hq : requests t = .closePackage ownerId q) :
    (fermeture ι p).Safe prisma (FermetureSeule requests p) t (PackagesService.close ownerId q).void
      (Finit requests p t) .libre := by
  have herr : ∀ x, Finit requests p t (.error x) .libre := fun x => ⟨rfl, by simp⟩
  simp only [Prog.void, PackagesService.close, PackagesService.assertOwnership,
    AgenciesService.findByOwnerOrFail, PackagesService.update, Prog.bind_eq, await_bind,
    Prog.call_bind, Prog.bind_assoc]
  refine safe_lire herr fun pkg => ⟨.libre, by simp, by simp, ?_⟩
  refine safe_autre (fun _ _ => rfl) rfl fun r => ?_
  rcases r with _ | ⟨agencyId, agency⟩
  · exact herr _
  simp only [Prog.pure_eq, Prog.ret_bind]
  by_cases hown : (toPackageShape q pkg).agencyId ≠ (toAgencyShape agencyId agency).id
  · rw [if_pos hown]
    exact herr _
  rw [if_neg hown]
  -- The write of a `close` of the package itself makes its ghost value `ferme`.
  have hplace : rouvre p (.packageUpdate q { status := some .closed }) = false := by simp [rouvre]
  refine ⟨hplace, fun γ next s e hi hg hnext hn hok => ?_⟩
  have hwrite := Inv.write (e := e) hi (by rw [hg]; exact hplace)
  rcases hp : s.packages[q]? with _ | row
  · refine ⟨.libre, hwrite, ?_⟩
    simp only [prisma_exec, exec, toPackageShape, hp]
    exact herr _
  by_cases hqp : q = p
  · subst hqp
    have hnone : ∀ u, (next u).any (rouvre q) = false := by
      refine hok (by rw [hq]; rfl) ?_
      rw [hn]
      simp [ecritForfait, toPackageShape]
    refine ⟨.ferme, ?_, ?_⟩
    · simp only [prisma_exec, exec, toPackageShape, hp]
      refine Inv.close hnext hnone ⟨{ row with status := .closed }, ?_, rfl⟩
      rw [Table.get_set hp, if_pos rfl]
      rfl
    · simp only [prisma_exec, exec, toPackageShape, hp]
      exact ⟨rfl, fun _ _ => rfl⟩
  · refine ⟨.libre, hwrite, ?_⟩
    simp only [prisma_exec, exec, toPackageShape, hp]
    exact ⟨rfl, fun hf => absurd (by rwa [hq] at hf) hqp⟩

theorem handler_safe (h : SurForfaits (requests t)) :
    (fermeture ι p).Safe prisma (FermetureSeule requests p) t (handler (requests t))
      (Finit requests p t) .libre := by
  rcases hreq : requests t with ⟨pilgrimId, q⟩ | ⟨pilgrimId, id⟩ | _ | _ | ⟨ownerId, q⟩ | _ | _ | _ | _ |
    _ | _ <;> rw [hreq] at h
  · exact create_safe hreq
  · exact cancel_safe hreq
  · exact h.elim
  · exact h.elim
  · exact close_safe hreq
  all_goals exact h.elim

end Protocol

end Seats.Fermeture

open Seats.Fermeture

/-! ## Results -/

/-- **A closed package stays closed.** Closings, creations and cancellations run at once, and no `close`
writes the package between the read of another request and its write of another status. Once a `close`
of the package has ended, the package is `CLOSED` in every later state. -/
theorem package_stays_closed {ι : Type} [DecidableEq ι] {requests : ι → Request} {p : PackageId} {s : Db}
    (hq : ∀ t, SurForfaits (requests t)) {c : Pool prismaSig ι Db Erreur Unit}
    (hr : Pool.Reach prisma (FermetureSeule requests p) (poolOf requests s) c) {t : ι}
    (hclose : Ferme p (requests t)) (hend : c.procs t = .ret ()) : Fermee p c.st := by
  have hstart : (fermeture ι p).Keeps prisma (FermetureSeule requests p)
      (fun t => Finit requests p t) (poolOf requests s) :=
    ⟨fun _ => .libre, by rintro ⟨u, ⟨⟩⟩, fun t => handler_safe (hq t)⟩
  obtain ⟨γ, hi, hs⟩ := Proto.reach (fun _ _ _ h => h.1) hstart hr
  have ht := hs t
  rw [hend] at ht
  exact (hi ⟨t, ht.2 hclose rfl⟩).1

/-! ## Schedules on fixed inputs -/

private def reserverFermer : Fin 2 → Request
  | 0 => .createBooking 0 0
  | 1 => .closePackage 1 0

private theorem surForfaits_reserverFermer (t : Fin 2) : SurForfaits (reserverFermer t) := by
  match t with
  | 0 => trivial
  | 1 => trivial

/-- The closing runs after the creation. -/
private def fermerApres : Pool prismaSig (Fin 2) Db Erreur Unit :=
  Pool.run prisma (turns [0, 0, 0, 0, 0, 1, 1, 1]) (poolOf reserverFermer .exemple)

theorem package_stays_closed_exemple : Fermee 0 fermerApres.st := by
  have hallowed : Pool.Allowed prisma (FermetureSeule reserverFermer 0)
      (poolOf reserverFermer .exemple) (turns [0, 0, 0, 0, 0, 1, 1, 1]) := by decide +kernel
  have hend : fermerApres.procs 1 = .ret () := by rfl
  exact package_stays_closed (t := 1) surForfaits_reserverFermer (hallowed.reach .refl) rfl hend

/-- The closing runs between the read of the package and its write. -/
private def fermerEntre : Pool prismaSig (Fin 2) Db Erreur Unit :=
  Pool.run prisma (turns [0, 0, 0, 1, 1, 1, 0, 0]) (poolOf reserverFermer .exemple)

theorem reopened : ¬ ∀ (requests : Fin 2 → Request) (p : PackageId) (s : Db)
    (c : Pool prismaSig (Fin 2) Db Erreur Unit) (t : Fin 2), (∀ t, SurForfaits (requests t)) →
    Pool.Reach prisma Pool.anyStep (poolOf requests s) c → Ferme p (requests t) →
    c.procs t = .ret () → Fermee p c.st := by
  intro h
  have hr : Pool.Reach prisma Pool.anyStep (poolOf reserverFermer .exemple) fermerEntre :=
    Pool.Reach.run .refl _
  have hend : fermerEntre.procs 1 = .ret () := by rfl
  have hnot : ¬ Fermee 0 fermerEntre.st := by decide +kernel
  exact hnot (h reserverFermer 0 .exemple fermerEntre 1 surForfaits_reserverFermer hr rfl hend)

end OumraHajj
