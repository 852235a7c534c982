import OumraHajj.Async.Embed
import OumraHajj.Async.History
import OumraHajj.Catalogue.Handlers
import OumraHajj.Refunds.Schedule
import OumraHajj.Spec.Packages

/-!
# The refund terms of a booking

A booking freezes the schedule of its agency, but not the date of the departure, from which the days of
the schedule are counted. Whatever an agency does, the refund rate of a confirmed booking is at no
instant lower than before exactly if the edits of its package leave the departure at the same date or
later, or if the rate does not depend on the date (`refund_terms_iff`).

`Sound` is what holds in every state: the schedules are coherent, and so are the frozen ones.
-/

namespace OumraHajj.Catalogue

open Async

/-- What holds in every state (module doc). -/
structure Sound (s : Db) : Prop where
  tiers : ∀ agencyId, Coherent (s.tiersOf agencyId)
  frozen : ∀ t ∈ s.bookings.map Booking.terms,
    Fige t.refundPolicySnapshot ∧ t.packageId < s.packages.length

/-- `Sound`, and packages are never deleted. -/
def soundRely : Rely Db where
  inv := Sound
  le s s' := s.packages.length ≤ s'.packages.length
  refl _ := le_refl _
  trans _ _ _ := le_trans

/-! ## Every request keeps it -/

theorem Sound.of_eq {s s' : Db} (h : Sound s)
    (hb : s'.bookings.map Booking.terms = s.bookings.map Booking.terms)
    (hp : s.packages.length ≤ s'.packages.length) (ht : s'.refundPolicyTiers = s.refundPolicyTiers) :
    Sound s' := by
  refine ⟨fun agencyId => ?_, fun t hm => ?_⟩
  · rw [Db.tiersOf, ht]
    exact h.tiers agencyId
  · rw [hb] at hm
    exact ⟨(h.frozen t hm).1, lt_of_lt_of_le (h.frozen t hm).2 hp⟩

theorem length_of_offer {s s' : Db}
    (h : s'.packages.map Package.offer = s.packages.map Package.offer) :
    s.packages.length = s'.packages.length := by
  have hlen := congrArg List.length h
  rwa [List.length_map, List.length_map, eq_comm] at hlen

section Create

variable {ok : prismaSig.Stmt → Db → Env → Prop}

theorem noBooking_step {c : OumraHajj.Stmt} (hc : NoBooking c) : soundRely.Step prisma ok c := by
  intro s e hi _
  have hlen := length_of_offer (exec_offer c e s)
  exact ⟨hi.of_eq (exec_terms hc e s) (le_of_eq hlen) (exec_refundPolicyTiers c e s), le_of_eq hlen⟩

/-- The booking that a pilgrim makes freezes the schedule of the agency. -/
theorem create_keeps (pilgrimId : UserId) (packageId : PackageId) (s : Db) :
    soundRely.Keeps prisma ok (BookingsService.create pilgrimId packageId) s fun _ _ => True := by
  refine OumraHajj.create_keeps (fun c hc => noBooking_step hc) ?_ s
  rintro s₁ s₂ s₃ e p - hp hs₂ hle₂ - hle₃ paliers rfl s₄ e₄ hs₄ ⟨rfl, -⟩
  refine ⟨⟨hs₄.tiers, fun t ht => ?_⟩, le_refl _⟩
  simp only [prisma_exec, OumraHajj.exec, List.map_append, List.mem_append] at ht
  rcases ht with ht | ht
  · exact hs₄.frozen t ht
  · obtain rfl := List.mem_singleton.mp ht
    refine ⟨?_, ?_⟩
    · show Fige (if (s₂.tiersOf p.agencyId).length > 0 then
        some (tiersJson (s₂.tiersOf p.agencyId)) else none)
      split
      · rename_i hlen
        exact .inr ⟨_, List.ne_nil_of_length_pos hlen, hs₂.tiers _, rfl⟩
      · exact .inl rfl
    · have hlen : packageId < s₁.packages.length := Table.lt_of_get hp
      have h₁₄ : s₁.packages.length ≤ s₄.packages.length := hle₂.trans hle₃
      exact lt_of_lt_of_le hlen h₁₄

end Create

/-- The statement keeps the schedules coherent. -/
def Keeping : sig.Stmt → Prop
  | .inl c => NoBooking c
  | .inr (.refundPolicyTierReplace agencyId data) =>
    Coherent data ∧ ∀ p ∈ data, p.agencyId = agencyId
  | .inr _ => True

section Agency

variable {ok : sig.Stmt → Db → Env → Prop}

theorem keeping_step {c : sig.Stmt} (hc : Keeping c) : soundRely.Step backend ok c := by
  intro s e hi _
  rcases c with c | c
  · have hstep : soundRely.Step prisma (fun _ _ _ => True) c := noBooking_step hc
    exact hstep s e hi trivial
  cases c with
  | agencyFindUnique id => exact ⟨hi, le_refl _⟩
  | packageCreate data =>
    simp only [backend, exec]
    split
    · have hlen : s.packages.length ≤ (s.packages ++ [data]).length := by simp
      exact ⟨hi.of_eq rfl hlen rfl, hlen⟩
    · exact ⟨hi, le_refl _⟩
  | packageUpdate id data =>
    simp only [backend, exec]
    split
    · rename_i p hp
      have hlen : s.packages.length ≤ (s.packages.set id (data.apply p)).length := by simp
      exact ⟨hi.of_eq rfl hlen rfl, hlen⟩
    · exact ⟨hi, le_refl _⟩
  | refundPolicyTierReplace agencyId data =>
    rcases hx : replaceTiers s agencyId data with ⟨r, s'⟩
    have hexec : (backend.exec (.inr (.refundPolicyTierReplace agencyId data)) e s).2 = s' :=
      congrArg Prod.snd hx
    rw [hexec]
    have hrest : s'.bookings = s.bookings ∧ s'.packages = s.packages ∧
        ∀ x, r = .error x → s' = s := by
      unfold replaceTiers at hx
      simp only at hx
      split at hx
      · cases hx
        exact ⟨rfl, rfl, fun x hr => by cases hr⟩
      · cases hx
        exact ⟨rfl, rfl, fun _ _ => rfl⟩
    obtain ⟨hb, hp, herr⟩ := hrest
    cases r with
    | error x =>
      rw [herr x rfl]
      exact ⟨hi, le_refl _⟩
    | ok u =>
      refine ⟨⟨fun a => ?_, fun t ht => ?_⟩, le_of_eq (congrArg List.length hp.symm)⟩
      · rw [replaceTiers_tiersOf hc.1 hc.2 hx]
        split
        · exact hc.1
        · exact hi.tiers a
      · rw [hb] at ht
        rw [hp]
        exact hi.frozen t ht

theorem keeping_owner (ownerId : UserId) :
    (Prog.left (AgenciesService.findByOwnerOrFail ownerId) : Req AgencyShape).Uses Keeping :=
  (noBooking_of (courante_owner ownerId)).left fun _ h => h

theorem keeping_replace (ownerId : UserId) (dto : ReplaceRefundPolicyDto) :
    (RefundPolicyService.replaceForOwner ownerId dto).Uses Keeping := by
  refine (keeping_owner ownerId).bind fun agence => ?_
  split
  · trivial
  · rename_i paliers hv
    refine ⟨⟨verifierPaliers_coherent hv, fun p hp => ?_⟩, fun r => ?_⟩
    · obtain ⟨q, -, rfl⟩ := List.mem_map.mp hp
      rfl
    · cases r with
      | error x => trivial
      | ok u => exact ⟨rfl, fun paliers => trivial⟩

end Agency

theorem keeping_of_single (c : Stmt) (h : Single (.inr c)) : Keeping (.inr c) := by
  cases c with
  | refundPolicyTierReplace agencyId data => exact h.elim
  | _ => trivial

theorem request_keeps (q : Request) (s : Db) :
    soundRely.Keeps backend (fun _ _ _ => True) (handler q) s fun _ _ => True := by
  have huses : ∀ {p : Req Unit}, p.Uses Keeping →
      soundRely.Keeps backend (fun _ _ _ => True) p s fun _ _ => True := fun hp =>
    (Rely.Keeps.of_uses (fun c hc => keeping_step hc) hp s).mono fun _ _ _ => trivial
  rcases handler_quiet (fun _ h => h) keeping_of_single q with
    ⟨pilgrimId, packageId, rfl⟩ | ⟨ownerId, dto, rfl⟩ | hq
  · exact keeps_left (create_keeps pilgrimId packageId s).void
  · exact huses (keeping_replace ownerId dto).void
  · exact huses hq

/-- **What holds in every state.** -/
theorem run_sound {s : Db} {tr : Trace Request Db} (hs : Sound s) (hr : backend.Run handler s tr) :
    Sound (Trace.last s tr) := by
  refine Trace.Steps.last (I := Sound) (fun s q s' hs hq => ?_) hr hs
  obtain ⟨r, hq⟩ := hq
  exact ((request_keeps q s).runs hs hq).1

/-! ## The requests of the agencies -/

/-- A request of an agency on its schedule or its packages. -/
def Request.ParAgence : Request → Prop
  | .app (.closePackage _ _) => True
  | .app _ => False
  | _ => True

/-- The user owns the agency of the package. -/
def ownsPackage (s : Db) (ownerId : UserId) (id : PackageId) : Bool :=
  match s.packages[id]?, s.agencyOf ownerId with
  | some p, some (agencyId, _) => p.agencyId = agencyId
  | _, _ => false

/-- The date of departure of a package after a request, if it was `depart` before. -/
def departApres (s : Db) (id : PackageId) (depart : Time) : Request → Time
  | .updatePackage ownerId packageId dto =>
    if packageId = id ∧ ownsPackage s ownerId id then dto.startDate.getD depart else depart
  | _ => depart

/-- What a request of an agency leaves, and the dates of departure that it sets. -/
structure Edited (s : Db) (q : Request) (s' : Db) : Prop where
  bookings : s'.bookings = s.bookings
  agencies : s'.agencies = s.agencies
  package : ∀ (id : PackageId) p, s.packages[id]? = some p → ∃ p', s'.packages[id]? = some p' ∧
    p'.agencyId = p.agencyId ∧ p'.startDate = departApres s id p.startDate q

section Edits

variable {s s' : Db}

/-- A request that leaves the packages that exist. -/
theorem Edited.of_frame {q : Request} (hd : ∀ id d, departApres s id d q = d)
    (h : s'.bookings = s.bookings ∧ s'.agencies = s.agencies ∧
      ∀ (id : PackageId) p, s.packages[id]? = some p → s'.packages[id]? = some p) : Edited s q s' :=
  ⟨h.1, h.2.1, fun id p hp => ⟨p, h.2.2 id p hp, rfl, (hd id _).symm⟩⟩

/-- A package is replaced. -/
theorem Edited.of_put {q : Request} {id : PackageId} {p p' : Package} (hp : s.packages[id]? = some p)
    (ha : p'.agencyId = p.agencyId) (hd : p'.startDate = departApres s id p.startDate q)
    (hother : ∀ j d, j ≠ id → departApres s j d q = d) : Edited s q (s.putPackage id p') := by
  refine ⟨rfl, rfl, fun j x hx => ?_⟩
  rw [Db.putPackage, Table.get_set hp]
  by_cases hj : id = j
  · subst hj
    rw [hp, Option.some.injEq] at hx
    subst hx
    exact ⟨p', if_pos rfl, ha, hd⟩
  · exact ⟨x, by rw [if_neg hj, hx], rfl, (hother j _ (Ne.symm hj)).symm⟩

/-- The statement only adds packages. -/
def Adding : sig.Stmt → Prop
  | .inl (.agencyFindUnique _) => True
  | .inl (.refundPolicyTierFindMany _) => True
  | .inl _ => False
  | .inr (.packageUpdate _ _) => False
  | .inr _ => True

theorem adding_runs {α : Type} {p : Req α} (hp : p.Uses Adding) {r : Except Erreur α}
    (h : backend.Runs p s r s') : s'.bookings = s.bookings ∧ s'.agencies = s.agencies ∧
      ∀ (id : PackageId) p, s.packages[id]? = some p → s'.packages[id]? = some p := by
  refine h.frame (R := fun s s' : Db => s'.bookings = s.bookings ∧ s'.agencies = s.agencies ∧
      ∀ (id : PackageId) p, s.packages[id]? = some p → s'.packages[id]? = some p)
    (fun _ => ⟨rfl, rfl, fun _ _ => id⟩) (fun s₁ s₂ s₃ h h' => ?_) (fun c hc e s => ?_) hp
  · exact ⟨h'.1.trans h.1, h'.2.1.trans h.2.1, fun id p hp => h'.2.2 id p (h.2.2 id p hp)⟩
  · rcases c with c | c
    · cases c with
      | agencyFindUnique ownerId => exact ⟨rfl, rfl, fun _ _ => id⟩
      | refundPolicyTierFindMany agencyId => exact ⟨rfl, rfl, fun _ _ => id⟩
      | _ => exact hc.elim
    · cases c with
      | agencyFindUnique agencyId => exact ⟨rfl, rfl, fun _ _ => id⟩
      | packageCreate data =>
        simp only [backend, exec]
        split
        · exact ⟨rfl, rfl, fun id p hp => Table.get_append_of_get hp data⟩
        · exact ⟨rfl, rfl, fun _ _ => id⟩
      | packageUpdate id data => exact hc.elim
      | refundPolicyTierReplace agencyId data =>
        simp only [backend, exec, replaceTiers]
        split <;> exact ⟨rfl, rfl, fun _ _ => id⟩

theorem create_adding (ownerId : UserId) (dto : CreatePackageDto) :
    (PackagesService.create ownerId dto).Uses Adding := by
  refine (create_publishes ownerId dto).mono fun c hc => ?_
  rcases c with c | c
  · cases c <;> trivial
  · cases c <;> trivial

theorem replace_adding (ownerId : UserId) (dto : ReplaceRefundPolicyDto) :
    (RefundPolicyService.replaceForOwner ownerId dto).Uses Adding := by
  refine Prog.Uses.bind ⟨trivial, fun r => ?_⟩ fun agence => ?_
  · rcases r with _ | ⟨id, agency⟩ <;> trivial
  split
  · trivial
  · refine ⟨trivial, fun r => ?_⟩
    cases r with
    | error x => trivial
    | ok u => exact ⟨trivial, fun paliers => trivial⟩

theorem findPackage_runs {id : PackageId} {r : Except Erreur PackageShape}
    (h : prisma.Runs (OumraHajj.PackagesService.findByIdOrFail id) s r s') : s' = s ∧
      ((∃ p, s.packages[id]? = some p ∧ r = .ok (toPackageShape id p)) ∨
        (s.packages[id]? = none ∧ ∃ x, r = .error x)) := by
  simp only [OumraHajj.PackagesService.findByIdOrFail, Prog.bind_eq, await_bind, Backend.runs_call,
    prisma_exec, OumraHajj.exec] at h
  obtain ⟨_, h⟩ := h
  rcases hp : s.packages[id]? with _ | p
  · simp only [hp, Backend.runs_fail] at h
    exact ⟨h.2, .inr ⟨rfl, _, h.1⟩⟩
  · simp only [hp, Prog.pure_eq, Backend.runs_ret] at h
    exact ⟨h.2, .inl ⟨p, rfl, h.1⟩⟩

theorem packageOwnership_runs {ownerId : UserId} {id : PackageId} {p : Package}
    (hp : s.packages[id]? = some p) {r : Except Erreur Unit}
    (h : prisma.Runs (OumraHajj.PackagesService.assertOwnership ownerId (toPackageShape id p)) s r s') :
    s' = s ∧ ((ownsPackage s ownerId id = true ∧ r = .ok ()) ∨
      (ownsPackage s ownerId id = false ∧ ∃ x, r = .error x)) := by
  simp only [OumraHajj.PackagesService.assertOwnership, AgenciesService.findByOwnerOrFail, Prog.bind_eq,
    await_bind, Prog.call_bind, Backend.runs_call, prisma_exec, OumraHajj.exec] at h
  obtain ⟨_, h⟩ := h
  rcases ha : s.agencyOf ownerId with _ | ⟨agencyId, agency⟩
  · simp only [ha, Prog.fail_bind, Backend.runs_fail] at h
    exact ⟨h.2, .inr ⟨by rw [ownsPackage, hp, ha], _, h.1⟩⟩
  simp only [ha, Prog.pure_eq, Prog.ret_bind] at h
  have howns : ownsPackage s ownerId id = decide (p.agencyId = agencyId) := by
    rw [ownsPackage, hp, ha]
  split at h
  · rename_i hne
    exact ⟨h.2, .inr ⟨howns.trans (decide_eq_false hne), _, h.1⟩⟩
  · rename_i heq
    exact ⟨h.2, .inl ⟨howns.trans (decide_eq_true (not_not.mp heq)), h.1⟩⟩

/-- The agency of the package writes the edit; for any other user nothing is done. -/
theorem update_runs {ownerId : UserId} {id : PackageId} {dto : PackageEdit}
    {r : Except Erreur PackageShape} (h : backend.Runs (PackagesService.update ownerId id dto) s r s') :
    (ownsPackage s ownerId id = true ∧ ∃ p, s.packages[id]? = some p ∧
      s' = s.putPackage id (dto.apply p)) ∨ (ownsPackage s ownerId id = false ∧ s' = s) := by
  rcases Backend.runs_bind.mp h with ⟨pkg, s₁, hf, h₁⟩ | ⟨x, hf, -⟩
  swap
  · obtain ⟨rfl, ⟨p, -, hr⟩ | ⟨hp, -⟩⟩ := findPackage_runs (runs_left hf)
    · cases hr
    · exact .inr ⟨by rw [ownsPackage, hp], rfl⟩
  obtain ⟨rfl, ⟨p, hp, ⟨⟩⟩ | ⟨-, x, ⟨⟩⟩⟩ := findPackage_runs (runs_left hf)
  rcases Backend.runs_bind.mp h₁ with ⟨u, s₂, ho, h₂⟩ | ⟨x, ho, -⟩
  swap
  · obtain ⟨rfl, ⟨-, hr⟩ | ⟨howns, -⟩⟩ := packageOwnership_runs hp (runs_left ho)
    · cases hr
    · exact .inr ⟨howns, rfl⟩
  obtain ⟨rfl, ⟨howns, -⟩ | ⟨-, x, ⟨⟩⟩⟩ := packageOwnership_runs hp (runs_left ho)
  obtain ⟨e, h₂⟩ := h₂
  have hupdate : backend.exec (.inr (.packageUpdate id dto)) e s₂ =
      (some (dto.apply p), s₂.putPackage id (dto.apply p)) := by
    simp only [backend, exec, hp]
    rfl
  have hshape : (toPackageShape id p).id = id := rfl
  rw [hshape, hupdate] at h₂
  exact .inl ⟨howns, p, hp, h₂.2⟩

end Edits

theorem request_edited {s s' : Db} {q : Request} (hq : q.ParAgence) {r : Except Erreur Unit}
    (h : backend.Runs (handler q) s r s') : Edited s q s' := by
  cases q with
  | app q =>
    cases q with
    | closePackage ownerId packageId =>
      obtain ⟨r', h⟩ := Backend.runs_void (runs_left h)
      rcases close_runs h with rfl | ⟨p, hp, rfl⟩
      · exact .of_frame (fun _ _ => rfl) ⟨rfl, rfl, fun _ _ => id⟩
      · exact .of_put hp rfl rfl fun _ _ _ => rfl
    | _ => exact hq.elim
  | createPackage ownerId dto =>
    obtain ⟨r', h⟩ := Backend.runs_void h
    exact .of_frame (fun _ _ => rfl) (adding_runs (create_adding ownerId dto) h)
  | replacePolicy ownerId dto =>
    obtain ⟨r', h⟩ := Backend.runs_void h
    exact .of_frame (fun _ _ => rfl) (adding_runs (replace_adding ownerId dto) h)
  | updatePackage ownerId packageId dto =>
    obtain ⟨r', h⟩ := Backend.runs_void h
    rcases update_runs h with ⟨howns, p, hp, rfl⟩ | ⟨howns, rfl⟩
    · refine .of_put hp rfl ?_ fun j d hj => if_neg fun hc => hj hc.1.symm
      rw [PackageEdit.apply_startDate, departApres, if_pos ⟨rfl, howns⟩]
    · refine .of_frame (fun id d => if_neg fun hc => ?_) ⟨rfl, rfl, fun _ _ => id⟩
      rw [← hc.1, howns] at hc
      cases hc.2

theorem Edited.ownsPackage {s s' : Db} {q : Request} (h : Edited s q s') {id : PackageId}
    {p : Package} (hp : s.packages[id]? = some p) (ownerId : UserId) :
    Catalogue.ownsPackage s' ownerId id = Catalogue.ownsPackage s ownerId id := by
  obtain ⟨p', hp', ha, -⟩ := h.package id p hp
  have hagency : s'.agencyOf ownerId = s.agencyOf ownerId := by
    rw [Db.agencyOf, h.agencies, ← Db.agencyOf]
  rw [Catalogue.ownsPackage, Catalogue.ownsPackage, hp, hp', hagency]
  rcases s.agencyOf ownerId with _ | ⟨agencyId, agency⟩
  · rfl
  · simp only [ha]

/-- The bookings stay, and a package departs on the last date that its agency has set. -/
theorem run_edited {s : Db} {tr : Trace Request Db} (hr : backend.Run handler s tr)
    (hA : ∀ x ∈ tr, x.1.ParAgence) {id : PackageId} {p : Package} (hp : s.packages[id]? = some p) :
    (Trace.last s tr).bookings = s.bookings ∧ ∃ p', (Trace.last s tr).packages[id]? = some p' ∧
      p'.startDate = (tr.map Prod.fst).foldl (departApres s id) p.startDate := by
  induction tr generalizing s p with
  | nil => exact ⟨rfl, p, hp, rfl⟩
  | cons x tr ih =>
    obtain ⟨⟨r, hx⟩, hr⟩ := hr
    have he := request_edited (hA x List.mem_cons_self) hx
    obtain ⟨p₁, hp₁, -, hd₁⟩ := he.package id p hp
    obtain ⟨hb, p', hp', hd'⟩ := ih hr (fun y hy => hA y (List.mem_cons_of_mem _ hy)) hp₁
    have hsame : departApres x.2 id = departApres s id := by
      funext d q
      cases q with
      | updatePackage ownerId packageId dto => rw [departApres, departApres, he.ownsPackage hp]
      | _ => rfl
    refine ⟨hb.trans he.bookings, p', hp', ?_⟩
    rw [hd', hsame, hd₁, List.map_cons, List.foldl_cons]

/-! ## The rate -/

/-- The refund rate that `contextFor` gives for the booking at the instant `t`. -/
def refundRate (s : Db) (id : BookingId) (t : Time) : Option ℚ :=
  ((prisma.eval { now := t } (OumraHajj.RefundPolicyService.contextFor id) s).1.toOption).map (·.rate)

theorem refundRate_eq {s : Db} {id : BookingId} {b : Booking} {p : Package}
    (hb : s.bookings[id]? = some b) (hp : s.packages[b.packageId]? = some p)
    (hc : b.status = .confirmed) (t : Time) :
    refundRate s id t =
      some (tauxConfirme b.refundPolicySnapshot (joursAvantDepart p.startDate t)) := by
  have hread : s.bookingWithPackage id = some (b, p) := by
    rw [Db.bookingWithPackage, hb, Option.bind_some, hp, Option.map_some]
  simp only [refundRate, OumraHajj.RefundPolicyService.contextFor, Prog.bind_eq, await_bind, Backend.eval,
    Backend.evalBy_call, prisma_exec, OumraHajj.exec, hread, Prog.pure_eq, Backend.evalBy_ret, hc]
  rfl

/-- A state that the requests lead to. -/
def Atteint (s : Db) : Prop :=
  ∃ s₀ tr, Sound s₀ ∧ backend.Run handler s₀ tr ∧ Trace.last s₀ tr = s

theorem Atteint.sound {s : Db} (h : Atteint s) : Sound s := by
  obtain ⟨s₀, tr, h₀, hr, rfl⟩ := h
  exact run_sound h₀ hr

/-- **The refund terms of a booking.** Whatever the agencies do, the rate is at no instant lower than
before exactly if the departure ends up not earlier than before, or the rate does not depend on it. -/
theorem refund_terms_iff {s : Db} {id : BookingId} {b : Booking} (hs : Atteint s)
    (hb : s.bookings[id]? = some b) (hc : b.status = .confirmed) {tr : Trace Request Db}
    (hr : backend.Run handler s tr) (hA : ∀ x ∈ tr, x.1.ParAgence) :
    (∀ t, ∃ r r', refundRate s id t = some r ∧ refundRate (Trace.last s tr) id t = some r' ∧ r ≤ r') ↔
      (∀ p, s.packages[b.packageId]? = some p →
        p.startDate ≤ (tr.map Prod.fst).foldl (departApres s b.packageId) p.startDate) ∨
      Plat b.refundPolicySnapshot := by
  have hterms : b.terms ∈ s.bookings.map Booking.terms :=
    List.mem_map_of_mem (List.mem_of_getElem? hb)
  have hfige : Fige b.refundPolicySnapshot := (hs.sound.frozen _ hterms).1
  have hlt : b.packageId < s.packages.length := (hs.sound.frozen _ hterms).2
  obtain ⟨p, hp⟩ : ∃ p, s.packages[b.packageId]? = some p :=
    ⟨_, List.getElem?_eq_getElem hlt⟩
  obtain ⟨hbookings, p', hp', hd⟩ := run_edited hr hA hp
  have hb' : (Trace.last s tr).bookings[id]? = some b := by rw [hbookings, hb]
  have hrates : (∀ t, ∃ r r', refundRate s id t = some r ∧
        refundRate (Trace.last s tr) id t = some r' ∧ r ≤ r') ↔
      ∀ t, tauxConfirme b.refundPolicySnapshot (joursAvantDepart p.startDate t) ≤
        tauxConfirme b.refundPolicySnapshot (joursAvantDepart p'.startDate t) := by
    refine forall_congr' fun t => ?_
    rw [refundRate_eq hb hp hc, refundRate_eq hb' hp' hc]
    constructor
    · rintro ⟨r, r', ⟨⟩, ⟨⟩, hle⟩
      exact hle
    · exact fun hle => ⟨_, _, rfl, rfl, hle⟩
  rw [hrates, tauxConfirme_iff hfige, hd]
  refine or_congr_left ⟨fun hle q hq => ?_, fun h => h p hp⟩
  obtain rfl := Option.some.inj (hp.symm.trans hq)
  exact hle

/-- No agency has tiers any more, and the bookings keep theirs. -/
theorem atteint_of_rows {s : Db} (ht : s.refundPolicyTiers = [])
    (hb : ∀ b ∈ s.bookings, Fige b.refundPolicySnapshot ∧ b.packageId < s.packages.length) :
    Atteint s := by
  refine ⟨s, [], ⟨fun agencyId => ?_, fun t hm => ?_⟩, trivial, rfl⟩
  · rw [Db.tiersOf, ht]
    exact coherent_nil
  · obtain ⟨b, hmem, rfl⟩ := List.mem_map.mp hm
    exact hb b hmem

/-- A booking is confirmed: half of the price is refunded thirty days before the departure. -/
private def fige : Db :=
  { Db.exemple with
    bookings := [{ Booking.exemple with
      status := .confirmed
      refundPolicySnapshot := some (tiersJson [⟨0, 30, 1 / 2⟩]) }] }

private theorem fige_atteint : Atteint fige := by
  refine atteint_of_rows rfl fun b hb => ?_
  obtain rfl := List.mem_singleton.mp hb
  exact ⟨fige_singleton 0 30 (by decide +kernel), by decide⟩

/-- The agency moves the departure by `d`. -/
private def decale (d : Time) : Trace Request Db :=
  backend.evalAll handler {} fige [.updatePackage 1 0 { startDate := some d }]

private theorem decale_agence (d : Time) : ∀ x ∈ decale d, x.1.ParAgence := by
  intro x hx
  obtain rfl := List.mem_singleton.mp hx
  trivial

/-- The departure is moved a day later. -/
theorem refund_terms_plus_tard : Atteint fige ∧ ∀ t, ∃ r r', refundRate fige 0 t = some r ∧
    refundRate (Trace.last fige (decale jourMs)) 0 t = some r' ∧ r ≤ r' := by
  refine ⟨fige_atteint, (refund_terms_iff fige_atteint rfl rfl (Backend.evalAll_run _ _ _)
    (decale_agence jourMs)).mpr (.inl fun p hp => ?_)⟩
  obtain rfl := Option.some.inj hp
  decide

/-- The departure is moved a day earlier. -/
theorem refund_terms_plus_tot :
    ¬ ∀ (s : Db) (id : BookingId) (b : Booking), Atteint s → s.bookings[id]? = some b →
      b.status = .confirmed → ∀ tr : Trace Request Db, backend.Run handler s tr →
      (∀ x ∈ tr, x.1.ParAgence) → ∀ t, ∃ r r', refundRate s id t = some r ∧
        refundRate (Trace.last s tr) id t = some r' ∧ r ≤ r' := by
  intro h
  obtain ⟨r, r', hr, hr', hle⟩ := h fige 0 _ fige_atteint rfl rfl (decale (-jourMs))
    (Backend.evalAll_run _ _ _) (decale_agence _) (-30 * jourMs)
  have hbefore : refundRate fige 0 (-30 * jourMs) = some (1 / 2) := by decide +kernel
  have hafter : refundRate (Trace.last fige (decale (-jourMs))) 0 (-30 * jourMs) = some 0 := by
    decide +kernel
  rw [hbefore, Option.some.injEq] at hr
  rw [hafter, Option.some.injEq] at hr'
  rw [← hr, ← hr'] at hle
  exact absurd hle (by decide +kernel)

end OumraHajj.Catalogue
