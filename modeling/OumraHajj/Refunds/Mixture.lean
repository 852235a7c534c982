import OumraHajj.Refunds.Versioned

/-!
# A schedule is not a mixture

Two replacements of the schedule of one agency may run at once. The `deleteMany` of the second one may
not see the tiers that the first one commits after it has started, and then the schedule is made of both.
`Whole` is the condition under which this does not happen: when a replacement commits, its `deleteMany`
has deleted every tier of the agency that is there. `policy_unmixed` is what follows from it in every
interleaving.
-/

namespace OumraHajj.Refunds

open Async Catalogue

/-- The owner whose schedule a request replaces. -/
def replacedBy : Catalogue.Request → Option UserId
  | .replacePolicy ownerId _ => some ownerId
  | _ => none

section Claim

variable {ι : Type} (requests : ι → Catalogue.Request) (d₀ : Db)

/-- The schedules of an agency: the first one, and the valid ones that its owner submits. -/
inductive Submitted (d : Db) (a : AgencyId) : List RefundPolicyTier → Prop
  | initial : Submitted d a (d₀.tiersOf a)
  | replaced (t : ι) (ownerId : UserId) (dto : ReplaceRefundPolicyDto) (agency : Agency)
      (paliers : List RefundPolicyTierDto) :
    requests t = .replacePolicy ownerId dto → d.agencyOf ownerId = some (a, agency) →
      verifierPaliers dto.tiers = .ok paliers →
      Submitted d a (paliers.map (RefundPolicyTierDto.row a))

/-- What a booking freezes of a schedule. -/
def snapshot (paliers : List RefundPolicyTier) : Option Json :=
  if paliers.length > 0 then some (tiersJson paliers) else none

/-- Every schedule is one of those submitted, and so is what each new booking has frozen. -/
structure Unmixed (d : Db) : Prop where
  tiers : ∀ a, Submitted requests d₀ d a (d.tiersOf a)
  length : d₀.bookings.length ≤ d.bookings.length
  booked : ∀ b ∈ (d.bookings.drop d₀.bookings.length).map Booking.terms,
    ∃ l, Submitted requests d₀ d b.agencyId l ∧ b.refundPolicySnapshot = snapshot l

/-- A replacement that commits has deleted every tier of the agency, or has nothing to do. -/
def Whole (s : Store ι) (t : ι) : (sig ι).Stmt → Prop
  | .inr (.commit _) => ∀ ownerId ∈ replacedBy (requests t), ∀ x ∈ s.db.agencyOf ownerId,
    ∀ w ∈ s.tiers.work t, (∀ y ∈ s.tiers.rows, y.2.agencyId = x.1 → y ∈ w.deleted) ∨
      (w.deleted = [] ∧ w.created = [])
  | _ => True

instance (s : Store ι) (t : ι) : (c : (sig ι).Stmt) → Decidable (Whole requests s t c)
  | .inr (.commit _) => inferInstanceAs (Decidable (∀ ownerId ∈ replacedBy (requests t),
    ∀ x ∈ s.db.agencyOf ownerId, ∀ w ∈ s.tiers.work t,
      (∀ y ∈ s.tiers.rows, y.2.agencyId = x.1 → y ∈ w.deleted) ∨ (w.deleted = [] ∧ w.created = [])))
  | .inr (.begin _) | .inr (.scan _ _) | .inr (.delete _ _) | .inr (.create _ _)
  | .inr (.rollback _) | .inl _ => isTrue trivial

variable {requests d₀} {d d' : Db}

theorem Submitted.mono {a : AgencyId} {l : List RefundPolicyTier} (h : Submitted requests d₀ d a l)
    (hle : d.agencies <+: d'.agencies) : Submitted requests d₀ d' a l := by
  cases h with
  | initial => exact .initial
  | replaced t ownerId dto agency paliers hq ha hv =>
    exact .replaced t ownerId dto agency paliers hq (Db.agencyOf_of_prefix hle ha) hv

theorem Unmixed.of_eq (h : Unmixed requests d₀ d)
    (hb : d'.bookings.map Booking.terms = d.bookings.map Booking.terms)
    (hle : d.agencies <+: d'.agencies) (ht : d'.refundPolicyTiers = d.refundPolicyTiers) :
    Unmixed requests d₀ d' := by
  have hlen : d.bookings.length = d'.bookings.length := by
    have hlen := congrArg List.length hb
    rwa [List.length_map, List.length_map, eq_comm] at hlen
  refine ⟨fun a => ?_, hlen ▸ h.length, fun b hm => ?_⟩
  · rw [Db.tiersOf, ht]
    exact (h.tiers a).mono hle
  · rw [List.map_drop, hb, ← List.map_drop] at hm
    obtain ⟨l, hl, hsnap⟩ := h.booked b hm
    exact ⟨l, hl.mono hle, hsnap⟩

/-- The invariant; agencies are only added. -/
def unmixedRely (requests : ι → Catalogue.Request) (d₀ : Db) : Rely Db where
  inv := Unmixed requests d₀
  le d d' := d.agencies <+: d'.agencies
  refl _ := List.prefix_rfl
  trans _ _ _ := List.IsPrefix.trans

/-! ## The other requests -/

section App

variable {ok : prismaSig.Stmt → Db → OumraHajj.Env → Prop}

theorem noBooking_step {c : OumraHajj.Stmt} (hc : NoBooking c) :
    (unmixedRely requests d₀).Step prisma ok c := by
  intro s e hi _
  exact ⟨hi.of_eq (exec_terms hc e s) (exec_agencies c e s) (exec_refundPolicyTiers c e s),
    exec_agencies c e s⟩

/-- The booking that a pilgrim makes freezes the schedule as it was read in one statement. -/
theorem create_keeps (pilgrimId : UserId) (packageId : PackageId) (s : Db) :
    (unmixedRely requests d₀).Keeps prisma ok (BookingsService.create pilgrimId packageId) s
      fun _ _ => True := by
  refine OumraHajj.create_keeps (fun c hc => noBooking_step hc) ?_ s
  rintro s₁ s₂ s₃ e p - - hs₂ - - hle₃ paliers rfl s₄ e₄ hs₄ ⟨rfl, -⟩
  have hle := exec_agencies (.bookingCreate pilgrimId packageId p.agencyId
    (snapshot (s₂.tiersOf p.agencyId))) e₄ s₄
  refine ⟨⟨fun a => (hs₄.tiers a).mono hle, ?_, fun b hb => ?_⟩, hle⟩
  · exact le_trans hs₄.length (by simp [prisma_exec, OumraHajj.exec])
  · simp only [prisma_exec, OumraHajj.exec, List.drop_append_of_le_length hs₄.length, List.map_append,
      List.mem_append] at hb
    rcases hb with hb | hb
    · obtain ⟨l, hl, hsnap⟩ := hs₄.booked b hb
      exact ⟨l, hl.mono hle, hsnap⟩
    · obtain rfl := List.mem_singleton.mp hb
      exact ⟨s₂.tiersOf p.agencyId, (hs₂.tiers p.agencyId).mono (hle₃.trans hle), rfl⟩

end App

/-- The statement creates no booking and replaces no schedule. -/
def Quiet : Catalogue.sig.Stmt → Prop
  | .inl c => NoBooking c
  | c => Single c

theorem quiet_step {ok : Catalogue.sig.Stmt → Db → OumraHajj.Env → Prop} {c : Catalogue.sig.Stmt}
    (hc : Quiet c) : (unmixedRely requests d₀).Step Catalogue.backend ok c := by
  intro s e hi _
  rcases c with c | c
  · have hstep : (unmixedRely requests d₀).Step prisma (fun _ _ _ => True) c := noBooking_step hc
    exact hstep s e hi trivial
  cases c with
  | agencyFindUnique id => exact ⟨hi, List.prefix_rfl⟩
  | packageCreate data =>
    simp only [Catalogue.backend, Catalogue.exec]
    split
    · exact ⟨hi.of_eq rfl List.prefix_rfl rfl, List.prefix_rfl⟩
    · exact ⟨hi, List.prefix_rfl⟩
  | packageUpdate id data =>
    simp only [Catalogue.backend, Catalogue.exec]
    split
    · exact ⟨hi.of_eq rfl List.prefix_rfl rfl, List.prefix_rfl⟩
    · exact ⟨hi, List.prefix_rfl⟩
  | refundPolicyTierReplace agencyId data => exact hc.elim

theorem single_keeps {ok : Catalogue.sig.Stmt → Db → OumraHajj.Env → Prop} {q : Catalogue.Request}
    (hq : ∀ ownerId dto, q ≠ .replacePolicy ownerId dto) (s : Db) :
    (unmixedRely requests d₀).Keeps Catalogue.backend ok (Catalogue.handler q) s fun _ _ => True := by
  rcases Catalogue.handler_quiet (P := Quiet) (fun _ h => h) (fun _ h => h) q with
    ⟨pilgrimId, packageId, rfl⟩ | ⟨ownerId, dto, rfl⟩ | hquiet
  · exact keeps_left (create_keeps pilgrimId packageId s).void
  · exact absurd rfl (hq ownerId dto)
  · exact (Rely.Keeps.of_uses (fun c hc => quiet_step hc) hquiet s).mono fun _ _ _ => trivial

/-! ## The replacement -/

section Replace

variable [DecidableEq ι] {s : Store ι} {t : ι}

theorem commit_unmixed (hi : Unmixed requests d₀ s.db) {a : AgencyId} {data : List RefundPolicyTier}
    (hheld : Versions.Held Store.tiers t (fun x => decide (x.agencyId = a)) data s)
    (hsub : Submitted requests d₀ s.db a data) (hc : Coherent data) (ha : ∀ p ∈ data, p.agencyId = a)
    (hwhole : ∀ w ∈ s.tiers.work t, (∀ y ∈ s.tiers.rows, y.2.agencyId = a → y ∈ w.deleted) ∨
      (w.deleted = [] ∧ w.created = [])) :
    Unmixed requests d₀ { s with tiers := s.tiers.commit t }.db := by
  obtain ⟨w, hw, hd, hcreated⟩ := hheld
  have hle : s.db.agencies <+: { s with tiers := s.tiers.commit t }.db.agencies := List.prefix_rfl
  rcases hwhole w hw with hall | ⟨hdel, hcre⟩
  swap
  · exact hi.of_eq rfl hle (Versions.values_commit_nil hw hdel hcre)
  refine ⟨fun b => ?_, hi.length, fun x hx => ?_⟩
  · by_cases hb : b = a
    · subst hb
      have hnew : (s.tiers.commit t).values.filter (fun x => decide (x.agencyId = b)) = data := by
        rw [Versions.filter_commit hw (fun y hy hp => hall y hy (of_decide_eq_true hp)), hcreated]
        rw [hcreated]
        exact fun r hr => decide_eq_true (ha r hr)
      have htiers : { s with tiers := s.tiers.commit t }.db.tiersOf b = data := by
        rw [Db.tiersOf]
        show ((s.tiers.commit t).values.filter _).insertionSort _ = data
        rw [hnew]
        exact hc.sorted.insertionSort_eq
      rw [htiers]
      exact hsub.mono hle
    · have hold : (s.tiers.commit t).values.filter (fun x => decide (x.agencyId = b)) =
          s.tiers.values.filter fun x => decide (x.agencyId = b) := by
        refine Versions.filter_commit_other hw (fun y hy hq => hb ?_) fun r hr hq => hb ?_
        · exact (of_decide_eq_true hq).symm.trans (of_decide_eq_true (hd y hy))
        · rw [hcreated] at hr
          exact (of_decide_eq_true hq).symm.trans (ha r hr)
      have htiers : { s with tiers := s.tiers.commit t }.db.tiersOf b = s.db.tiersOf b := by
        rw [Db.tiersOf, Db.tiersOf]
        show ((s.tiers.commit t).values.filter _).insertionSort _ = _
        rw [hold]
        rfl
      rw [htiers]
      exact (hi.tiers b).mono hle
  · obtain ⟨l, hl, hsnap⟩ := hi.booked x hx
    exact ⟨l, hl.mono hle, hsnap⟩

/-- The condition on the steps of a schedule. -/
def stepOk (requests : ι → Catalogue.Request) (t : ι) (c : (sig ι).Stmt) (s : Store ι) (_ : Env) :
    Prop :=
  Ready s c ∧ Whole requests s t c

instance [Fintype ι] (requests : ι → Catalogue.Request) (t : ι) (c : (sig ι).Stmt) (s : Store ι)
    (e : Env) : Decidable (stepOk requests t c s e) :=
  inferInstanceAs (Decidable (Ready s c ∧ Whole requests s t c))

/-- A statement of the catalogue leaves what the sessions have done. -/
def Outside (c : (sig ι).Stmt) : Prop := ∃ x, c = .inl x

theorem own_outside {c : (sig ι).Stmt} (hc : Outside c) (e : Env) (s : Store ι) (u : ι) :
    Versions.own Store.tiers u (backend.exec c e s).2 = Versions.own Store.tiers u s := by
  obtain ⟨c, rfl⟩ := hc
  rfl

/-- What a handler keeps on the committed database. -/
theorem left_keepsOwn {α : Type} {p : Catalogue.Req α} (hp : p.Uses Single)
    {Q : Except Erreur α → Db → Prop}
    (h : (unmixedRely requests d₀).Keeps Catalogue.backend (fun _ _ _ => True) p s.db Q) :
    ((unmixedRely requests d₀).comap Store.db).KeepsOwn backend (stepOk requests)
      (Versions.own Store.tiers) t p.left s fun r s' => Q r s'.db :=
  .of_keeps (A := Outside) (fun _ hc e s u => own_outside hc e s u)
    (hp.left fun c _ => ⟨c, rfl⟩) (Rely.Keeps.left extends_catalogue (fun _ _ _ _ => trivial) hp h)

/-- Within a transaction nothing is committed. -/
theorem row_step {c : RowStmt ι RefundPolicyTier} (hc : ∀ u, c ≠ .commit u) :
    ((unmixedRely requests d₀).comap Store.db).Step backend (stepOk requests t) (.inr c) := by
  intro s e hi _
  have hdb : (backend.exec (.inr c) e s).2.db = s.db :=
    congrArg (fun rows : List (Nat × RefundPolicyTier) =>
      ({ s.app with refundPolicyTiers := rows.map Prod.snd } : Db))
      (Versions.exec_rows e.deadlock hc)
  show Unmixed requests d₀ _ ∧ _ <+: _
  rw [hdb]
  exact ⟨hi, List.prefix_rfl⟩

theorem replace_keeps {ownerId : UserId} {dto : ReplaceRefundPolicyDto}
    (hq : requests t = .replacePolicy ownerId dto) :
    ((unmixedRely requests d₀).comap Store.db).KeepsOwn backend (stepOk requests)
      (Versions.own Store.tiers) t
      ((RefundPolicyService.replaceForOwner ownerId dto).expand (statement t)) s fun _ _ => True := by
  rw [RefundPolicyService.replaceForOwner]
  simp only [Prog.bind_eq, Prog.expand_bind]
  rw [expand_single t (single_owner ownerId)]
  have howner := @owner_keeps (unmixedRely requests d₀) (fun _ _ _ => True) (fun _ _ => id) ownerId s.db
  refine .bind ((left_keepsOwn (single_owner ownerId) (keeps_left howner)).mono ?_)
  rintro (x | agence) s₁ ⟨-, hagence⟩
  · trivial
  obtain ⟨agency, hagency⟩ := hagence agence rfl
  cases hv : verifierPaliers dto.tiers with
  | error erreur => trivial
  | ok paliers =>
    have hcommit : ∀ s₂ e, Unmixed requests d₀ s₂.db → s₁.db.agencies <+: s₂.db.agencies →
        Versions.Held Store.tiers t (fun x => decide (x.agencyId = agence.id))
          (paliers.map (RefundPolicyTierDto.row agence.id)) s₂ →
        stepOk requests t (.inr (.commit t)) s₂ e →
        Unmixed requests d₀ (backend.exec (.inr (.commit t)) e s₂).2.db ∧
          s₂.db.agencies <+: (backend.exec (.inr (.commit t)) e s₂).2.db.agencies := by
      intro s₂ e hi hle hheld ho
      have ha := hagency s₂.db hle
      have howner : ownerId ∈ replacedBy (requests t) := by rw [hq]; rfl
      refine ⟨commit_unmixed hi hheld (.replaced t ownerId dto agency paliers hq ha hv)
        (verifierPaliers_coherent hv) (fun p hp => ?_) (ho.2 ownerId howner (agence.id, agency) ha),
        List.prefix_rfl⟩
      obtain ⟨q, -, rfl⟩ := List.mem_map.mp hp
      rfl
    refine .bind (.bind ((Versions.replaceMany_keeps hosts_tiers (fun c _ hc => row_step hc)
      hcommit).mono ?_))
    rintro (x | refusal | u) s₂ -
    · trivial
    · trivial
    · show Rely.KeepsOwn _ _ _ _ _ ((RefundPolicyService.getForAgency agence.id).expand
        (statement t)) s₂ _
      rw [expand_single t (single_getForAgency agence.id)]
      have hquiet : (RefundPolicyService.getForAgency agence.id).Uses Quiet := ⟨rfl, fun _ => trivial⟩
      exact (left_keepsOwn (single_getForAgency agence.id)
        (.of_uses (fun c hc => quiet_step hc) hquiet s₂.db)).mono fun _ _ _ => trivial

theorem handler_keeps (t : ι) (s : Store ι) :
    ((unmixedRely requests d₀).comap Store.db).KeepsOwn backend (stepOk requests)
      (Versions.own Store.tiers) t (handler t (requests t)) s fun _ _ => True := by
  rcases hq : requests t with q | ⟨ownerId, dto⟩ | ⟨ownerId, packageId, dto⟩ | ⟨ownerId, dto⟩
  case replacePolicy =>
    rw [handler, Catalogue.handler, Prog.void, Prog.expand_bind]
    refine .bind ((replace_keeps hq).mono ?_)
    rintro (x | shape) s' -
    · trivial
    · trivial
  all_goals
    rcases handler_single (requests t) with ⟨_, _, h⟩ | hs
    · rw [hq] at h
      cases h
    · rw [hq] at hs
      rw [handler, expand_single t hs]
      exact left_keepsOwn hs (single_keeps (by rintro _ _ ⟨⟩) s.db)

omit [DecidableEq ι] in
theorem init_unmixed (requests : ι → Catalogue.Request) (d : Db) : Unmixed requests d d := by
  refine ⟨fun a => .initial, le_refl _, fun b hb => ?_⟩
  rw [List.drop_length] at hb
  cases hb

end Replace

/-- **A schedule is not a mixture**, where each replacement that commits has deleted every tier that
is there. -/
theorem policy_unmixed [DecidableEq ι] (requests : ι → Catalogue.Request) (d : Db)
    {c : Pool (sig ι) ι (Store ι) Erreur Unit}
    (hr : Pool.Reach backend (Rely.condOf (stepOk requests)) (poolOf requests d) c) :
    Unmixed requests d c.st.db := by
  have h₀ : Unmixed requests d (poolOf requests d).st.db := by
    show Unmixed requests d (Store.init d).db
    rw [init_db]
    exact init_unmixed requests d
  exact (Rely.reachOwn (D := (unmixedRely requests d).comap Store.db) h₀
    (fun t => handler_keeps t (Store.init d)) hr).1

end Claim

private theorem un_palier (p : RefundPolicyTierDto) : [p].length ≤ 10 := by simp

/-- A schedule of one tier. -/
private def unPalier (jours : Int) (h : 0 ≤ jours ∧ jours ≤ 730) : ReplaceRefundPolicyDto :=
  ⟨[⟨jours, 1, h.1, h.2, zero_le_one, le_refl 1⟩], un_palier _⟩

private theorem trente : (0 : Int) ≤ 30 ∧ (30 : Int) ≤ 730 := by decide

private theorem soixante : (0 : Int) ≤ 60 ∧ (60 : Int) ≤ 730 := by decide

/-- An agency submits two schedules of one tier at once. -/
private def deuxBaremes : Bool → Catalogue.Request
  | false => .replacePolicy 1 (unPalier 30 trente)
  | true => .replacePolicy 1 (unPalier 60 soixante)

/-- The two requests take turns, in the order given. -/
private def ordre (l : List Bool) : List (Bool × Env) := l.map fun t => (t, {})

/-- One request after the other. -/
private def separes : Pool (sig Bool) Bool (Store Bool) Erreur Unit :=
  Pool.run backend (ordre [false, false, false, false, false, false, true, true, true, true, true, true,
    true]) (poolOf deuxBaremes Db.exemple)

theorem policy_unmixed_separes : Unmixed deuxBaremes Db.exemple separes.st.db := by
  refine policy_unmixed deuxBaremes Db.exemple (Pool.Allowed.reach ?_ .refl)
  decide +kernel

/-- Both requests read the tiers before either commits. -/
private def croises : Pool (sig Bool) Bool (Store Bool) Erreur Unit :=
  Pool.run backend (ordre [false, false, false, true, true, true, false, false, true, true])
    (poolOf deuxBaremes Db.exemple)

/-- Two replacements that cross leave the tiers of both. -/
theorem policy_mixture : ¬ ∀ (requests : Bool → Catalogue.Request) (d : Db)
    (c : Pool (sig Bool) Bool (Store Bool) Erreur Unit),
    Pool.Reach backend (Rely.condOf fun _ c s _ => Ready s c) (poolOf requests d) c →
      Unmixed requests d c.st.db := by
  intro h
  have hone : ∀ d a l, Submitted deuxBaremes Db.exemple d a l → l.length ≤ 1 := by
    intro d a l hl
    cases hl with
    | initial => exact Nat.zero_le 1
    | replaced t ownerId dto agency paliers hq ha hv =>
      cases t <;> cases hq <;> cases hv <;> exact le_refl 1
  have hmixed := (h deuxBaremes Db.exemple croises (Pool.Allowed.reach (by decide +kernel) .refl)).tiers 0
  have hlen : (croises.st.db.tiersOf 0).length = 2 := by decide +kernel
  exact absurd (hone _ _ _ hmixed) (by rw [hlen]; decide)

end OumraHajj.Refunds
