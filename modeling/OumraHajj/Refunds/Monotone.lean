import OumraHajj.Refunds.Schedule
import OumraHajj.Spec.Creation
import OumraHajj.Spec.Packages

/-!
# From the schedule that is submitted to the rate of a booking

An agency submits its tiers in any order, `replaceForOwner` checks and stores them, and a booking
freezes what is stored. The refund rate of the booking, once it is confirmed, is then the rate of the
submitted tier with the greatest threshold that is reached, so it does not depend on the order; it is
between 0 and 1 and never goes up as the departure comes near (`schedule_monotone`).
-/

namespace OumraHajj

open Async Catalogue

/-- A schedule that is published, and a booking that freezes it. In between the schedule of the agency
is not replaced; anything else may happen. -/
structure Parcours where
  avant : Db
  publie : Db
  courant : Db
  reserve : Db
  ownerId : UserId
  dto : ReplaceRefundPolicyDto
  agencyId : AgencyId
  agency : Agency
  pilgrimId : UserId
  packageId : PackageId
  forfait : Package
  owner : avant.agencyOf ownerId = some (agencyId, agency)
  publication : ∃ shape,
    backend.Runs (RefundPolicyService.replaceForOwner ownerId dto) avant (.ok shape) publie
  inchange : courant.tiersOf agencyId = publie.tiersOf agencyId
  package : courant.packages[packageId]? = some forfait
  deLAgence : forfait.agencyId = agencyId
  reservation : ∃ shape, prisma.Runs (BookingsService.create pilgrimId packageId) courant (.ok shape) reserve

/-- The schedule of the booking. -/
def Parcours.snapshot (x : Parcours) : Option Json :=
  (x.reserve.bookings[x.courant.bookings.length]?).bind (·.refundPolicySnapshot)

/-- The refund rate of the booking once it is confirmed, so many days before the departure. -/
def Parcours.taux (x : Parcours) (jours : Int) : ℚ := tauxConfirme x.snapshot jours

/-- The rate is the one of the greatest threshold that is reached, 0 if there is none, and a half
without tiers. -/
inductive Retenu (tiers : List RefundPolicyTierDto) (jours : Int) : ℚ → Prop
  | vide (h : tiers = []) : Retenu tiers jours (1 / 2)
  | aucun (hne : tiers ≠ []) (h : ∀ p ∈ tiers, jours < p.minDaysBeforeDeparture) : Retenu tiers jours 0
  | palier {p : RefundPolicyTierDto} (hp : p ∈ tiers) (hle : p.minDaysBeforeDeparture ≤ jours)
    (hmax : ∀ q ∈ tiers, q.minDaysBeforeDeparture ≤ jours →
      q.minDaysBeforeDeparture ≤ p.minDaysBeforeDeparture) : Retenu tiers jours p.rate

/-! ## What is stored -/

/-- The order in which the tiers are checked. -/
abbrev plusLoin (a b : RefundPolicyTierDto) : Prop := b.minDaysBeforeDeparture ≤ a.minDaysBeforeDeparture

theorem verifierPaliers_ok {l paliers : List RefundPolicyTierDto} (h : verifierPaliers l = .ok paliers) :
    verifierSuite (l.insertionSort plusLoin) = .ok () ∧ paliers = l.insertionSort plusLoin ∧
      paliers.Pairwise fun a b => b.minDaysBeforeDeparture < a.minDaysBeforeDeparture := by
  have hsort := List.pairwise_insertionSort plusLoin l
  rcases hv : verifierSuite (l.insertionSort plusLoin) with x | u
  · simp only [verifierPaliers, hv] at h
    cases h
  · simp only [verifierPaliers, hv] at h
    obtain rfl := Except.ok.inj h
    exact ⟨rfl, rfl, (verifierSuite_ok hv hsort).imp fun hab => hab.1⟩

/-- Another order of what is accepted is accepted too, and gives the same tiers. -/
theorem verifierPaliers_perm {l l' paliers : List RefundPolicyTierDto} (hperm : l'.Perm l)
    (h : verifierPaliers l = .ok paliers) : verifierPaliers l' = .ok paliers := by
  obtain ⟨hv, rfl, hstrict⟩ := verifierPaliers_ok h
  have hperm' : (l'.insertionSort plusLoin).Perm (l.insertionSort plusLoin) :=
    (List.perm_insertionSort _ l').trans (hperm.trans (List.perm_insertionSort _ l).symm)
  have hkeys : ((l.insertionSort plusLoin).map (·.minDaysBeforeDeparture)).Nodup :=
    List.pairwise_map.mpr (hstrict.imp fun hlt => (ne_of_lt hlt).symm)
  have heq : l'.insertionSort plusLoin = l.insertionSort plusLoin := by
    refine List.Perm.eq_of_pairwise (fun a b ha hb hab hba => ?_) (List.pairwise_insertionSort _ l')
      (List.pairwise_insertionSort _ l) hperm'
    exact List.inj_on_of_nodup_map hkeys (hperm'.mem_iff.mp ha) hb (le_antisymm hba hab)
  show (verifierSuite (l'.insertionSort plusLoin)).map _ = _
  rw [heq, hv]
  rfl

theorem replaceForOwner_runs {s s' : Db} {ownerId : UserId} {dto : ReplaceRefundPolicyDto}
    {shape : RefundPolicyShape} {agencyId : AgencyId} {agency : Agency}
    (hagency : s.agencyOf ownerId = some (agencyId, agency))
    (h : backend.Runs (RefundPolicyService.replaceForOwner ownerId dto) s (.ok shape) s') :
    ∃ paliers, verifierPaliers dto.tiers = .ok paliers ∧
      s'.tiersOf agencyId = paliers.map (RefundPolicyTierDto.row agencyId) := by
  rcases Backend.runs_bind.mp h with ⟨agence, s₁, hown, hrest⟩ | ⟨x, -, hx⟩
  swap
  · cases hx
  obtain ⟨rfl, ⟨id, agency', ha, hshape⟩ | ⟨-, x, hx⟩⟩ := owner_runs (Catalogue.runs_left hown)
  swap
  · cases hx
  rw [ha] at hagency
  obtain ⟨rfl, rfl⟩ := Prod.mk.inj (Option.some.inj hagency)
  obtain rfl := Except.ok.inj hshape
  rcases hv : verifierPaliers dto.tiers with x | paliers
  · rw [hv] at hrest
    cases hrest.1
  rw [hv] at hrest
  refine ⟨paliers, rfl, ?_⟩
  obtain ⟨e, hrest⟩ := hrest
  have hrow : ∀ p ∈ paliers.map (RefundPolicyTierDto.row id), p.agencyId = id := by
    rintro p hp
    obtain ⟨q, -, rfl⟩ := List.mem_map.mp hp
    rfl
  have hdata : Coherent (paliers.map (RefundPolicyTierDto.row id)) := verifierPaliers_coherent hv
  have hexec : backend.exec (.inr (.refundPolicyTierReplace (toAgencyShape id agency').id
      (paliers.map (RefundPolicyTierDto.row (toAgencyShape id agency').id)))) e s₁ =
      replaceTiers s₁ id (paliers.map (RefundPolicyTierDto.row id)) := rfl
  rw [hexec] at hrest
  rcases hx : replaceTiers s₁ id (paliers.map (RefundPolicyTierDto.row id)) with ⟨x | u, s₂⟩
  · rw [hx] at hrest
    cases hrest.1
  · rw [hx] at hrest
    obtain ⟨e, -, hs⟩ := hrest
    have hs : s' = s₂ := hs
    rw [hs, replaceTiers_tiersOf hdata hrow hx, if_pos rfl]

/-! ## What is frozen -/

variable {x y : Parcours}

theorem snapshotOf_eq (s : Db) (agencyId : AgencyId) :
    s.snapshotOf agencyId =
      if s.tiersOf agencyId = [] then none else some (tiersJson (s.tiersOf agencyId)) := by
  show (if (s.tiersOf agencyId).length > 0 then some (tiersJson (s.tiersOf agencyId)) else none) = _
  rcases h : s.tiersOf agencyId with - | ⟨p, l⟩
  · rfl
  · rfl

/-- The booking freezes the tiers that were submitted, in the order of their check. -/
theorem Parcours.frozen (x : Parcours) : ∃ paliers, verifierPaliers x.dto.tiers = .ok paliers ∧
    x.snapshot = if paliers = [] then none
      else some (tiersJson (paliers.map (RefundPolicyTierDto.row x.agencyId))) := by
  obtain ⟨shape, hpublication⟩ := x.publication
  obtain ⟨paliers, hv, htiers⟩ := replaceForOwner_runs x.owner hpublication
  refine ⟨paliers, hv, ?_⟩
  obtain ⟨shape, hreservation⟩ := x.reservation
  rcases create_row hreservation with ⟨⟨e, he⟩, -⟩ | ⟨p, b, hp, -, -, hb, hreserve⟩
  · cases he
  obtain rfl := Option.some.inj (x.package.symm.trans hp)
  have hget : x.reserve.bookings[x.courant.bookings.length]? = some b := by
    rw [hreserve, Table.get_append, if_pos rfl]
  rw [Parcours.snapshot, hget, Option.bind_some, hb.snapshot, x.deLAgence, snapshotOf_eq, x.inchange,
    htiers]
  simp only [List.map_eq_nil_iff]

/-- The rate of the booking is the value of the tiers that were submitted. -/
theorem Parcours.taux_eq {paliers : List RefundPolicyTierDto} (h : verifierPaliers x.dto.tiers = .ok paliers)
    (jours : Int) :
    x.taux jours = if paliers = [] then 1 / 2
      else Tiers.value 0 (paliers.map fun p => (p.minDaysBeforeDeparture, p.rate)) jours := by
  obtain ⟨paliers', h', hsnap⟩ := x.frozen
  obtain rfl := Except.ok.inj (h.symm.trans h')
  rw [Parcours.taux, hsnap]
  split
  · rfl
  · next hne =>
    rw [tauxConfirme_tiersJson (by simpa using hne) (verifierPaliers_coherent h), schedule, List.map_map]
    rfl

/-- The rate is selected by the greatest threshold. -/
theorem Parcours.retenu {paliers : List RefundPolicyTierDto} (h : verifierPaliers x.dto.tiers = .ok paliers)
    (jours : Int) : Retenu x.dto.tiers jours (x.taux jours) := by
  obtain ⟨-, hsorted, hstrict⟩ := verifierPaliers_ok h
  have hperm : paliers.Perm x.dto.tiers := hsorted ▸ List.perm_insertionSort _ _
  rw [taux_eq h]
  split
  · next hnil =>
    rw [hnil] at hperm
    exact .vide (List.nil_perm.mp hperm)
  · next hne =>
    have hstrict' : (paliers.map fun p => (p.minDaysBeforeDeparture, p.rate)).Pairwise
        fun a b => b.1 < a.1 := List.pairwise_map.mpr hstrict
    rcases Tiers.value_cases 0 hstrict' jours with
      ⟨hnone, hvalue⟩ | ⟨q, hq, hle, hmax, hvalue⟩
    · rw [hvalue]
      refine .aucun (fun h => hne ?_) fun p hp => ?_
      · rw [h] at hperm
        exact List.perm_nil.mp hperm
      · exact hnone _ (List.mem_map.mpr ⟨p, hperm.mem_iff.mpr hp, rfl⟩)
    · obtain ⟨p, hp, rfl⟩ := List.mem_map.mp hq
      rw [hvalue]
      refine .palier (hperm.mem_iff.mp hp) hle fun r hr hrle => ?_
      exact hmax _ (List.mem_map.mpr ⟨r, hperm.mem_iff.mpr hr, rfl⟩) hrle

theorem Retenu.bounds {tiers : List RefundPolicyTierDto} {jours : Int} {taux : ℚ}
    (h : Retenu tiers jours taux) : 0 ≤ taux ∧ taux ≤ 1 := by
  cases h with
  | vide => norm_num
  | aucun => norm_num
  | @palier p => exact ⟨p.rate_nonneg, p.rate_le⟩

/-- **A refund schedule is monotone.** For a confirmed booking that has frozen the schedule that an
agency submitted, in any order: its rate is between 0 and 1, never goes up as the departure comes near,
does not depend on the order of the tiers, and is the one of the submitted tier with the greatest
threshold that is reached (0 if there is none, a half without tiers). -/
theorem schedule_monotone (x : Parcours) :
    (∀ jours, 0 ≤ x.taux jours ∧ x.taux jours ≤ 1) ∧ Monotone x.taux ∧
      (∀ y : Parcours, y.dto.tiers.Perm x.dto.tiers → y.taux = x.taux) ∧
      ∀ jours, Retenu x.dto.tiers jours (x.taux jours) := by
  obtain ⟨paliers, hv, -⟩ := x.frozen
  refine ⟨fun jours => (x.retenu hv jours).bounds, fun j j' hjj' => ?_, fun y hy => ?_, x.retenu hv⟩
  · rw [x.taux_eq hv, x.taux_eq hv]
    split
    · exact le_refl _
    · have hcoherent : Coherent (paliers.map (RefundPolicyTierDto.row x.agencyId)) :=
        verifierPaliers_coherent hv
      rw [Coherent, schedule, List.map_map] at hcoherent
      exact Tiers.value_mono hcoherent hjj'
  · funext jours
    rw [x.taux_eq hv, y.taux_eq (verifierPaliers_perm hy hv)]

/-- A tenth of the payment until the departure, and half of it until 30 days before. -/
theorem schedule_monotone_exemple : ∃ x : Parcours,
    x.dto.tiers.map (fun p => (p.minDaysBeforeDeparture, p.rate)) = [(0, 1 / 10), (30, 1 / 2)] ∧
      x.taux 30 = 1 / 2 ∧ x.taux 29 = 1 / 10 ∧ Monotone x.taux := by
  let dto : ReplaceRefundPolicyDto :=
    ⟨[⟨0, 1 / 10, by decide, by decide, by norm_num, by norm_num⟩,
      ⟨30, 1 / 2, by decide, by decide, by norm_num, by norm_num⟩], by decide⟩
  let publie := (backend.eval {} (RefundPolicyService.replaceForOwner 1 dto) .exemple).2
  have hpublication := Backend.eval_runs_ok (B := backend) (e := {})
    (p := RefundPolicyService.replaceForOwner 1 dto) (s := .exemple) (by decide +kernel)
  have hreservation := Backend.eval_runs_ok (B := prisma) (e := {}) (p := BookingsService.create 0 0)
    (s := publie) (by decide +kernel)
  have hforfait : 0 < publie.packages.length := by decide +kernel
  have hagence : ∀ h : 0 < publie.packages.length, publie.packages[0].agencyId = 0 := by decide +kernel
  let reserve := (prisma.eval {} (BookingsService.create 0 0) publie).2
  have htaux : ∀ jours ∈ [((30 : Int), (1 / 2 : ℚ)), (29, 1 / 10)], tauxConfirme
      ((reserve.bookings[publie.bookings.length]?).bind (·.refundPolicySnapshot)) jours.1 = jours.2 := by
    decide +kernel
  let x : Parcours :=
    { avant := _, publie := _, courant := _, reserve := _, ownerId := 1, dto, agencyId := 0, agency := _
      pilgrimId := 0, packageId := 0, forfait := publie.packages[0], owner := rfl
      publication := ⟨_, hpublication⟩, inchange := rfl, package := List.getElem?_eq_getElem hforfait
      deLAgence := hagence hforfait, reservation := ⟨_, hreservation⟩ }
  exact ⟨x, rfl, htaux (30, 1 / 2) (by simp), htaux (29, 1 / 10) (by simp), (schedule_monotone x).2.1⟩

end OumraHajj
