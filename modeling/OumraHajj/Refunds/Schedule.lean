import Mathlib.Data.Rat.Cast.Order
import OumraHajj.Catalogue.Service
import OumraHajj.Common.Tiers

/-!
# The schedules of the agencies

What `verifierPaliers` accepts is a coherent schedule (`Tiers.Coherent`), and so is what is read back
from the database and frozen on a booking. The rate of a confirmed booking with such a schedule is the
value of its tiers at the number of days before the departure (`eligibilite_schedule`), so it is monotone
in the date of the departure.
-/

namespace OumraHajj

open Async Catalogue

/-- The thresholds and the rates. -/
def schedule (l : List RefundPolicyTier) : List (Int × ℚ) :=
  l.map fun p => (p.minDaysBeforeDeparture, p.rate)

/-- The tiers of an agency as they are read, the highest threshold first. -/
def Db.tiersOf (s : Db) (agencyId : AgencyId) : List RefundPolicyTier :=
  (s.refundPolicyTiers.filter (·.agencyId = agencyId)).insertionSort
    fun x y => y.minDaysBeforeDeparture ≤ x.minDaysBeforeDeparture

/-- The tiers are a coherent schedule. -/
abbrev Coherent (l : List RefundPolicyTier) : Prop := Tiers.Coherent 0 (schedule l)

theorem coherent_nil : Coherent [] := ⟨.nil, fun _ hp => by cases hp⟩

theorem Coherent.sorted {l : List RefundPolicyTier} (h : Coherent l) :
    l.Pairwise fun x y => y.minDaysBeforeDeparture ≤ x.minDaysBeforeDeparture :=
  (List.pairwise_map.mp h.ordered).imp fun hxy => le_of_lt hxy.1

/-! ## What `verifierPaliers` accepts -/

theorem verifierSuite_ok {l : List RefundPolicyTierDto} {u : Unit} (h : verifierSuite l = .ok u)
    (hs : l.Pairwise fun a b => b.minDaysBeforeDeparture ≤ a.minDaysBeforeDeparture) :
    l.Pairwise fun a b =>
      b.minDaysBeforeDeparture < a.minDaysBeforeDeparture ∧ b.rate ≤ a.rate := by
  fun_induction verifierSuite l with
  | case1 a b l heq => cases h
  | case2 a b l hne hgt => cases h
  | case3 a b l hne hgt ih =>
    obtain ⟨ha, hs⟩ := List.pairwise_cons.mp hs
    have hlt : b.minDaysBeforeDeparture < a.minDaysBeforeDeparture :=
      lt_of_le_of_ne (ha b List.mem_cons_self) (Ne.symm hne)
    have hrest := ih h hs
    refine List.pairwise_cons.mpr ⟨fun c hc => ?_, hrest⟩
    rcases List.mem_cons.mp hc with rfl | hc
    · exact ⟨hlt, not_lt.mp hgt⟩
    · obtain ⟨hcb, hrate⟩ := (List.pairwise_cons.mp hrest).1 c hc
      exact ⟨lt_trans hcb hlt, le_trans hrate (not_lt.mp hgt)⟩
  | case4 l hl =>
    rcases l with _ | ⟨a, _ | ⟨b, l⟩⟩
    · exact .nil
    · exact List.pairwise_singleton _ a
    · exact absurd rfl (hl a b l)

/-- **What is accepted is coherent.** -/
theorem verifierPaliers_coherent {l paliers : List RefundPolicyTierDto} {agencyId : AgencyId}
    (h : verifierPaliers l = .ok paliers) :
    Coherent (paliers.map (RefundPolicyTierDto.row agencyId)) := by
  have hsort := List.pairwise_insertionSort (fun a b : RefundPolicyTierDto =>
    b.minDaysBeforeDeparture ≤ a.minDaysBeforeDeparture) l
  rcases hv : verifierSuite (l.insertionSort fun a b =>
      b.minDaysBeforeDeparture ≤ a.minDaysBeforeDeparture) with x | u
  · simp only [verifierPaliers, hv] at h
    cases h
  · simp only [verifierPaliers, hv] at h
    obtain rfl := Except.ok.inj h
    refine ⟨?_, ?_⟩
    · rw [schedule, List.map_map, List.pairwise_map]
      exact verifierSuite_ok hv hsort
    · intro q hq
      rw [schedule, List.map_map] at hq
      obtain ⟨p, -, rfl⟩ := List.mem_map.mp hq
      exact p.rate_nonneg

/-! ## What is read back -/

/-- The tiers of the agency are the new ones, and those of the other agencies are left. -/
theorem replaceTiers_tiersOf {s s' : Db} {agencyId : AgencyId} {data : List RefundPolicyTier}
    {u : Unit} (hc : Coherent data) (ha : ∀ p ∈ data, p.agencyId = agencyId)
    (h : replaceTiers s agencyId data = (.ok u, s')) (b : AgencyId) :
    s'.tiersOf b = if b = agencyId then data else s.tiersOf b := by
  unfold replaceTiers at h
  simp only at h
  split at h
  swap
  · cases h
  cases h
  split
  · rename_i hb
    subst hb
    have hnew : (s.refundPolicyTiers.filter (·.agencyId ≠ b) ++ data).filter (·.agencyId = b) =
        data := by
      rw [List.filter_append, List.filter_filter, List.filter_eq_nil_iff.mpr (by simp),
        List.filter_eq_self.mpr (by simpa using ha), List.nil_append]
    rw [Db.tiersOf, hnew]
    exact hc.sorted.insertionSort_eq
  · rename_i hb
    have hold : (s.refundPolicyTiers.filter (·.agencyId ≠ agencyId) ++ data).filter
        (·.agencyId = b) = s.refundPolicyTiers.filter (·.agencyId = b) := by
      rw [List.filter_append, List.filter_filter]
      have hnil : data.filter (fun p => decide (p.agencyId = b)) = [] := by
        refine List.filter_eq_nil_iff.mpr fun p hp => ?_
        simpa [ha p hp] using Ne.symm hb
      rw [hnil, List.append_nil]
      refine List.filter_congr fun p _ => ?_
      by_cases hp : p.agencyId = b
      · simpa [hp] using hb
      · simp [hp]
    rw [Db.tiersOf, hold]
    rfl

/-! ## The rate of a confirmed booking -/

/-- The refund rate of a confirmed booking, so many days before the departure. -/
def tauxConfirme (snapshot : Option Json) (jours : Int) : ℚ :=
  (eligibilite .confirmed (lirePaliers snapshot) jours).rate

/-- A schedule that a booking may have been given: none, or a coherent one. -/
def Fige (snapshot : Option Json) : Prop :=
  snapshot = none ∨ ∃ l, l ≠ [] ∧ Coherent l ∧ snapshot = some (tiersJson l)

/-- The rate does not depend on the date: there is no tier, or no tier refunds anything. -/
def Plat (snapshot : Option Json) : Prop := ∀ p ∈ lirePaliers snapshot, p.rate = 0

theorem fige_singleton (agencyId : AgencyId) (jours : Int) {rate : ℚ} (h : 0 ≤ rate) :
    Fige (some (tiersJson [⟨agencyId, jours, rate⟩])) := by
  refine .inr ⟨_, List.cons_ne_nil _ _, ⟨List.pairwise_singleton _ _, fun p hp => ?_⟩, rfl⟩
  obtain rfl := List.mem_singleton.mp hp
  exact h

theorem lirePaliers_tiersJson (l : List RefundPolicyTier) :
    lirePaliers (some (tiersJson l)) =
      l.map fun p => (⟨p.minDaysBeforeDeparture, p.rate⟩ : RefundPolicyTierShape) := by
  induction l with
  | nil => rfl
  | cons p l ih =>
    have hcons : lirePaliers (some (tiersJson (p :: l))) =
        ⟨p.minDaysBeforeDeparture, p.rate⟩ :: lirePaliers (some (tiersJson l)) := rfl
    rw [hcons, ih, List.map_cons]

theorem tauxConfirme_none (jours : Int) : tauxConfirme none jours = defaultConfirmedRate := rfl

/-- The rate with a coherent schedule is the value of its tiers. -/
theorem tauxConfirme_tiersJson {l : List RefundPolicyTier} (hne : l ≠ []) (hc : Coherent l)
    (jours : Int) :
    tauxConfirme (some (tiersJson l)) jours = Tiers.value 0 (schedule l) jours := by
  have hsort : ((l.map fun p => (⟨p.minDaysBeforeDeparture, p.rate⟩ : RefundPolicyTierShape)
      ).insertionSort fun a b => b.minDaysBeforeDeparture ≤ a.minDaysBeforeDeparture) =
      l.map fun p => ⟨p.minDaysBeforeDeparture, p.rate⟩ := by
    refine List.Pairwise.insertionSort_eq (List.pairwise_map.mpr (hc.sorted.imp fun hxy => ?_))
    exact Int.cast_le.mpr hxy
  have hlen : (l.map fun p => (⟨p.minDaysBeforeDeparture, p.rate⟩ : RefundPolicyTierShape)).length ≠ 0 := by
    simpa using hne
  unfold tauxConfirme eligibilite
  rw [lirePaliers_tiersJson, if_neg (by decide), if_neg (by decide), if_neg hlen, hsort]
  rw [Tiers.value, schedule, List.find?_map, List.find?_map]
  have hcomp : ((fun p : RefundPolicyTierShape => decide (p.minDaysBeforeDeparture ≤ (jours : ℚ))) ∘
      fun p : RefundPolicyTier => ⟨p.minDaysBeforeDeparture, p.rate⟩) =
      (fun p : Int × ℚ => decide (p.1 ≤ jours)) ∘ fun p : RefundPolicyTier =>
        (p.minDaysBeforeDeparture, p.rate) := by
    funext p
    exact decide_eq_decide.mpr Int.cast_le
  rw [hcomp]
  cases l.find? _ with
  | none => rfl
  | some p => rfl

/-! ## The date of the departure -/

theorem joursAvantDepart_eq (depart maintenant : Time) :
    joursAvantDepart depart maintenant = (depart - maintenant) / jourMs := by
  rw [joursAvantDepart, Int.fdiv_eq_ediv_of_nonneg _ (by decide)]

theorem joursAvantDepart_mono {d d' : Time} (h : d ≤ d') (t : Time) :
    joursAvantDepart d t ≤ joursAvantDepart d' t := by
  rw [joursAvantDepart_eq, joursAvantDepart_eq]
  exact Int.ediv_le_ediv (by decide) (Int.sub_le_sub_right h t)

/-- So many days before the departure, to the millisecond, an earlier departure is a day nearer. -/
theorem joursAvantDepart_jump {d d' : Time} (h : d' < d) (j : Int) :
    joursAvantDepart d (d - j * jourMs) = j ∧ joursAvantDepart d' (d - j * jourMs) ≤ j - 1 := by
  have hpos : 0 < jourMs := by decide
  rw [joursAvantDepart_eq, joursAvantDepart_eq, Int.sub_sub_self]
  have hlt : d' - (d - j * jourMs) < j * jourMs :=
    calc d' - (d - j * jourMs) < d - (d - j * jourMs) := Int.sub_lt_sub_right h _
      _ = j * jourMs := Int.sub_sub_self d _
  exact ⟨Int.mul_ediv_cancel j (ne_of_gt hpos),
    Int.le_sub_one_of_lt (Int.ediv_lt_of_lt_mul hpos hlt)⟩

/-- **When the rate is not lower**: the departure is not moved earlier, or the rate does not depend on
it. -/
theorem tauxConfirme_iff {snapshot : Option Json} (hf : Fige snapshot) {d d' : Time} :
    (∀ t, tauxConfirme snapshot (joursAvantDepart d t) ≤
        tauxConfirme snapshot (joursAvantDepart d' t)) ↔ d ≤ d' ∨ Plat snapshot := by
  rcases hf with rfl | ⟨l, hne, hc, rfl⟩
  · refine iff_of_true (fun t => ?_) (.inr fun p hp => by cases hp)
    rw [tauxConfirme_none, tauxConfirme_none]
  simp only [tauxConfirme_tiersJson hne hc]
  constructor
  · intro h
    by_contra hnot
    rw [not_or, not_le] at hnot
    obtain ⟨hlt, hplat⟩ := hnot
    obtain ⟨p, hp, hrate⟩ : ∃ p ∈ l, p.rate ≠ 0 := by
      by_contra hall
      refine hplat fun q hq => ?_
      rw [lirePaliers_tiersJson] at hq
      obtain ⟨p, hp, rfl⟩ := List.mem_map.mp hq
      exact by_contra fun hne => hall ⟨p, hp, hne⟩
    have hmem : (p.minDaysBeforeDeparture, p.rate) ∈ schedule l := List.mem_map.mpr ⟨p, hp, rfl⟩
    obtain ⟨j, hj⟩ := Tiers.exists_jump hc hmem hrate
    obtain ⟨hd, hd'⟩ := joursAvantDepart_jump hlt j
    have hle := h (d - j * jourMs)
    rw [hd] at hle
    exact absurd (hle.trans (Tiers.value_mono hc hd')) (not_le.mpr hj)
  · rintro (hle | hplat) t
    · exact Tiers.value_mono hc (joursAvantDepart_mono hle t)
    · have hconst : ∀ p ∈ schedule l, p.2 = 0 := by
        intro q hq
        obtain ⟨p, hp, rfl⟩ := List.mem_map.mp hq
        refine hplat ⟨p.minDaysBeforeDeparture, p.rate⟩ ?_
        rw [lirePaliers_tiersJson]
        exact List.mem_map.mpr ⟨p, hp, rfl⟩
      rw [Tiers.value_const hconst, Tiers.value_const hconst]

end OumraHajj
