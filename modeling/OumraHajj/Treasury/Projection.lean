import OumraHajj.Services.Requests
import OumraHajj.Treasury.Schedule

/-!
# The projection of the treasury

`getTreasuryProjection` ends and loses no money: the months that it projects add up to what is not paid of
the active bookings, each month is there once, and they are in their order, which is that of their texts
for the years of four digits (`projection_conserves`).
-/

namespace OumraHajj.Treasury

open Async

/-- The instant is in a year of four digits. -/
def QuatreChiffres (t : Time) : Prop := 1000 ≤ Iso.anneeDe t ∧ Iso.anneeDe t ≤ 9999

instance (t : Time) : Decidable (QuatreChiffres t) := inferInstanceAs (Decidable (_ ∧ _))

/-- `monthKey` as a text: `2026-10`. -/
def moisTexte (k : MonthKey) : String :=
  toString k.1 ++ "-" ++ String.ofList (Iso.padStart 2 k.2.toNat)

example : moisTexte (monthKey 0) = "1970-01" := by decide +kernel

/-- What is not paid of a booking. -/
def soldeDu (s : Db) (id : BookingId) (b : Booking) : ℚ :=
  max 0 (((s.packages[b.packageId]?).map (·.price)).getD 0 - s.paidFor id)

/-- The bookings of an agency that are not cancelled. -/
def actives (s : Db) (agencyId : AgencyId) : List (BookingId × Booking) :=
  s.bookings.findMany fun b => b.agencyId = agencyId ∧ b.status ≠ .cancelled

/-- The packages of the bookings exist, and the dates are in years of four digits. -/
structure Admis (s : Db) : Prop where
  packages : ∀ b ∈ s.bookings, (s.packages[b.packageId]?).isSome = true
  departs : ∀ pkg ∈ s.packages, QuatreChiffres pkg.startDate
  plans : ∀ plan ∈ s.savingsPlans, ∀ t ∈ plan.nextDeductDate, QuatreChiffres t

/-- The loop over the dates of the plan of a booking ends, with what the bounded loop returns. -/
def Termine (row : CollectedRow) : Prop :=
  ∀ deductAmount nextDeductDate frequency,
    activePlan row.savingsPlan = some (deductAmount, nextDeductDate, frequency) → ∀ m, ∃ y,
      While (EnCours row.package.startDate) (tour deductAmount frequency)
        ⟨row.treasuryBalance, nextDeductDate, m⟩ y ∧
      etaler deductAmount frequency row.package.startDate (turns row.package.startDate nextDeductDate)
        row.treasuryBalance nextDeductDate m = (y.currentBalance, y.projectionsMap)

/-- The projection loses no money, and its months are distinct and in order. -/
structure Conserve (s : Db) (agencyId : AgencyId) (p : TreasuryProjectionShape) : Prop where
  somme : (p.projections.map (·.expectedAmount)).sum = p.outstandingBalance
  solde : p.outstandingBalance = ((actives s agencyId).map fun x => soldeDu s x.1 x.2).sum
  mois : p.projections.Pairwise fun a b => Avant a.month b.month
  textes : p.projections.Pairwise fun a b => moisTexte a.month < moisTexte b.month

/-! ## The text of a month -/

theorem annee_mono {t t' : Time} (h : t ≤ t') : Iso.anneeDe t ≤ Iso.anneeDe t' := by
  have hmois := moisDe_mono (jourDe_mono h)
  have h₁ := civilFromDays_mois (jourDe t)
  have h₂ := civilFromDays_mois (jourDe t')
  unfold moisDe at hmois
  unfold Iso.anneeDe
  omega

theorem quatreChiffres_of_between {t u v : Time} (hu : QuatreChiffres u) (hv : QuatreChiffres v)
    (h₁ : u ≤ t) (h₂ : t ≤ v) : QuatreChiffres t :=
  ⟨hu.1.trans (annee_mono h₁), (annee_mono h₂).trans hv.2⟩

/-- A number of `k` digits has `k` digits. -/
theorem length_padStart {k n : Nat} (hk : 0 < k) (h : n < 10 ^ k) : (Iso.padStart k n).length = k := by
  unfold Iso.padStart
  have hle := (Nat.length_toDigits_le_iff (b := 10) (by decide) hk).mpr h
  rw [List.length_leftpad, Nat.max_eq_left hle]

theorem ofDigitChars_padStart (k n : Nat) : Nat.ofDigitChars 10 (Iso.padStart k n) 0 = n := by
  unfold Iso.padStart List.leftpad
  rw [Nat.ofDigitChars_append, Nat.ofDigitChars_replicate_zero, Nat.mul_zero,
    Nat.ofDigitChars_ten_toDigits]

theorem padStart_lt_iff {k m n : Nat} (hk : 0 < k) (hm : m < 10 ^ k) (hn : n < 10 ^ k) :
    Iso.padStart k m < Iso.padStart k n ↔ m < n := by
  have h := ofDigitChars_lt_iff ((length_padStart hk hm).trans (length_padStart hk hn).symm)
    (fun c hc => Iso.isDigit_padStart hc) (fun c hc => Iso.isDigit_padStart hc) 0 0
  rw [ofDigitChars_padStart, ofDigitChars_padStart] at h
  simpa using h.symm

/-- A number of four digits is not padded. -/
theorem toDigits_eq_padStart {n : Nat} (h : 1000 ≤ n) : Nat.toDigits 10 n = Iso.padStart 4 n := by
  have hlen : ¬ (Nat.toDigits 10 n).length ≤ 3 := fun hle =>
    absurd ((Nat.length_toDigits_le_iff (by decide) (by decide)).mp hle) (not_lt.mpr h)
  have hpad : 4 - (Nat.toDigits 10 n).length = 0 := by omega
  unfold Iso.padStart List.leftpad
  rw [hpad]
  rfl

theorem moisTexte_toList {t : Time} (ht : QuatreChiffres t) : (moisTexte (monthKey t)).toList =
    Iso.padStart 4 (Iso.anneeDe t).toNat ++ '-' :: Iso.padStart 2 (monthKey t).2.toNat := by
  have hannee : (toString (monthKey t).1).toList = Iso.padStart 4 (Iso.anneeDe t).toNat := by
    have hy : 1000 ≤ (Iso.anneeDe t).toNat := by
      have := ht.1
      omega
    show (toString (Iso.anneeDe t)).toList = _
    rw [toString_toList, if_pos (by have := ht.1; omega), toDigits_eq_padStart hy]
  unfold moisTexte
  simp only [String.toList_append, String.toList_ofList, hannee, List.append_assoc]
  rfl

/-- **The order of the months is that of their texts.** -/
theorem moisTexte_lt {t t' : Time} (ht : QuatreChiffres t) (ht' : QuatreChiffres t')
    (h : Avant (monthKey t) (monthKey t')) : moisTexte (monthKey t) < moisTexte (monthKey t') := by
  have hm : (monthKey t).2 ≤ 12 ∧ 1 ≤ (monthKey t).2 := (civilFromDays_mois (jourDe t)).symm
  have hm' : (monthKey t').2 ≤ 12 ∧ 1 ≤ (monthKey t').2 := (civilFromDays_mois (jourDe t')).symm
  have hlen := (length_padStart (k := 4) (n := (Iso.anneeDe t).toNat) (by decide)
    (by have := ht.2; omega)).trans
      (length_padStart (n := (Iso.anneeDe t').toNat) (by decide) (by have := ht'.2; omega)).symm
  rw [String.lt_iff, moisTexte_toList ht, moisTexte_toList ht', append_lt_append_iff hlen]
  rcases h with hlt | ⟨heq, hlt⟩
  · have hannee : Iso.anneeDe t < Iso.anneeDe t' := hlt
    refine .inl ((padStart_lt_iff (by decide) ?_ ?_).mpr ?_)
    · have := ht.2
      omega
    · have := ht'.2
      omega
    · have := ht.1
      omega
  · have hannee : Iso.anneeDe t = Iso.anneeDe t' := heq
    rw [hannee]
    refine .inr ⟨rfl, List.cons_lt_cons_iff.mpr (.inr ⟨rfl, ?_⟩)⟩
    exact (padStart_lt_iff (by decide) (by omega) (by omega)).mpr (by omega)

/-! ## The loop over the bookings -/

section Runs

variable {ok : Env → Prop} {s s' : Db}

/-- **The projections of the bookings**, one after the other: what each adds to the months. -/
theorem ajouterReservations_of {Q : CollectedRow → List (MonthKey × ℚ) → Prop}
    (hQ : ∀ {row m s r s'}, (prisma.restrict ok).Runs (PaymentsService.projeter row m) s r s' →
      ∃ l, Q row l ∧ r = .ok (ajouter m l)) (rows : List CollectedRow) {t : TreasuryTotals}
    {r : Except Erreur TreasuryTotals}
    (h : (prisma.restrict ok).Runs (List.foldlM PaymentsService.ajouterReservation t rows) s r s') :
    ∃ t' ls, r = .ok t' ∧ List.Forall₂ Q rows ls ∧
      t'.outstandingBalance = t.outstandingBalance + (rows.map (·.treasuryBalance)).sum ∧
      t'.projectionsMap = ajouter t.projectionsMap ls.flatten := by
  induction rows generalizing t s with
  | nil =>
    obtain ⟨h, -⟩ := h
    exact ⟨t, [], h, .nil, by simp, rfl⟩
  | cons row rows ih =>
    rw [List.foldlM_cons] at h
    rcases Backend.runs_bind.mp h with ⟨t₁, s₁, h₁, h₂⟩ | ⟨x, h₁, -⟩
    · rcases Backend.runs_bind.mp h₁ with ⟨m, s₂, hm, hr⟩ | ⟨x, -, hx⟩
      swap
      · cases hx
      obtain ⟨l, hl, hmap⟩ := hQ hm
      obtain ⟨t', ls, rfl, hls, hsum, hmap'⟩ := ih h₂
      rw [Except.ok.inj hr.1] at hsum hmap'
      refine ⟨t', l :: ls, rfl, .cons hl hls, ?_, ?_⟩
      · rw [hsum, List.map_cons, List.sum_cons, add_assoc]
      · rw [hmap', List.flatten_cons, ajouter_append, Except.ok.inj hmap]
    · rcases Backend.runs_bind.mp h₁ with ⟨m, s₂, -, hr⟩ | ⟨x', hm, -⟩
      · cases hr.1
      · obtain ⟨_, -, hmap⟩ := hQ hm
        cases hmap

/-- What the projection is made of. -/
theorem projection_of {Q : CollectedRow → List (MonthKey × ℚ) → Prop}
    (hQ : ∀ {row m s r s'}, (prisma.restrict ok).Runs (PaymentsService.projeter row m) s r s' →
      ∃ l, Q row l ∧ r = .ok (ajouter m l)) {ownerId : UserId} {agencyId : AgencyId} {agency : Agency}
    (ha : s.agencyOf ownerId = some (agencyId, agency)) {r : Except Erreur TreasuryProjectionShape}
    (h : (prisma.restrict ok).Runs (PaymentsService.getTreasuryProjection ownerId) s r s') :
    ∃ p ls, r = .ok p ∧ List.Forall₂ Q (s.treasuryRows agencyId) ls ∧
      p.outstandingBalance = ((s.treasuryRows agencyId).map (·.treasuryBalance)).sum ∧
      p.projections = ((ajouter [] ls.flatten).map fun (month, expectedAmount) =>
        (⟨month, expectedAmount⟩ : TreasuryMonthShape)).insertionSort
          fun a b => a.month.1 < b.month.1 ∨ (a.month.1 = b.month.1 ∧ a.month.2 ≤ b.month.2) := by
  obtain ⟨e, h⟩ := h
  have hanswer : ((prisma.restrict ok).exec (.agencyFindUnique ownerId) e s).1 =
    some (agencyId, agency) := ha
  rw [hanswer] at h
  obtain ⟨e', h⟩ := h
  rcases (Backend.runs_bind (p := List.foldlM PaymentsService.ajouterReservation {}
    (s.treasuryRows agencyId))).mp h with ⟨t, s₁, hloop, hret, -⟩ | ⟨x, hloop, -⟩
  · obtain ⟨t', ls, ht, hls, hsum, hmap⟩ := ajouterReservations_of hQ _ hloop
    obtain rfl := Except.ok.inj ht
    refine ⟨_, ls, hret, hls, hsum.trans (zero_add _), ?_⟩
    rw [hmap]
  · obtain ⟨t', _, ht, -⟩ := ajouterReservations_of hQ _ hloop
    cases ht

/-- It is made of the instalments of the bookings. -/
theorem projection_runs (hok : ∃ e, ok e) {ownerId : UserId} {agencyId : AgencyId} {agency : Agency}
    (ha : s.agencyOf ownerId = some (agencyId, agency)) {r : Except Erreur TreasuryProjectionShape}
    (h : (prisma.restrict ok).Runs (PaymentsService.getTreasuryProjection ownerId) s r s') :
    ∃ p ls, r = .ok p ∧
      List.Forall₂ (fun row l => ∃ e, ok e ∧ Echeances row e.now l) (s.treasuryRows agencyId) ls ∧
      p.outstandingBalance = ((s.treasuryRows agencyId).map (·.treasuryBalance)).sum ∧
      p.projections = ((ajouter [] ls.flatten).map fun (month, expectedAmount) =>
        (⟨month, expectedAmount⟩ : TreasuryMonthShape)).insertionSort
          fun a b => a.month.1 < b.month.1 ∨ (a.month.1 = b.month.1 ∧ a.month.2 ≤ b.month.2) := by
  refine projection_of (fun {row m s r s'} hrow => ?_) ha h
  obtain ⟨-, e, he, l, hl, hmap⟩ := projeter_runs hok hrow
  exact ⟨l, ⟨e, he, hl⟩, hmap⟩

end Runs

/-! ## The sum and the order -/

/-- The rows of the treasury are those of the active bookings. -/
theorem treasuryRows_sum {s : Db} (hs : Admis s) (agencyId : AgencyId) :
    ((s.treasuryRows agencyId).map (·.treasuryBalance)).sum =
      ((actives s agencyId).map fun x => soldeDu s x.1 x.2).sum := by
  have hpackages : ∀ x ∈ s.bookings.withIds, (s.packages[x.2.packageId]?).isSome = true :=
    fun x hx => hs.packages x.2 (List.mem_of_getElem? (Table.mem_withIds.mp hx))
  unfold Db.treasuryRows Db.collectedRows actives Table.findMany
  revert hpackages
  induction s.bookings.withIds with
  | nil => exact fun _ => rfl
  | cons x l ih =>
    intro hpackages
    obtain ⟨id, b⟩ := x
    have hl := ih fun y hy => hpackages y (List.mem_cons_of_mem _ hy)
    obtain ⟨pkg, hpkg⟩ := Option.isSome_iff_exists.mp (hpackages _ List.mem_cons_self)
    rw [List.filterMap_cons, List.filter_cons]
    simp only [hpkg]
    by_cases hb : b.agencyId = agencyId ∧ b.status ≠ .cancelled
    · rw [if_pos (by simpa using hb), if_pos (by simpa using hb), List.map_cons, List.sum_cons,
        List.map_cons, List.sum_cons, hl]
      congr 1
      unfold CollectedRow.treasuryBalance soldeDu
      rw [Db.collected_eq, hpkg]
      rfl
    · rw [if_neg (by simpa using hb), if_neg (by simpa using hb)]
      exact hl

/-- The order in which the months are sorted. -/
def Trie (a b : TreasuryMonthShape) : Prop :=
  a.month.1 < b.month.1 ∨ (a.month.1 = b.month.1 ∧ a.month.2 ≤ b.month.2)

instance : DecidableRel Trie := fun _ _ => inferInstanceAs (Decidable (_ ∨ _))

instance : Std.Total Trie := ⟨fun a b => by unfold Trie; omega⟩

instance : IsTrans TreasuryMonthShape Trie := ⟨fun a b c => by unfold Trie; omega⟩

/-- The entries of the map with their months, sorted. -/
def mois (m : ProjectionsMap) : List TreasuryMonthShape :=
  (m.map fun (month, expectedAmount) => (⟨month, expectedAmount⟩ : TreasuryMonthShape)).insertionSort
    fun a b => a.month.1 < b.month.1 ∨ (a.month.1 = b.month.1 ∧ a.month.2 ≤ b.month.2)

theorem mois_perm (m : ProjectionsMap) :
    (mois m).Perm (m.map fun e => ⟨e.1, e.2⟩) := List.perm_insertionSort _ _

theorem mois_somme (m : ProjectionsMap) : ((mois m).map (·.expectedAmount)).sum = total m := by
  rw [((mois_perm m).map _).sum_eq, List.map_map]
  rfl

theorem mois_avant {m : ProjectionsMap} (h : (m.map Prod.fst).Nodup) :
    (mois m).Pairwise fun a b => Avant a.month b.month := by
  have hsorted : (mois m).Pairwise Trie := List.pairwise_insertionSort Trie _
  have hdistinct : (mois m).Pairwise fun a b => a.month ≠ b.month := by
    have hnodup : ((mois m).map (·.month)).Nodup := by
      rw [((mois_perm m).map _).nodup_iff, List.map_map]
      exact h
    exact List.pairwise_map.mp hnodup
  refine (hsorted.and hdistinct).imp ?_
  rintro a b ⟨hlt | ⟨heq, hle⟩, hne⟩
  · exact .inl hlt
  · exact .inr ⟨heq, lt_of_le_of_ne hle fun hmois => hne (Prod.ext heq hmois)⟩

/-! ## The dates -/

theorem effectiveDate_quatre {due maintenant fin : Time} (h : QuatreChiffres maintenant)
    (hfin : QuatreChiffres fin) (hdue : due ≤ fin) : QuatreChiffres (effectiveDate due maintenant) := by
  unfold effectiveDate
  split
  · exact h
  · next hle => exact quatreChiffres_of_between h hfin (not_lt.mp hle) hdue

/-- The instalments of a booking are in years of four digits. -/
theorem echeance_quatre {s : Db} (hs : Admis s) {agencyId : AgencyId} {row : CollectedRow}
    (hrow : row ∈ s.treasuryRows agencyId) {maintenant t : Time} (h : QuatreChiffres maintenant)
    (h₁ : premiereEcheance row maintenant ≤ t) (h₂ : t ≤ derniereEcheance row maintenant) :
    QuatreChiffres t := by
  obtain ⟨id, b, pkg, -, hpkg, -, rfl⟩ := Db.mem_collectedRows.mp hrow
  have hdepart : QuatreChiffres pkg.startDate := hs.departs pkg (List.mem_of_getElem? hpkg)
  have hdue : balanceDueDate pkg.startDate ≤ pkg.startDate :=
    Int.add_le_of_le_sub_left (by rw [Int.sub_self]; decide)
  unfold premiereEcheance at h₁
  unfold derniereEcheance at h₂
  split at h₁
  · next next _ hplan =>
    rw [hplan] at h₂
    obtain ⟨plan, hmem, -, hnext⟩ := activePlan_amount hplan
    obtain ⟨x, hx, rfl⟩ := Option.map_eq_some_iff.mp hmem
    have hplan' := hs.plans x.2 (List.mem_of_getElem? (Table.findFirst_eq_some_iff.mp hx).1) next hnext
    have hfirst : QuatreChiffres (min next pkg.startDate) := by
      rcases min_choice next pkg.startDate with hmin | hmin
      · rw [hmin]
        exact hplan'
      · rw [hmin]
        exact hdepart
    exact quatreChiffres_of_between hfirst hdepart h₁ h₂
  · next hplan =>
    rw [hplan] at h₂
    have hdate := effectiveDate_quatre h hdepart hdue
    exact quatreChiffres_of_between hdate hdate h₁ h₂

/-- The instalments of the bookings, all together. -/
theorem sum_flatten {ok : Env → Prop} {rows : List CollectedRow} {ls : List (List (MonthKey × ℚ))}
    (h : List.Forall₂ (fun row l => ∃ e, ok e ∧ Echeances row e.now l) rows ls) :
    (ls.flatten.map Prod.snd).sum = (rows.map (·.treasuryBalance)).sum := by
  induction h with
  | nil => rfl
  | cons hl _ ih =>
    obtain ⟨e, -, hl⟩ := hl
    rw [List.flatten_cons, List.map_append, List.sum_append, hl.somme, ih, List.map_cons, List.sum_cons]

/-- An instalment of the bookings is one of a booking. -/
theorem mem_flatten {ok : Env → Prop} {rows : List CollectedRow} {ls : List (List (MonthKey × ℚ))}
    (h : List.Forall₂ (fun row l => ∃ e, ok e ∧ Echeances row e.now l) rows ls) {x : MonthKey × ℚ}
    (hx : x ∈ ls.flatten) : ∃ row ∈ rows, ∃ e, ok e ∧ ∃ l, Echeances row e.now l ∧ x ∈ l := by
  induction h with
  | nil => cases hx
  | cons hl _ ih =>
    rcases List.mem_append.mp hx with hx | hx
    · obtain ⟨e, he, hl⟩ := hl
      exact ⟨_, List.mem_cons_self, e, he, _, hl, hx⟩
    · obtain ⟨row, hrow, h⟩ := ih hx
      exact ⟨row, List.mem_cons_of_mem _ hrow, h⟩

theorem mem_mois {m : ProjectionsMap} {a : TreasuryMonthShape} :
    a ∈ mois m ↔ (a.month, a.expectedAmount) ∈ m := by
  rw [(mois_perm m).mem_iff, List.mem_map]
  constructor
  · rintro ⟨e, he, rfl⟩
    exact he
  · exact fun h => ⟨_, h, rfl⟩

/-! ## The projection -/

/-- The clock is in years of four digits. -/
abbrev horloge : Backend prismaSig Db {e : Env // QuatreChiffres e.now} :=
  prisma.restrict fun e => QuatreChiffres e.now

/-- **The projection of the treasury ends and loses no money** (module doc). -/
theorem projection_conserves {s : Db} (hs : Admis s) {ownerId : UserId} {agencyId : AgencyId}
    {agency : Agency} (ha : s.agencyOf ownerId = some (agencyId, agency)) :
    (∀ row ∈ s.treasuryRows agencyId, Termine row) ∧
      (∃ r s', horloge.Runs (PaymentsService.getTreasuryProjection ownerId) s r s') ∧
      ∀ r s', horloge.Runs (PaymentsService.getTreasuryProjection ownerId) s r s' →
        ∃ p, r = .ok p ∧ Conserve s agencyId p := by
  have hclock : QuatreChiffres ({} : Env).now := by decide
  refine ⟨fun row _ deductAmount next frequency _ m => etaler_while ⟨row.treasuryBalance, next, m⟩,
    ⟨_, _, Backend.eval_runs ⟨{}, hclock⟩ _ s⟩, fun r s' h => ?_⟩
  obtain ⟨p, ls, rfl, hls, hsolde, hprojections⟩ := projection_runs ⟨{}, hclock⟩ ha h
  have hmois : p.projections = mois (ajouter [] ls.flatten) := hprojections
  have hnodup : ((ajouter [] ls.flatten).map Prod.fst).Nodup := nodup_ajouter List.nodup_nil
  have hdates : ∀ a ∈ p.projections, ∃ t, QuatreChiffres t ∧ a.month = monthKey t := fun a ha => by
    rw [hmois, mem_mois] at ha
    have hkey := mem_keys_ajouter.mp (List.mem_map_of_mem (f := Prod.fst) ha)
    obtain ⟨x, hx, hfst⟩ := List.mem_map.mp (hkey.resolve_left (by simp))
    obtain ⟨row, hrow, e, he, l, hl, hxl⟩ := mem_flatten hls hx
    obtain ⟨t, h₁, h₂, hkey⟩ := hl.dates x hxl
    exact ⟨t, echeance_quatre hs hrow he h₁ h₂, hfst.symm.trans hkey⟩
  refine ⟨p, rfl, ⟨?_, hsolde.trans (treasuryRows_sum hs agencyId), ?_, ?_⟩⟩
  · rw [hmois, mois_somme, total_ajouter, hsolde, sum_flatten hls]
    exact zero_add _
  · rw [hmois]
    exact mois_avant hnodup
  · have havant := hmois ▸ mois_avant hnodup
    refine havant.imp_of_mem fun {a b} ha hb hab => ?_
    obtain ⟨t, ht, hat⟩ := hdates a ha
    obtain ⟨t', ht', hbt⟩ := hdates b hb
    rw [hat, hbt] at hab ⊢
    exact moisTexte_lt ht ht' hab

/-- A booking with a savings plan of 30 a month, whose departure is 90 days after the first date. -/
private def epargne : Db :=
  { Db.exemple with
    packages := Db.exemple.packages.map fun p => { p with startDate := 90 * jourMs }
    bookings := [Booking.exemple]
    savingsPlans :=
      [{ bookingId := 0, targetAmount := 100, autoDeduct := true, deductAmount := some 30
         frequency := some "monthly", nextDeductDate := some 0 }] }

private theorem epargne_admis : Admis epargne :=
  ⟨by decide +kernel, by decide +kernel, by decide +kernel⟩

theorem projection_conserves_exemple : ∃ p s',
    horloge.Runs (PaymentsService.getTreasuryProjection 1) epargne (.ok p) s' ∧ Conserve epargne 0 p := by
  obtain ⟨-, ⟨r, s', hrun⟩, hall⟩ := @projection_conserves _ epargne_admis 1 _ _ rfl
  obtain ⟨p, rfl, hp⟩ := hall r s' hrun
  exact ⟨p, s', hrun, hp⟩

end OumraHajj.Treasury
