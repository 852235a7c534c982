import OumraHajj.Common.Sorted
import OumraHajj.Spec.Billing
import OumraHajj.Spec.Creation

/-!
# The journal in parts

A journal cut between two days is the journal of the first days followed by that of the others
(`journal_additive`). The entries of a period are those of all payments of the agency with a date in
it (`ecritures_eq`), so a cut is one of the entries by their date, and a stable sort makes the same
cut (`Sorted.insertionSort_split`). Amounts in hundredths add up without rounding.
-/

namespace OumraHajj

open Async

variable {s s' : Db} {ownerId : UserId} {agencyId : AgencyId} {debut finExclue coupe : Time}

/-- The amounts of the payments have at most two decimals. -/
def Db.Cents (s : Db) : Prop :=
  ∀ p ∈ s.payments, TwoDecimals p.amount ∧ ∀ x ∈ p.refundedAmount, TwoDecimals x

/-! ## The entries of a period -/

/-- The row of a payment in the journal of an agency. -/
def Db.ligne (s : Db) (agencyId : AgencyId) (x : PaymentId × Payment) : Option JournalRow :=
  (s.bookings[x.2.bookingId]?).bind fun b =>
    if b.agencyId = agencyId then
      (s.users[b.pilgrimId]?).bind fun u =>
      (s.packages[b.packageId]?).map fun pkg => ⟨x.1, x.2, u.fullName, pkg.title⟩
    else none

theorem ligne_payment {x : PaymentId × Payment} {r : JournalRow} (h : s.ligne agencyId x = some r) :
    r.payment = x.2 := by
  obtain ⟨b, -, h⟩ := Option.bind_eq_some_iff.mp h
  split at h
  · obtain ⟨u, -, h⟩ := Option.bind_eq_some_iff.mp h
    obtain ⟨pkg, -, rfl⟩ := Option.map_eq_some_iff.mp h
    rfl
  · cases h

/-- The entries of all payments of the agency that are in the period. -/
def Db.ecritures (s : Db) (agencyId : AgencyId) (debut finExclue : Time) :
    List AccountingEntryShape :=
  rawEntries debut finExclue (s.payments.withIds.filterMap (s.ligne agencyId))

theorem encEntry_nil {r : JournalRow} (h : Db.dansPeriode debut finExclue r.payment.confirmedAt = false) :
    encEntry debut finExclue r = [] := by
  unfold encEntry
  split
  · next date hdate =>
    rw [hdate] at h
    exact if_neg fun hin => by rw [dansPeriode_some.mpr hin] at h; cases h
  · rfl

theorem remEntry_nil {r : JournalRow} (h : Db.dansPeriode debut finExclue r.payment.refundedAt = false) :
    remEntry debut finExclue r = [] := by
  unfold remEntry
  split
  · next date montant hdate _ =>
    rw [hdate] at h
    exact if_neg fun hin => by rw [dansPeriode_some.mpr hin.2] at h; cases h
  · rfl

/-- The payment has a date in the period. -/
def datee (debut finExclue : Time) (x : PaymentId × Payment) : Bool :=
  Db.dansPeriode debut finExclue x.2.confirmedAt || Db.dansPeriode debut finExclue x.2.refundedAt

/-- The rows that the query leaves out have no entry in the period. -/
theorem ecritures_eq (s : Db) (agencyId : AgencyId) (debut finExclue : Time) :
    rawEntries debut finExclue (s.journalRows agencyId debut finExclue) =
      s.ecritures agencyId debut finExclue := by
  show rawEntries _ _ ((s.payments.withIds.filter (datee debut finExclue)).filterMap
    (s.ligne agencyId)) = _
  unfold Db.ecritures rawEntries
  induction s.payments.withIds with
  | nil => rfl
  | cons x l ih =>
    by_cases hx : datee debut finExclue x = true
    · rw [List.filter_cons_of_pos hx]
      rcases hr : s.ligne agencyId x with - | r
      · rw [List.filterMap_cons_none hr, List.filterMap_cons_none hr, ih]
      · rw [List.filterMap_cons_some hr, List.filterMap_cons_some hr, List.flatMap_cons,
          List.flatMap_cons, ih]
    · rw [List.filter_cons_of_neg hx, ih]
      rcases hr : s.ligne agencyId x with - | r
      · rw [List.filterMap_cons_none hr]
      · rw [datee, Bool.or_eq_true, not_or, Bool.not_eq_true, Bool.not_eq_true,
          ← ligne_payment hr] at hx
        rw [List.filterMap_cons_some hr, List.flatMap_cons, encEntry_nil hx.1, remEntry_nil hx.2,
          List.nil_append, List.nil_append]

/-! ## The cut -/

section Cut

variable {debut' finExclue' : Time} {P : Time → Bool}

/-- The one entry of a date, selected again. -/
theorem filter_ite {α : Type} {e : α} {Q : α → Bool} {A B : Prop} [Decidable A] [Decidable B]
    (h : B ↔ A ∧ Q e = true) : (if A then [e] else []).filter Q = if B then [e] else [] := by
  by_cases hA : A
  · rw [if_pos hA]
    by_cases hQ : Q e = true
    · rw [if_pos (h.mpr ⟨hA, hQ⟩), List.filter_cons_of_pos hQ, List.filter_nil]
    · rw [if_neg fun hB => hQ (h.mp hB).2, List.filter_cons_of_neg hQ, List.filter_nil]
  · rw [if_neg hA, if_neg fun hB => hA (h.mp hB).1, List.filter_nil]

theorem encEntry_filter
    (h : ∀ t, (debut' ≤ t ∧ t < finExclue') ↔ (debut ≤ t ∧ t < finExclue) ∧ P t = true)
    (r : JournalRow) :
    (encEntry debut finExclue r).filter (fun e => P e.date) = encEntry debut' finExclue' r := by
  unfold encEntry
  split
  · next date _ => exact filter_ite (h date)
  · rfl

theorem remEntry_filter
    (h : ∀ t, (debut' ≤ t ∧ t < finExclue') ↔ (debut ≤ t ∧ t < finExclue) ∧ P t = true)
    (r : JournalRow) :
    (remEntry debut finExclue r).filter (fun e => P e.date) = remEntry debut' finExclue' r := by
  unfold remEntry
  split
  · next date montant _ _ => exact filter_ite (by rw [h date]; exact and_assoc.symm)
  · rfl

/-- What is selected by its date is what a shorter period has. -/
theorem ecritures_filter
    (h : ∀ t, (debut' ≤ t ∧ t < finExclue') ↔ (debut ≤ t ∧ t < finExclue) ∧ P t = true) :
    (s.ecritures agencyId debut finExclue).filter (fun e => P e.date) =
      s.ecritures agencyId debut' finExclue' := by
  unfold Db.ecritures rawEntries
  rw [List.filter_flatMap]
  refine List.flatMap_congr fun r _ => ?_
  rw [List.filter_append, encEntry_filter h, remEntry_filter h]

/-- **The cut of the entries.** -/
theorem ecritures_cut (hd : debut ≤ coupe) (hf : coupe ≤ finExclue) :
    (s.ecritures agencyId debut finExclue).insertionSort (fun a b => a.date ≤ b.date) =
      (s.ecritures agencyId debut coupe).insertionSort (fun a b => a.date ≤ b.date) ++
        (s.ecritures agencyId coupe finExclue).insertionSort fun a b => a.date ≤ b.date := by
  have hbefore : ∀ t, (debut ≤ t ∧ t < coupe) ↔
      (debut ≤ t ∧ t < finExclue) ∧ decide (t < coupe) = true := by
    intro t
    rw [decide_eq_true_eq]
    exact ⟨fun ⟨h₁, h₂⟩ => ⟨⟨h₁, lt_of_lt_of_le h₂ hf⟩, h₂⟩, fun ⟨⟨h₁, _⟩, h₂⟩ => ⟨h₁, h₂⟩⟩
  have hafter : ∀ t, (coupe ≤ t ∧ t < finExclue) ↔
      (debut ≤ t ∧ t < finExclue) ∧ (!decide (t < coupe)) = true := by
    intro t
    rw [Bool.not_eq_true', decide_eq_false_iff_not, not_lt]
    exact ⟨fun ⟨h₁, h₂⟩ => ⟨⟨hd.trans h₁, h₂⟩, h₁⟩, fun ⟨⟨_, h₂⟩, h₁⟩ => ⟨h₁, h₂⟩⟩
  rw [← ecritures_filter hbefore, ← ecritures_filter hafter]
  refine Sorted.insertionSort_split (fun x y hx hy => ?_) _
  rw [decide_eq_true_eq] at hx
  rw [decide_eq_false_iff_not, not_lt] at hy
  exact ⟨(hx.trans_le hy).le, not_le.mpr (hx.trans_le hy)⟩

end Cut

/-! ## The journal -/

/-- What the journal of a period says. -/
structure Journal (s : Db) (agencyId : AgencyId) (j : AccountingExportShape) : Prop where
  entries : j.entries = (s.ecritures agencyId (minuit j.from) (minuit j.«to» + jourMs)).insertionSort
    fun a b => a.date ≤ b.date
  collected : j.totalCollected = arrondi (j.entries.map (·.debit)).sum
  refunded : j.totalRefunded = arrondi (j.entries.map (·.credit)).sum
  net : j.net = arrondi (j.totalCollected - j.totalRefunded)

/-- A period is admitted. -/
def Admise (debut fin : Int) : Prop := 0 ≤ fin - debut ∧ fin - debut < periodeMaxJours

/-- The period is the one asked for, where a day is given, and it is admitted. -/
theorem periode_runs {query : AccountingExportQueryDto} {r : Except Erreur (Int × Int)}
    (h : prisma.Runs (AccountingExportService.periode query) s r s') :
    s' = s ∧ ∃ debut fin, (∀ x ∈ query.from, debut = x) ∧ (∀ x ∈ query.«to», fin = x) ∧
      ((∃ x, r = .error x) ∧ ¬ Admise debut fin ∨ r = .ok (debut, fin) ∧ Admise debut fin) := by
  refine ⟨state_of_uses (uses_periode query) h, ?_⟩
  obtain ⟨e, h⟩ := h
  refine ⟨query.from.getD (premierDuMois e.now), query.«to».getD (jourDe e.now), ?_, ?_, ?_⟩
  · intro x hx
    rw [Option.mem_def.mp hx, Option.getD_some]
  · intro x hx
    rw [Option.mem_def.mp hx, Option.getD_some]
  change prisma.Runs (ite _ _ (ite _ _ _)) _ _ _ at h
  split at h
  · next hneg => exact .inl ⟨⟨_, h.1⟩, fun hadmise => absurd hadmise.1 (not_le.mpr hneg)⟩
  · next hpos =>
    split at h
    · next hlong => exact .inl ⟨⟨_, h.1⟩, fun hadmise => absurd hadmise.2 (not_lt.mpr hlong)⟩
    · next hshort => exact .inr ⟨h.1, not_lt.mp hpos, not_le.mp hshort⟩

/-- The journal of the agency of the caller, over the period of the query. -/
theorem getJournal_journal {query : AccountingExportQueryDto} {r : Except Erreur AccountingExportShape}
    {agency : Agency} (hagency : s.agencyOf ownerId = some (agencyId, agency))
    (h : prisma.Runs (AccountingExportService.getJournal ownerId query) s r s') :
    ∃ debut fin, (∀ x ∈ query.from, debut = x) ∧ (∀ x ∈ query.«to», fin = x) ∧
      ((∃ x, r = .error x) ∧ ¬ Admise debut fin ∨
        ∃ j, r = .ok j ∧ Admise debut fin ∧ Journal s agencyId j ∧ j.from = debut ∧ j.«to» = fin) := by
  rcases Backend.runs_bind.mp h with ⟨shape, s₁, hown, hrest⟩ | ⟨x, hown, rfl⟩
  swap
  · rcases (owner_runs hown).2 with ⟨id, agency', -, hx⟩ | ⟨hnone, -⟩
    · cases hx
    · rw [hnone] at hagency
      cases hagency
  obtain ⟨rfl, ⟨id, agency', ha, hshape⟩ | ⟨-, x, hx⟩⟩ := owner_runs hown
  swap
  · cases hx
  rw [ha] at hagency
  obtain ⟨rfl, rfl⟩ := Prod.mk.inj (Option.some.inj hagency)
  obtain rfl := Except.ok.inj hshape
  rcases Backend.runs_bind.mp hrest with ⟨⟨d, f⟩, s₂, hp, e, hj, -⟩ | ⟨x, hp, rfl⟩
  · obtain ⟨rfl, debut, fin, hd, hf, ⟨⟨x, hx⟩, -⟩ | ⟨hok, hadmise⟩⟩ := periode_runs hp
    · cases hx
    · obtain ⟨rfl, rfl⟩ := Prod.mk.inj (Except.ok.inj hok)
      exact ⟨d, f, hd, hf, .inr ⟨_, hj, hadmise, ⟨by rw [← ecritures_eq]; rfl, rfl, rfl, rfl⟩, rfl, rfl⟩⟩
  · obtain ⟨rfl, debut, fin, hd, hf, ⟨-, hnot⟩ | ⟨hok, -⟩⟩ := periode_runs hp
    · exact ⟨debut, fin, hd, hf, .inl ⟨⟨x, rfl⟩, hnot⟩⟩
    · cases hok

/-! ## The totals -/

theorem Db.Cents.rawEntries (h : s.Cents) {e : AccountingEntryShape}
    (he : e ∈ s.ecritures agencyId debut finExclue) : TwoDecimals e.debit ∧ TwoDecimals e.credit := by
  obtain ⟨r, hr, he⟩ := List.mem_flatMap.mp he
  obtain ⟨x, hx, hligne⟩ := List.mem_filterMap.mp hr
  have hp : r.payment ∈ s.payments := by
    rw [ligne_payment hligne]
    exact List.mem_of_getElem? (Table.mem_withIds.mp hx)
  obtain ⟨hamount, hrefunded⟩ := h _ hp
  rcases List.mem_append.mp he with he | he
  · unfold encEntry at he
    split at he
    · split at he
      · rw [List.mem_singleton] at he
        rw [he]
        exact ⟨hamount, twoDecimals_zero⟩
      · cases he
    · cases he
  · unfold remEntry at he
    split at he
    · next date montant _ hmontant =>
      split at he
      · rw [List.mem_singleton] at he
        rw [he]
        exact ⟨twoDecimals_zero, hrefunded _ hmontant⟩
      · cases he
    · cases he

/-- The totals of a journal are exact. -/
theorem Journal.exact (h : s.Cents) {j : AccountingExportShape} (hj : Journal s agencyId j) :
    j.totalCollected = (j.entries.map (·.debit)).sum ∧
      j.totalRefunded = (j.entries.map (·.credit)).sum ∧
      j.net = j.totalCollected - j.totalRefunded := by
  have hcents : ∀ e ∈ j.entries, TwoDecimals e.debit ∧ TwoDecimals e.credit := by
    intro e he
    rw [hj.entries, List.mem_insertionSort] at he
    exact h.rawEntries he
  have hcollected := TwoDecimals.sum fun e he => (hcents e he).1
  have hrefunded := TwoDecimals.sum fun e he => (hcents e he).2
  have hc := hj.collected.trans (arrondi_eq hcollected)
  have hr := hj.refunded.trans (arrondi_eq hrefunded)
  refine ⟨hc, hr, hj.net.trans (arrondi_eq ?_)⟩
  rw [hc, hr]
  exact hcollected.sub hrefunded

/-- A payment of each of two days. -/
def Db.deuxJours : Db :=
  let payment : Payment :=
    { bookingId := 0, amount := 3, installmentNumber := 1, method := .card, providerReference := "A"
      status := .succeeded, createdAt := 0, confirmedAt := some (minuit 1) }
  { Db.exemple with
    bookings := [Booking.exemple]
    payments := [{ payment with amount := 5 / 2 }, { payment with confirmedAt := some (minuit 1 - 1) }] }

theorem Db.deuxJours_cents : Db.deuxJours.Cents := by
  intro p hp
  have hamount : p.amount = 5 / 2 ∨ p.amount = 3 := by
    revert p
    decide +kernel
  have hrefunded : p.refundedAmount = none := by
    revert p
    decide +kernel
  refine ⟨?_, by rw [hrefunded]; rintro x ⟨⟩⟩
  rcases hamount with h | h
  · exact ⟨250, by rw [h]; norm_num⟩
  · exact ⟨300, by rw [h]; norm_num⟩

end OumraHajj
