import OumraHajj.Spec.Frame
import OumraHajj.Services.Billing
import OumraHajj.Services.Accounting
import OumraHajj.Services.Treasury

/-!
# Invoice, journal and balances: what a handler answers

The three handlers read the payments, each in its own way. `Db.collectedFor` and `Db.refundedFor`
are the two sums of the invoice, over the payments that were collected (`SUCCEEDED`, or `REFUNDED`
since), and the journal adds up its entries by their dates.
-/

namespace OumraHajj

open Async

namespace Db

/-- What was collected for a booking, also what is refunded since. -/
def collectedFor (s : Db) (id : BookingId) : ℚ :=
  s.payments.sumWhere (fun p => p.bookingId = id ∧ encaisse p.status) (·.amount)

/-- What was sent back on the payments collected for a booking. -/
def refundedFor (s : Db) (id : BookingId) : ℚ :=
  s.payments.sumWhere (fun p => p.bookingId = id ∧ encaisse p.status) (·.refundedAmount.getD 0)

end Db

/-! ## The invoice -/

section Invoice

variable {s s' : Db} {id : BookingId} {d : Dossier}

/-- The sum of a column over the collected payments of a dossier. -/
theorem encaisses_sum (hd : s.dossier id = some d) (f : Payment → ℚ) :
    ((encaisses d).map f).sum =
      s.payments.sumWhere (fun p => p.bookingId = id ∧ encaisse p.status) f := by
  obtain ⟨payments, hpay, hperm⟩ : ∃ l, d.payments = l ∧
      l.Perm (s.payments.findMany (·.bookingId = id)) := by
    simp only [Db.dossier, Option.bind_eq_some_iff, Option.map_eq_some_iff] at hd
    obtain ⟨b, -, agency, -, pilgrim, -, package, -, rfl⟩ := hd
    exact ⟨_, rfl, List.perm_insertionSort _ _⟩
  have hsum := (((hperm.map Prod.snd).filter fun p => encaisse p.status).map f).sum_eq
  have hrows := Table.filter_findMany s.payments (fun p => decide (p.bookingId = id))
    fun p => encaisse p.status
  unfold encaisses
  rw [hpay, hsum, List.filter_map, List.map_map]
  have := Table.map_findMany s.payments
    (fun p => decide (p.bookingId = id) && encaisse p.status) f
  rw [← hrows] at this
  unfold Table.sumWhere
  simp only [Bool.decide_and, Bool.decide_eq_true]
  rw [← this]
  rfl

theorem paid_eq (hd : s.dossier id = some d) : paid d = arrondi (s.collectedFor id) := by
  unfold paid Db.collectedFor
  rw [encaisses_sum hd]

theorem refunded_eq (hd : s.dossier id = some d) : refunded d = arrondi (s.refundedFor id) := by
  unfold refunded Db.refundedFor
  rw [encaisses_sum hd]

theorem dossierAutorise_bind {α : Type} {userId : UserId} {role : Role} {f : Dossier → Req α}
    {r : Except Erreur α}
    (h : prisma.Runs (Prog.bind (BillingService.dossierAutorise userId role id) f) s r s') :
    (∃ d, s.dossier id = some d ∧ prisma.Runs (f d) s r s') ∨ ∃ e, r = .error e := by
  simp only [BillingService.dossierAutorise, Prog.bind_eq, await_bind, Prog.call_bind,
    Backend.runs_call, prisma_exec, exec] at h
  obtain ⟨_, h⟩ := h
  rcases hd : s.dossier id with _ | d
  · simp only [hd, Prog.fail_bind, Backend.runs_fail] at h
    exact .inr ⟨_, h.1⟩
  simp only [hd] at h
  by_cases ha : BillingService.autorise userId role d = true
  · rw [if_pos ha] at h
    exact .inl ⟨d, rfl, h⟩
  · rw [if_neg ha] at h
    exact .inr ⟨_, h.1⟩

/-- An invoice that is issued is the only change of the dossier. -/
theorem dossier_invoices {l : Table Invoice} {a : List AuditLog} {d' : Dossier}
    (hd : s.dossier id = some d)
    (hd' : Db.dossier { s with invoices := l, auditLogs := a } id = some d') :
    d' = { d with invoice := (l.findFirst (·.bookingId = id)).map Prod.snd } := by
  simp only [Db.dossier, Option.bind_eq_some_iff, Option.map_eq_some_iff] at hd hd'
  obtain ⟨b, hb, agency, hag, pilgrim, hpil, package, hpk, rfl⟩ := hd
  obtain ⟨b', hb', agency', hag', pilgrim', hpil', package', hpk', rfl⟩ := hd'
  have h₁ : b' = b := Option.some.inj (hb'.symm.trans hb)
  subst h₁
  have h₂ : agency' = agency := Option.some.inj (hag'.symm.trans hag)
  have h₃ : pilgrim' = pilgrim := Option.some.inj (hpil'.symm.trans hpil)
  have h₄ : package' = package := Option.some.inj (hpk'.symm.trans hpk)
  rw [h₂, h₃, h₄]
  rfl

/-- The invoice that is shown has the payments of the state before, and its total is the one of the
invoice issued earlier, or else the price of the package. -/
theorem getInvoice_runs {userId : UserId} {role : Role} {f : InvoiceShape}
    (h : prisma.Runs (BillingService.getInvoice userId role id) s (.ok f) s') :
    ∃ d facture, s.dossier id = some d ∧ f = toInvoiceShape d facture ∧
      (s.invoiceOf id = some facture ∨
        s.invoiceOf id = none ∧ facture.totalAmount = d.package.price) := by
  rcases dossierAutorise_bind h with ⟨d, hd, h⟩ | ⟨e, he⟩
  swap
  · cases he
  have hinv : d.invoice = s.invoiceOf id := by
    simp only [Db.dossier, Option.bind_eq_some_iff, Option.map_eq_some_iff] at hd
    obtain ⟨b, -, agency, -, pilgrim, -, package, -, rfl⟩ := hd
    rfl
  rcases hi : d.invoice with _ | facture
  · -- The invoice is issued, and the dossier read again.
    have hnone : s.invoices.findFirst (·.bookingId = id) = none := by
      rw [hinv, Db.invoiceOf, Option.map_eq_none_iff] at hi
      exact hi
    have hid : d.id = id := by
      simp only [Db.dossier, Option.bind_eq_some_iff, Option.map_eq_some_iff] at hd
      obtain ⟨b, -, agency, -, pilgrim, -, package, -, rfl⟩ := hd
      rfl
    simp only [hi, BillingService.emettre, Prog.bind_eq, await_bind, Prog.call_bind,
      Backend.runs_call, prisma_exec, exec, hid, Table.any_eq_false hnone] at h
    obtain ⟨e, e', e'', h⟩ := h
    rcases dossierAutorise_bind h with ⟨d', hd', h⟩ | ⟨e, he⟩
    swap
    · cases he
    have hd'' := dossier_invoices hd hd'
    rw [Table.findFirst_append hnone (by simp), Option.map_some] at hd''
    subst hd''
    obtain ⟨hf, -⟩ := h
    exact ⟨d, _, hd, Except.ok.inj hf, .inr ⟨hinv ▸ hi, rfl⟩⟩
  · simp only [hi, BillingService.facturer] at h
    exact ⟨d, facture, hd, (Except.ok.inj h.1), .inl (hinv ▸ hi)⟩

end Invoice

/-! ## The journal -/

/-- The collections of a booking in the journal. -/
def AccountingExportShape.collectedFor (j : AccountingExportShape) (id : BookingId) : ℚ :=
  ((j.entries.filter fun e => e.journal = .enc ∧ e.bookingId = id).map (·.debit)).sum

/-- The refunds of a booking in the journal. -/
def AccountingExportShape.refundedFor (j : AccountingExportShape) (id : BookingId) : ℚ :=
  ((j.entries.filter fun e => e.journal = .rem ∧ e.bookingId = id).map (·.credit)).sum

section Journal

variable {s s' : Db} {id : BookingId} {debut finExclue : Time}

theorem dansPeriode_some {t : Time} :
    Db.dansPeriode debut finExclue (some t) = true ↔ debut ≤ t ∧ t < finExclue := by
  simp [Db.dansPeriode]

/-- The entries of the payments, one payment after the other. -/
theorem rawEntries_sum (rows : List JournalRow) (P : AccountingEntryShape → Bool)
    (f : AccountingEntryShape → ℚ) :
    (((rawEntries debut finExclue rows).filter P).map f).sum = (rows.map fun r =>
      (((encEntry debut finExclue r ++ remEntry debut finExclue r).filter P).map f).sum).sum := by
  induction rows with
  | nil => rfl
  | cons r rows ih =>
    unfold rawEntries at ih ⊢
    rw [List.flatMap_cons, List.filter_append, List.map_append, List.sum_append, ih, List.map_cons,
      List.sum_cons]

theorem row_collected (r : JournalRow) :
    (((encEntry debut finExclue r ++ remEntry debut finExclue r).filter
      fun e => e.journal = .enc ∧ e.bookingId = id).map (·.debit)).sum =
      if r.payment.bookingId = id ∧ Db.dansPeriode debut finExclue r.payment.confirmedAt then
        r.payment.amount else 0 := by
  have hrem : (remEntry debut finExclue r).filter
      (fun e => e.journal = .enc ∧ e.bookingId = id) = [] := by
    rw [List.filter_eq_nil_iff]
    intro e he
    unfold remEntry at he
    split at he
    · split at he
      · rw [List.mem_singleton] at he
        subst he
        simp
      · cases he
    · cases he
  rw [List.filter_append, hrem, List.append_nil]
  unfold encEntry
  rcases hc : r.payment.confirmedAt with _ | t
  · simp [Db.dansPeriode]
  · by_cases ht : debut ≤ t ∧ t < finExclue
    · by_cases hid : r.payment.bookingId = id <;> simp [dansPeriode_some, ht, hid]
    · simp [dansPeriode_some, ht]

theorem row_refunded (r : JournalRow) :
    (((encEntry debut finExclue r ++ remEntry debut finExclue r).filter
      fun e => e.journal = .rem ∧ e.bookingId = id).map (·.credit)).sum =
      if r.payment.bookingId = id ∧ Db.dansPeriode debut finExclue r.payment.refundedAt then
        r.payment.refundedAmount.getD 0 else 0 := by
  have henc : (encEntry debut finExclue r).filter
      (fun e => e.journal = .rem ∧ e.bookingId = id) = [] := by
    rw [List.filter_eq_nil_iff]
    intro e he
    unfold encEntry at he
    split at he
    · split at he
      · rw [List.mem_singleton] at he
        subst he
        simp
      · cases he
    · cases he
  rw [List.filter_append, henc, List.nil_append]
  unfold remEntry
  rcases hr : r.payment.refundedAt with _ | t
  · simp [Db.dansPeriode]
  · rcases ha : r.payment.refundedAmount with _ | montant
    · simp
    · by_cases hz : montant = 0
      · simp [hz]
      · by_cases ht : debut ≤ t ∧ t < finExclue
        · by_cases hid : r.payment.bookingId = id <;> simp [dansPeriode_some, ht, hid, hz]
        · simp [dansPeriode_some, ht]

private theorem sum_filterMap {α β : Type} (F : α → Option β) (g : β → ℚ) (l : List α) :
    ((l.filterMap F).map g).sum = (l.map fun x => ((F x).map g).getD 0).sum := by
  induction l with
  | nil => rfl
  | cons x l ih =>
    rcases h : F x with _ | y
    · rw [List.filterMap_cons_none h, ih, List.map_cons, List.sum_cons, h]
      simp
    · rw [List.filterMap_cons_some h, List.map_cons, List.sum_cons, ih, List.map_cons,
        List.sum_cons, h]
      rfl

/-- A quantity that only the payments of the booking have, and only those with a date in the period:
the rows of the journal have all of it. -/
theorem journalRows_sum {d : Dossier} (hd : s.dossier id = some d) (debut finExclue : Time)
    (w : Payment → ℚ)
    (hid : ∀ p, p.bookingId ≠ id → w p = 0)
    (hper : ∀ p, Db.dansPeriode debut finExclue p.confirmedAt = false →
      Db.dansPeriode debut finExclue p.refundedAt = false → w p = 0) :
    ((s.journalRows d.booking.agencyId debut finExclue).map fun r => w r.payment).sum =
      (s.payments.map w).sum := by
  simp only [Db.dossier, Option.bind_eq_some_iff, Option.map_eq_some_iff] at hd
  obtain ⟨b, hb, agency, -, pilgrim, hpil, package, hpk, rfl⟩ := hd
  unfold Db.journalRows
  rw [sum_filterMap]
  have hrow : ∀ x : PaymentId × Payment,
      (Option.map (fun r : JournalRow => w r.payment)
        ((s.bookings[x.2.bookingId]?).bind fun b' =>
          if b'.agencyId = b.agencyId then
            (s.users[b'.pilgrimId]?).bind fun u =>
            (s.packages[b'.packageId]?).map fun pkg => ⟨x.1, x.2, u.fullName, pkg.title⟩
          else none)).getD 0 = w x.2 := by
    intro x
    by_cases hx : x.2.bookingId = id
    · rw [hx, hb, Option.bind_some, if_pos rfl, hpil, Option.bind_some, hpk]
      rfl
    · rw [hid _ hx]
      rcases s.bookings[x.2.bookingId]? with _ | b'
      · rfl
      · rw [Option.bind_some]
        split
        · rcases s.users[b'.pilgrimId]? with _ | u
          · rfl
          · rcases s.packages[b'.packageId]? with _ | pkg
            · rfl
            · exact hid _ hx
        · rfl
  rw [List.map_congr_left fun x _ => hrow x, Table.map_findMany]
  have := Table.sumWhere_eq s.payments (fun p => Db.dansPeriode debut finExclue p.confirmedAt ||
    Db.dansPeriode debut finExclue p.refundedAt) w
  unfold Table.sumWhere at this
  rw [this]
  refine congrArg List.sum (List.map_congr_left fun p _ => ?_)
  split
  · rfl
  · rename_i hno
    simp only [Bool.or_eq_true, not_or, Bool.not_eq_true] at hno
    exact (hper p hno.1 hno.2).symm

theorem uses_periode (query : AccountingExportQueryDto) :
    (AccountingExportService.periode query).Uses ReadOnly := by
  refine (Prog.uses_exec fun _ _ => rfl).bind fun maintenant => ?_
  dsimp only
  split
  · trivial
  · split <;> trivial

/-- The entries are those of the rows of the period, in another order. -/
theorem getJournal_runs {ownerId : UserId} {query : AccountingExportQueryDto}
    {j : AccountingExportShape}
    (h : prisma.Runs (AccountingExportService.getJournal ownerId query) s (.ok j) s') :
    ∃ agencyId agency, s.agencyOf ownerId = some (agencyId, agency) ∧
      j.entries.Perm (rawEntries (minuit j.from) (minuit j.«to» + jourMs)
        (s.journalRows agencyId (minuit j.from) (minuit j.«to» + jourMs))) := by
  simp only [AccountingExportService.getJournal, AgenciesService.findByOwnerOrFail, Prog.bind_eq,
    await_bind, Prog.call_bind, Backend.runs_call, prisma_exec, exec] at h
  obtain ⟨_, h⟩ := h
  rcases ha : s.agencyOf ownerId with _ | ⟨agencyId, agency⟩
  · simp only [ha, Prog.fail_bind, Backend.runs_fail] at h
    cases h.1
  simp only [ha, Prog.pure_eq, Prog.ret_bind] at h
  refine ⟨agencyId, agency, rfl, ?_⟩
  rcases Backend.runs_bind.mp h with ⟨⟨jourDebut, jourFin⟩, s₁, hp, hj⟩ | ⟨x, -, hx⟩
  · rw [state_of_uses (uses_periode query) hp] at hj
    obtain ⟨e, hj, -⟩ := hj
    rw [Except.ok.inj hj]
    exact List.perm_insertionSort _ _
  · cases hx

end Journal

end OumraHajj
