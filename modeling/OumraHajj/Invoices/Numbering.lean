import OumraHajj.Common.Iso
import OumraHajj.Invoices.Service

/-!
# Numbering of the invoices

Under any interleaving of `getInvoice` and of changes of packages, each booking has at most one
invoice, the sequence numbers of an agency in a year are `1, …, n`, the printed numbers of an agency
are distinct, and all who are shown the invoice of a booking see the same number and the same total
(`invoices_numbered`). A session creates an invoice only with the locks of the agency and of the
entry of the booking (`Guar`), so under the lock of its agency the number of invoices that it has
read does not change.
-/

namespace OumraHajj.Invoices

open Async

/-! ## The printed number -/

theorem padStart5_toList (n : Nat) : (Db.padStart5 n).toList =
    List.replicate (5 - (toString n).length) '0' ++ Nat.toDigits 10 n := by
  simp [Db.padStart5]

/-- The padding does not change the number, however long it is. -/
theorem padStart5_value (n : Nat) : Nat.ofDigitChars 10 (Db.padStart5 n).toList 0 = n := by
  rw [padStart5_toList, Nat.ofDigitChars_append, Nat.ofDigitChars_replicate_zero, Nat.mul_zero,
    Nat.ofDigitChars_ten_toDigits]

theorem padStart5_digits {n : Nat} {c : Char} (h : c ∈ (Db.padStart5 n).toList) : c ≠ '-' := by
  rw [padStart5_toList, List.mem_append] at h
  rcases h with h | h
  · rw [List.eq_of_mem_replicate h]
    decide
  · rintro rfl
    have := isDigit_toDigits h
    revert this
    decide

theorem toDigits_inj {m n : Nat} (h : Nat.toDigits 10 m = Nat.toDigits 10 n) : m = n := by
  rw [← Nat.ofDigitChars_ten_toDigits (n := m), h, Nat.ofDigitChars_ten_toDigits]

theorem toDigits_ne_dash {n : Nat} {l : List Char} : Nat.toDigits 10 n ≠ '-' :: l := by
  intro h
  have hmem : '-' ∈ Nat.toDigits 10 n := by rw [h]; exact List.mem_cons_self
  have := isDigit_toDigits hmem
  revert this
  decide

theorem annee_inj {a b : Int} (h : (toString a).toList = (toString b).toList) : a = b := by
  simp only [toString_toList] at h
  split at h <;> split at h
  · have := toDigits_inj h
    omega
  · exact absurd h toDigits_ne_dash
  · exact absurd h.symm toDigits_ne_dash
  · have := toDigits_inj (List.cons.inj h).2
    omega

/-- The last dash separates the year and the sequence. -/
theorem append_dash_inj {l₁ l₂ d₁ d₂ : List Char} (h₁ : '-' ∉ d₁) (h₂ : '-' ∉ d₂)
    (h : l₁ ++ '-' :: d₁ = l₂ ++ '-' :: d₂) : l₁ = l₂ ∧ d₁ = d₂ := by
  rcases List.append_eq_append_iff.mp h with ⟨m, rfl, hm⟩ | ⟨m, rfl, hm⟩
  · cases m with
    | nil => simpa using hm
    | cons c m =>
      obtain ⟨rfl, rfl⟩ := List.cons.inj hm
      exact absurd (by simp) h₁
  · cases m with
    | nil => simpa [eq_comm] using hm
    | cons c m =>
      obtain ⟨rfl, rfl⟩ := List.cons.inj hm
      exact absurd (by simp) h₂

theorem numeroFacture_inj {a b : Int} {m n : Nat} (h : Db.numeroFacture a m = Db.numeroFacture b n) :
    a = b ∧ m = n := by
  have hl : ("FAC-".toList ++ (toString a).toList) ++ '-' :: (Db.padStart5 m).toList =
      ("FAC-".toList ++ (toString b).toList) ++ '-' :: (Db.padStart5 n).toList := by
    have := congrArg String.toList h
    simpa [Db.numeroFacture] using this
  obtain ⟨hy, hd⟩ := append_dash_inj (fun h => padStart5_digits h rfl)
    (fun h => padStart5_digits h rfl) hl
  refine ⟨annee_inj (List.append_cancel_left hy), ?_⟩
  rw [← padStart5_value m, hd, padStart5_value]

/-! ## The invariant -/

/-- One invoice for a booking, no gap in the sequences of an agency and a year, and each number is
the one of its year and its sequence. -/
structure Numbered (s : Db) : Prop where
  booking : (s.invoices.map (·.bookingId)).Nodup
  gapless : ∀ a y, (ofYear s a y).map (·.sequence) = List.range' 1 (ofYear s a y).length
  number : ∀ i ∈ s.invoices, i.number = Db.numeroFacture i.year i.sequence

/-- What the holder of the locks `h` may do: invoices are only added, under the locks of their agency
and their booking. -/
structure Guar (h : Key → Prop) (s s' : Db) : Prop where
  agencies : s'.agencies = s.agencies
  invoices : ∃ l, s'.invoices = s.invoices ++ l ∧
    ∀ i ∈ l, h (.agency i.agencyId) ∧ h (.booking i.bookingId)

/-- The points of the transaction of `emettre`. -/
inductive Ph where
  | debut
  | verrou (a : AgencyId)
  | compte (a : AgencyId) (y : Int) (n : Nat)
  | cree (data : InvoiceCreate)
  /-- The creation was rejected: the transaction will be rolled back. -/
  | rejete

/-- The transaction has written nothing. -/
def Silent (log : List (sig.Stmt × Env)) : Prop := ∀ s, backend.replay log s = s

/-- The row of `data` may be added: it has the next number of its agency and year, and its booking has
no invoice. -/
structure Next (data : InvoiceCreate) (s : Db) : Prop where
  sequence : data.sequence = (ofYear s data.agencyId data.year).length + 1
  number : data.number = Db.numeroFacture data.year data.sequence
  booking : ∀ i ∈ s.invoices, i.bookingId ≠ data.bookingId

/-- What each point of the transaction knows. -/
def Ph.holds : Ph → (Key → Prop) → List (sig.Stmt × Env) → Db → Prop
  | .debut, _, log, _ => Silent log
  | .verrou a, h, log, _ => Silent log ∧ h (.agency a)
  | .compte a y n, h, log, s => Silent log ∧ h (.agency a) ∧ (ofYear s a y).length = n
  | .cree data, h, log, s =>
    (∃ e, ∀ s, backend.replay log s = (exec (.invoiceCreate data) e s).2) ∧
      h (.agency data.agencyId) ∧ h (.booking data.bookingId) ∧ Next data s
  | .rejete, _, _, _ => True

/-- What a handler has learned: the agency exists, and the invoice was issued. -/
structure Known where
  agence : Option AgencyId := none
  facture : Option Invoice := none

def Known.holds (n : Known) (s : Db) : Prop :=
  (∀ a ∈ n.agence, (s.agencies[a]?).isSome = true) ∧ ∀ i ∈ n.facture, i ∈ s.invoices

theorem Guar.refl (h : Key → Prop) (s : Db) : Guar h s s := ⟨rfl, [], by simp, by simp⟩

theorem Guar.of_eq {h : Key → Prop} {s s' : Db} (ha : s'.agencies = s.agencies)
    (hi : s'.invoices = s.invoices) : Guar h s s' := ⟨ha, [], by simp [hi], by simp⟩

theorem Guar.ofYear {h h' : Key → Prop} {s s' : Db} (hg : Guar h' s s') (hd : ∀ k, h k → ¬ h' k)
    {a : AgencyId} (ha : h (.agency a)) (y : Int) : ofYear s' a y = ofYear s a y := by
  obtain ⟨l, hl, hlocks⟩ := hg.invoices
  have hnil : l.filter (fun i => i.agencyId = a ∧ i.year = y) = [] := by
    rw [List.filter_eq_nil_iff]
    intro i hi hmem
    simp only [decide_eq_true_eq] at hmem
    exact hd _ ha (hmem.1 ▸ (hlocks i hi).1)
  rw [Invoices.ofYear, hl, List.filter_append, hnil, List.append_nil]
  rfl

theorem Guar.next {h h' : Key → Prop} {s s' : Db} (hg : Guar h' s s') (hd : ∀ k, h k → ¬ h' k)
    {data : InvoiceCreate} (ha : h (.agency data.agencyId)) (hb : h (.booking data.bookingId))
    (hn : Next data s) : Next data s' where
  sequence := by rw [hg.ofYear hd ha, hn.sequence]
  number := hn.number
  booking := by
    obtain ⟨l, hl, hlocks⟩ := hg.invoices
    intro i hi hmem
    rw [hl, List.mem_append] at hi
    rcases hi with hi | hi
    · exact hn.booking i hi hmem
    · exact hd _ hb (hmem ▸ (hlocks i hi).2)

theorem Ph.holds_stable {p : Ph} {h h' : Key → Prop} {log : List (sig.Stmt × Env)} {s s' : Db}
    (hp : p.holds h log s) (hg : Guar h' s s') (hd : ∀ k, h k → ¬ h' k) : p.holds h log s' := by
  cases p with
  | debut => exact hp
  | verrou a => exact hp
  | compte a y n => exact ⟨hp.1, hp.2.1, by rw [hg.ofYear hd hp.2.1, hp.2.2]⟩
  | cree data =>
    obtain ⟨hlog, ha, hb, hn⟩ := hp
    exact ⟨hlog, ha, hb, hg.next hd ha hb hn⟩
  | rejete => trivial

theorem Known.holds_stable {n : Known} {h : Key → Prop} {s s' : Db} (hn : n.holds s)
    (hg : Guar h s s') : n.holds s' := by
  obtain ⟨l, hl, -⟩ := hg.invoices
  refine ⟨fun a ha => ?_, fun i hi => ?_⟩
  · rw [hg.agencies]; exact hn.1 a ha
  · rw [hl]; exact List.mem_append_left _ (hn.2 i hi)

/-- The discipline of the numbering (module doc). -/
def discipline : Discipline sig Db Env Key where
  Ph := Ph
  Kn := Known
  inv := Numbered
  knows := Known.holds
  holds := Ph.holds
  guar := Guar
  knows_stable _ hn hg := Known.holds_stable hn hg
  holds_stable _ hp hg hd := Ph.holds_stable hp hg hd

/-! ## The transaction -/

theorem foldl_max_range' (a n : Nat) : (List.range' (a + 1) n).foldl max a = a + n := by
  induction n generalizing a with
  | zero => rfl
  | succ n ih =>
    rw [List.range'_succ, List.foldl_cons, Nat.max_eq_right (by omega), ih]
    omega

/-- The greatest sequence of an agency and a year is the number of its invoices. -/
theorem aggregate_eq {s : Db} (hi : Numbered s) (a : AgencyId) (y : Int) :
    (((ofYear s a y).map (·.sequence)).max?).getD 0 = (ofYear s a y).length := by
  rw [hi.gapless]
  cases (ofYear s a y).length with
  | zero => rfl
  | succ n =>
    rw [List.range'_succ, List.max?_cons', foldl_max_range', Option.getD_some]
    omega

theorem nextSequence_eq {s : Db} (hi : Numbered s) (a : AgencyId) (y : Int) :
    s.nextSequence a y = (ofYear s a y).length + 1 := by
  show ((ofYear s a y).map (·.sequence)).foldl max 0 + 1 = _
  rw [hi.gapless, foldl_max_range', Nat.zero_add]

theorem ofYear_append (s : Db) (i : Invoice) (a : AgencyId) (y : Int) :
    ofYear { s with invoices := s.invoices ++ [i] } a y =
      ofYear s a y ++ if i.agencyId = a ∧ i.year = y then [i] else [] := by
  show (s.invoices ++ [i]).filter (fun i => i.agencyId = a ∧ i.year = y) = _
  rw [List.filter_append]
  by_cases h : i.agencyId = a ∧ i.year = y <;> simp [h, ofYear]

theorem invoiceCreate_exec {data : InvoiceCreate} {e : Env} {s : Db} (hi : Numbered s)
    (hn : Next data s) : exec (.invoiceCreate data) e s =
      (.ok (), { s with invoices := s.invoices ++ [data.row e.now] }) := by
  have hnone : s.invoices.any (conflit data) = false := by
    rw [List.any_eq_false]
    intro i hmem hc
    simp only [conflit, decide_eq_true_eq] at hc
    rcases hc with hb | ⟨ha, hy, hs⟩
    · exact hn.booking i hmem hb
    · have hin : i.sequence ∈ (ofYear s data.agencyId data.year).map (·.sequence) :=
        List.mem_map_of_mem (List.mem_filter.mpr ⟨hmem, by simp [ha, hy]⟩)
      rw [hi.gapless, List.mem_range'_1] at hin
      have := hn.sequence
      omega
  simp only [exec, hnone]

/-- The commit of an emission keeps the numbering. -/
theorem cree_commits {data : InvoiceCreate} {e : Env} {s : Db} (hi : Numbered s)
    (hn : Next data s) : Numbered (exec (.invoiceCreate data) e s).2 := by
  rw [invoiceCreate_exec hi hn]
  refine ⟨?_, fun a y => ?_, fun i hmem => ?_⟩
  · show ((s.invoices ++ [data.row e.now]).map (·.bookingId)).Nodup
    rw [List.map_append, List.nodup_append]
    refine ⟨hi.booking, by simp, ?_⟩
    intro b hb c hc
    obtain ⟨i, hmem, rfl⟩ := List.mem_map.mp hb
    simp only [List.map_cons, List.map_nil, List.mem_singleton] at hc
    rw [hc]
    exact hn.booking i hmem
  · rw [ofYear_append]
    split
    · rename_i hay
      obtain ⟨rfl, rfl⟩ : data.agencyId = a ∧ data.year = y := hay
      rw [List.map_append, hi.gapless, List.length_append, List.length_singleton,
        List.range'_1_concat, Nat.add_comm 1]
      exact congrArg _ (congrArg (· :: []) hn.sequence)
    · rw [List.append_nil]
      exact hi.gapless a y
  · rcases List.mem_append.mp hmem with hmem | hmem
    · exact hi.number i hmem
    · rw [List.mem_singleton] at hmem
      rw [hmem]
      exact hn.number

/-- The commit of an emission adds one invoice, under the locks of its agency and its booking. -/
theorem cree_guar {data : InvoiceCreate} {e : Env} {s : Db} (hi : Numbered s) (hn : Next data s)
    {h : Key → Prop} (ha : h (.agency data.agencyId)) (hb : h (.booking data.bookingId)) :
    Guar h s (exec (.invoiceCreate data) e s).2 := by
  rw [invoiceCreate_exec hi hn]
  refine ⟨rfl, [data.row e.now], rfl, ?_⟩
  intro i hmem
  rw [List.mem_singleton] at hmem
  rw [hmem]
  exact ⟨ha, hb⟩

/-- The transaction commits what the atomic `invoiceEmettre` writes. -/
theorem cree_atomic {data : InvoiceCreate} {e : Env} {s : Db} (hi : Numbered s)
    (hn : Next data s) : (exec (.invoiceCreate data) e s).2 =
      (OumraHajj.exec (.invoiceEmettre data.agencyId data.bookingId data.year data.totalAmount
        data.currency) e s).2 := by
  have hnone : s.invoices.any (fun i => i.bookingId = data.bookingId) = false := by
    rw [List.any_eq_false]
    intro i hmem hb
    exact hn.booking i hmem (by simpa using hb)
  have hseq : s.nextSequence data.agencyId data.year = data.sequence := by
    rw [nextSequence_eq hi, hn.sequence]
  rw [invoiceCreate_exec hi hn]
  simp only [OumraHajj.exec, hnone, hseq, InvoiceCreate.row, hn.number]

/-- What a creation answers, when it does not reject the row: nothing is wrong with it. -/
theorem next_of_ok {data : InvoiceCreate} {e : Env} {s : Db} {u : Unit}
    (h : (exec (.invoiceCreate data) e s).1 = .ok u)
    (hseq : data.sequence = (ofYear s data.agencyId data.year).length + 1)
    (hnum : data.number = Db.numeroFacture data.year data.sequence) : Next data s := by
  refine ⟨hseq, hnum, fun i hi hb => ?_⟩
  have hany : s.invoices.any (conflit data) = true :=
    List.any_eq_true.mpr ⟨i, hi, by simp [conflit, hb]⟩
  simp only [exec, hany] at h
  cases h

/-- The transaction of `emettre` keeps the discipline. -/
theorem numeroter_body (d : Dossier) (annee : Int) {n : Known}
    (hn : n.agence = some d.booking.agencyId) :
    discipline.Body backend locks (fun _ _ => True) (fun _ n' => n'.agence = n.agence) n
      (BillingService.numeroter d annee) .debut := by
  refine Discipline.body_exec fun h log s e _ hkn hlog _ => ?_
  have hlog : Silent log := hlog
  refine ⟨.verrou d.booking.agencyId, ⟨Backend.replay_append_silent hlog fun _ => rfl, .inr ?_⟩, ?_⟩
  · rw [hlog s]
    have hsome := hkn.1 _ hn
    simp [locks, hsome]
  refine Discipline.body_exec fun h log s e hi _ hp _ => ?_
  obtain ⟨hlog, ha⟩ := hp
  refine ⟨.compte d.booking.agencyId annee (ofYear s d.booking.agencyId annee).length,
    ⟨Backend.replay_append_silent hlog fun _ => rfl, .inl ha, rfl⟩, ?_⟩
  have hmax : Option.getD (backend.exec (.inr (.invoiceAggregate d.booking.agencyId annee)) e s).1 0
      = (ofYear s d.booking.agencyId annee).length := aggregate_eq hi _ _
  rw [hlog s]
  generalize (ofYear s d.booking.agencyId annee).length = len at hmax ⊢
  generalize (backend.exec (.inr (.invoiceAggregate d.booking.agencyId annee)) e s).1 = derniere at hmax
  refine Discipline.body_exec fun h log s e hi _ hp _ => ?_
  obtain ⟨hlog, ha, hlen⟩ := hp
  rcases hans : (backend.exec (.inr (.invoiceCreate
    { agencyId := d.booking.agencyId, bookingId := d.id, year := annee
      sequence := Option.getD derniere 0 + 1
      number := Db.numeroFacture annee (Option.getD derniere 0 + 1)
      totalAmount := d.package.price, currency := d.package.currency })) e
    (backend.replay log s)).1 with code | u
  · exact ⟨.rejete, trivial, rfl⟩
  · rw [hlog s] at hans
    have hnext := next_of_ok hans (by rw [hmax, hlen]) rfl
    refine ⟨.cree _, ⟨⟨e, fun s => ?_⟩, .inl ha, .inr ?_, hnext⟩, ?_⟩
    · rw [Backend.replay_append, hlog]; rfl
    · simp [locks]
    intro h log s hi hkn hp
    obtain ⟨⟨e, hlog⟩, ha, hb, hnext⟩ := hp
    have hg := cree_guar (e := e) hi hnext ha hb
    rw [hlog]
    exact ⟨cree_commits hi hnext, hg, n, Known.holds_stable hkn hg, rfl⟩

/-! ## The handlers -/

/-- A statement that leaves the invoices and the agencies as they are. -/
def Dehors (c : sig.Stmt) : Prop := ∀ e s,
  (backend.exec c e s).2.agencies = s.agencies ∧ (backend.exec c e s).2.invoices = s.invoices

theorem Numbered.of_eq {s s' : Db} (hi : Numbered s) (h : s'.invoices = s.invoices) :
    Numbered s' := by
  have hof : ∀ a y, ofYear s' a y = ofYear s a y := fun a y => by rw [ofYear, h, ofYear]
  exact ⟨by rw [h]; exact hi.booking, fun a y => by rw [hof]; exact hi.gapless a y,
    by rw [h]; exact hi.number⟩

theorem left_dehors {α : Type} {p : OumraHajj.Req α} (hp : p.Uses fun c => Dehors (.inl c)) :
    (Prog.left p : Req α).Uses Dehors := hp.left fun _ h => h

theorem update_uses {A : sig.Stmt → Prop} (hpackage : ∀ id, A (.inl (.packageFindUnique id)))
    (hagency : ∀ ownerId, A (.inl (.agencyFindUnique ownerId)))
    (hupdate : ∀ id dto, A (.inr (.packageUpdate id dto))) (ownerId : UserId) (packageId : PackageId)
    (dto : UpdatePackageDto) : (PackagesService.update ownerId packageId dto).Uses A := by
  have hleft : ∀ {α : Type} {p : OumraHajj.Req α}, (p.Uses fun c => A (.inl c)) →
      (Prog.left p : Req α).Uses A := fun hp => hp.left fun _ h => h
  refine (hleft (Prog.uses_exec_bind (hpackage _) fun r => ?_)).bind fun pkg =>
    (hleft ?_).bind fun _ => Prog.uses_exec_bind (hupdate _ _) fun r => ?_
  · rcases r with - | pkg <;> trivial
  · refine Prog.Uses.bind (Prog.uses_exec_bind (hagency _) fun r => ?_) fun agency => ?_
    · rcases r with - | ⟨id, agency⟩ <;> trivial
    · dsimp only
      split <;> trivial
  · rcases r with - | updated <;> trivial

theorem packageUpdate_dehors (id : PackageId) (dto : UpdatePackageDto) :
    Dehors (.inr (.packageUpdate id dto)) := by
  intro e s
  simp only [backend, exec]
  split <;> exact ⟨rfl, rfl⟩

theorem update_dehors (ownerId : UserId) (packageId : PackageId) (dto : UpdatePackageDto) :
    (PackagesService.update ownerId packageId dto).Uses Dehors :=
  update_uses (fun _ _ _ => ⟨rfl, rfl⟩) (fun _ _ _ => ⟨rfl, rfl⟩) packageUpdate_dehors _ _ _

section Handlers

variable {ι : Type} [DecidableEq ι] {t : ι}

/-- Thread `t` keeps the discipline of the numbering and ends with `Q`. -/
abbrev Safe {α : Type} (t : ι) (p : Prog (sig.tx ι) Erreur α)
    (Q : Except Erreur α → Known → Prop) (n : Known) : Prop :=
  discipline.Safe backend locks (fun _ _ => True) t p Q n

theorem dehors_safe {α : Type} {p : Req α} (hp : p.Uses Dehors)
    {Q : Except Erreur α → Known → Prop} {n : Known} (hQ : ∀ r, Q r n) : Safe t p.auto Q n :=
  Discipline.safe_uses (D := discipline) hp
    (fun _ hc s e hi _ => ⟨Numbered.of_eq hi (hc e s).2, Guar.of_eq (hc e s).1 (hc e s).2⟩) hQ

/-- What a dossier that was read says of the invoices. -/
structure Lu (bookingId : BookingId) (d : Dossier) (n : Known) : Prop where
  id : d.id = bookingId
  agence : n.agence = some d.booking.agencyId
  facture : n.facture = d.invoice
  booking : ∀ i, d.invoice = some i → i.bookingId = bookingId

theorem dossier_lu {s : Db} {bookingId : BookingId} {d : Dossier} (h : s.dossier bookingId = some d) :
    Known.holds ⟨some d.booking.agencyId, d.invoice⟩ s ∧
      Lu bookingId d ⟨some d.booking.agencyId, d.invoice⟩ := by
  unfold Db.dossier at h
  simp only [Option.bind_eq_some_iff, Option.map_eq_some_iff] at h
  obtain ⟨b, -, agency, hagency, pilgrim, -, package, -, rfl⟩ := h
  have hinvoice : ∀ i, s.invoiceOf bookingId = some i → i ∈ s.invoices ∧ i.bookingId = bookingId := by
    intro i hi
    obtain ⟨⟨j, i'⟩, hfind, rfl⟩ := Option.map_eq_some_iff.mp hi
    obtain ⟨hget, hb⟩ := Table.findFirst_some hfind
    exact ⟨List.mem_of_getElem? hget, by simpa using hb⟩
  refine ⟨⟨?_, fun i hi => (hinvoice i hi).1⟩, rfl, rfl, rfl, fun i hi => (hinvoice i hi).2⟩
  rintro a ⟨⟩
  rw [hagency]
  rfl

/-- The dossier is read, and its invoice, if there is one, is known from then on. -/
theorem dossierAutorise_safe (userId : UserId) (role : Role) (bookingId : BookingId) (n : Known) :
    Safe t (Prog.left (BillingService.dossierAutorise userId role bookingId) : Req _).auto
      (fun r n' => ∀ d, r = .ok d → Lu bookingId d n') n := by
  refine Discipline.safe_auto fun s e hi hn _ => ?_
  refine ⟨hi, Guar.refl _ _, ?_⟩
  rcases hd : s.dossier bookingId with - | d
  · have hans : (backend.exec (.inl (.bookingFindDossier bookingId)) e s).1 = none := hd
    rw [hans]
    refine ⟨n, hn, rfl, ?_⟩
    rintro _ ⟨⟩
  · have hans : (backend.exec (.inl (.bookingFindDossier bookingId)) e s).1 = some d := hd
    rw [hans]
    obtain ⟨hkn, hlu⟩ := dossier_lu hd
    refine ⟨_, hkn, ?_⟩
    dsimp only [Prog.ret_bind]
    split
    · refine ⟨rfl, ?_⟩
      rintro _ ⟨⟩
      exact hlu
    · refine ⟨rfl, ?_⟩
      rintro _ ⟨⟩

/-- `emettre` issues the invoice, or finds that it was issued. -/
theorem emettre_safe (d : Dossier) {n : Known} (hn : n.agence = some d.booking.agencyId) :
    Safe t (BillingService.emettre t d) (fun _ _ => True) n := by
  refine Discipline.safe_bind (D := discipline) (R := fun _ n' => n' = n)
    (dehors_safe (left_dehors (Prog.uses_exec fun _ _ => ⟨rfl, rfl⟩)) fun _ => rfl) ?_ fun _ _ _ => trivial
  rintro maintenant _ rfl
  refine Discipline.safe_tryCatch (D := discipline)
    (Discipline.safe_transaction .debut (fun _ _ _ _ => rfl) (numeroter_body d _ hn))
    (fun _ _ _ => trivial) fun erreur n' _ => ?_
  split
  · exact ⟨rfl, trivial⟩
  · exact ⟨rfl, trivial⟩

/-- What is shown is the invoice that is known. -/
def Montre (f : InvoiceShape) (n : Known) : Prop :=
  ∃ i, n.facture = some i ∧ f.bookingId = i.bookingId ∧ f.number = i.number ∧
    f.totalAmount = i.totalAmount

theorem facturer_safe {bookingId : BookingId} {d : Dossier} {n : Known} (hl : Lu bookingId d n) :
    Safe t (Prog.left (BillingService.facturer d) : Req _).auto
      (fun r n' => ∀ f, r = .ok f → Montre f n') n := by
  unfold BillingService.facturer
  split
  · rename_i i hi
    refine ⟨rfl, ?_⟩
    rintro _ ⟨⟩
    exact ⟨i, by rw [hl.facture, hi], by rw [hl.booking i hi]; exact hl.id, rfl, rfl⟩
  · refine ⟨rfl, ?_⟩
    rintro _ ⟨⟩

theorem getInvoice_safe (userId : UserId) (role : Role) (bookingId : BookingId) :
    Safe t (BillingService.getInvoice t userId role bookingId)
      (fun r n => ∀ f, r = .ok f → Montre f n) {} := by
  refine Discipline.safe_bind (D := discipline) (dossierAutorise_safe userId role bookingId {})
    (fun d n hl => ?_) (fun e n _ => by rintro _ ⟨⟩)
  have hlu := hl d rfl
  dsimp only
  split
  · refine Discipline.safe_bind (D := discipline) (emettre_safe d hlu.agence) (fun _ n _ => ?_)
      (fun e n _ => by rintro _ ⟨⟩)
    refine Discipline.safe_bind (D := discipline) (R := fun _ _ => True)
      (dehors_safe (left_dehors (Prog.uses_exec fun _ _ => ⟨rfl, rfl⟩)) fun _ => trivial) (fun _ n _ => ?_)
      (fun e n _ => by rintro _ ⟨⟩)
    exact Discipline.safe_bind (D := discipline) (dossierAutorise_safe userId role bookingId n)
      (fun d n hl => facturer_safe (hl d rfl)) (fun e n _ => by rintro _ ⟨⟩)
  · exact facturer_safe hlu

/-- Every handler keeps the discipline of the numbering. -/
theorem handler_safe (t : ι) (q : InvoiceRequest) :
    Safe t (handler t q) (fun r n => ∀ f, r = .ok (some f) → Montre f n) {} := by
  cases q with
  | getInvoice userId role bookingId =>
    refine Discipline.safe_bind (D := discipline) (getInvoice_safe userId role bookingId)
      (fun f n hf => ⟨rfl, ?_⟩) (fun e n _ => by rintro _ ⟨⟩)
    rintro _ ⟨⟩
    exact hf f rfl
  | updatePackage ownerId packageId dto =>
    refine Discipline.safe_bind (D := discipline) (R := fun _ _ => True)
      (dehors_safe (update_dehors ownerId packageId dto) fun _ => trivial)
      (fun f n _ => ⟨rfl, ?_⟩) (fun e n _ => by rintro _ ⟨⟩)
    rintro _ ⟨⟩

end Handlers

/-! ## Results -/

/-- The printed numbers of an agency are distinct. -/
theorem Numbered.distinct {s : Db} (hi : Numbered s) (a : AgencyId) :
    ((s.invoices.filter (·.agencyId = a)).map (·.number)).Nodup := by
  have hnodup : (s.invoices.filter (·.agencyId = a)).Nodup :=
    (List.Nodup.of_map _ hi.booking).sublist List.filter_sublist
  refine List.Nodup.map_on (fun i hmem j hmem' h => ?_) hnodup
  simp only [List.mem_filter, decide_eq_true_eq] at hmem hmem'
  obtain ⟨hi₁, ha⟩ := hmem
  obtain ⟨hj₁, ha'⟩ := hmem'
  rw [hi.number i hi₁, hi.number j hj₁] at h
  obtain ⟨hy, hs⟩ := numeroFacture_inj h
  -- Two invoices of one agency and one year with the same sequence are one.
  have hseq : ((ofYear s a i.year).map (·.sequence)).Nodup := by
    rw [hi.gapless]; exact List.nodup_range'
  have hin : i ∈ ofYear s a i.year := List.mem_filter.mpr ⟨hi₁, by simp [ha]⟩
  have hjn : j ∈ ofYear s a i.year := List.mem_filter.mpr ⟨hj₁, by simp [ha', hy]⟩
  exact List.inj_on_of_nodup_map hseq hin hjn hs

/-- **Numbering of the invoices.** In every interleaving, each booking has at most one invoice, the
sequences of an agency in a year are `1, …, n`, the printed numbers of an agency are distinct, and
every invoice that a caller was shown has the number and the total of the one that is stored, so all
callers for a booking are shown the same. -/
theorem invoices_numbered {ι : Type} [DecidableEq ι] {requests : ι → InvoiceRequest} {s : Db}
    {c : Pool (sig.tx ι) ι (TxState sig ι Db Env Key) Erreur (Option InvoiceShape)} (h₀ : Numbered s)
    (hr : Pool.Reach (backend.tx locks) (ready backend locks fun _ _ => True) (poolOf requests s) c) :
    Numbered c.st.db ∧
      (∀ a, ((c.st.db.invoices.filter (·.agencyId = a)).map (·.number)).Nodup) ∧
      (∀ t f, c.procs t = .ret (some f) → ∃ i ∈ c.st.db.invoices, i.bookingId = f.bookingId ∧
        i.number = f.number ∧ i.totalAmount = f.totalAmount) ∧
      ∀ t u f g, c.procs t = .ret (some f) → c.procs u = .ret (some g) → f.bookingId = g.bookingId →
        f.number = g.number ∧ f.totalAmount = g.totalAmount := by
  obtain ⟨hi, hshown⟩ := discipline.reach h₀ (n := fun _ => {})
    (fun _ => ⟨by rintro a ⟨⟩, by rintro i ⟨⟩⟩) (fun t => handler_safe t (requests t)) hr
  have hstored : ∀ t f, c.procs t = .ret (some f) → ∃ i ∈ c.st.db.invoices,
      i.bookingId = f.bookingId ∧ i.number = f.number ∧ i.totalAmount = f.totalAmount := by
    intro t f hf
    obtain ⟨n, hq, hn⟩ := hshown t _ hf
    obtain ⟨i, hfac, hb, hnum, htot⟩ := hq f rfl
    exact ⟨i, hn.2 i hfac, hb.symm, hnum.symm, htot.symm⟩
  refine ⟨hi, hi.distinct, hstored, fun t u f g hf hg hb => ?_⟩
  obtain ⟨i, hi₁, hib, hin, hit⟩ := hstored t f hf
  obtain ⟨j, hj₁, hjb, hjn, hjt⟩ := hstored u g hg
  obtain rfl : i = j := List.inj_on_of_nodup_map hi.booking hi₁ hj₁ (hib.trans (hb.trans hjb.symm))
  exact ⟨hin.symm.trans hjn, hit.symm.trans hjt⟩

private def demandes : Fin 3 → InvoiceRequest
  | 0 => .getInvoice 0 .pilgrim 0
  | 1 => .getInvoice 1 .agency 0
  | 2 => .updatePackage 1 0 { price := some 200 }

/-- The booking of the example, at the price of 100. -/
private def depart : Db := { Db.exemple with bookings := [Booking.exemple] }

/-- The pilgrim and the agency ask for the invoice at once, and the price changes in between. -/
private def ordre : List (Fin 3 × Env) :=
  turns [0, 1, 0, 1, 0, 1, 0, 2, 2, 2, 0, 0, 0, 1, 1, 1, 1, 1, 1, 0, 0]

private def facture : Pool (sig.tx (Fin 3)) (Fin 3) (TxState sig (Fin 3) Db Env Key) Erreur
    (Option InvoiceShape) :=
  Pool.run (backend.tx locks) ordre (poolOf demandes depart)

theorem invoices_numbered_exemple :
    facture.Finished ∧
      facture.st.db.invoices.map (fun i => (i.number, i.totalAmount)) = [("FAC-1970-00001", 100)] ∧
      Numbered facture.st.db ∧
      ∀ t u f g, facture.procs t = .ret (some f) → facture.procs u = .ret (some g) →
        f.bookingId = g.bookingId → f.number = g.number ∧ f.totalAmount = g.totalAmount := by
  have hallowed : Pool.Allowed (backend.tx locks) (ready backend locks fun _ _ => True)
      (poolOf demandes depart) ordre := by decide +kernel
  have hstart : Numbered depart := ⟨List.nodup_nil, fun _ _ => rfl, by rintro i ⟨⟩⟩
  obtain ⟨hi, -, -, hsame⟩ := invoices_numbered hstart (hallowed.reach .refl)
  exact ⟨by decide +kernel, by decide +kernel, hi, hsame⟩

end OumraHajj.Invoices
