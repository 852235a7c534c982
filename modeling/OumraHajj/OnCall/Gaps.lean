import OumraHajj.Common.Spans
import OumraHajj.OnCall.Reads

/-!
# The gaps of the coverage

`trousDeCouverture` is the sweep of `Span.gaps` over the shifts in the order of their start
(`trousDeCouverture_spans`). So its periods are apart, they hold the instants of the window that no
shift covers, and they depend on nothing else (`trousDeCouverture_exact`). Every shift of the agencies
ends after it starts, whatever requests run (`handler_ordonne`), so what the query of `getCoverage`
drops covers no instant of the window (`getCoverage_gaps`).
-/

namespace OumraHajj.OnCall

open Async

variable {debut fin curseur t : Time} {creneaux reste : List Plage} {trous : List OnCallPeriodShape}
  {s s' : Store}

def Plage.span (c : Plage) : Span Time := ⟨c.startsAt, c.endsAt⟩

def OnCallPeriodShape.span (p : OnCallPeriodShape) : Span Time := ⟨p.from, p.to⟩

theorem OnCallPeriodShape.span_injective : Function.Injective OnCallPeriodShape.span := by
  rintro ⟨a, b⟩ ⟨c, d⟩ h
  cases h
  rfl

/-- The shift covers an instant. -/
def Plage.Couvre (c : Plage) (t : Time) : Prop := c.startsAt ≤ t ∧ t < c.endsAt

instance (c : Plage) (t : Time) : Decidable (c.Couvre t) := inferInstanceAs (Decidable (_ ∧ _))

theorem covered_plages : Span.Covered (creneaux.map Plage.span) t ↔ ∃ c ∈ creneaux, c.Couvre t := by
  simp [Span.Covered, Span.Contains, Plage.Couvre, Plage.span]

theorem covered_trous :
    Span.Covered (trous.map OnCallPeriodShape.span) t ↔ ∃ p ∈ trous, p.from ≤ t ∧ t < p.to := by
  simp [Span.Covered, Span.Contains, OnCallPeriodShape.span]

/-! ## The loop is a sweep -/

/-- What the loop has found, followed by the last gap. -/
def cloture («to» : Time) (r : List OnCallPeriodShape × Time) : List OnCallPeriodShape :=
  if r.2 < «to» then r.1 ++ [⟨r.2, «to»⟩] else r.1

theorem cloture_spans (trous : List OnCallPeriodShape) (curseur : Time) :
    (cloture fin (trous, curseur)).map OnCallPeriodShape.span =
      trous.map OnCallPeriodShape.span ++ Span.piece curseur fin := by
  unfold cloture Span.piece
  split <;> simp [OnCallPeriodShape.span]

/-- A turn of the loop adds what is open before the shift. -/
theorem tour_spans (hcurseur : curseur < fin) (debut : Time) (trous : List OnCallPeriodShape) :
    (if debut > curseur then trous ++ [⟨curseur, min debut fin⟩] else trous).map
        OnCallPeriodShape.span =
      trous.map OnCallPeriodShape.span ++ Span.piece curseur (min debut fin) := by
  unfold Span.piece
  split
  · next hdebut => simp [OnCallPeriodShape.span, lt_min hdebut hcurseur]
  · next hdebut => simp [hdebut]

/-- The loop goes on with the gaps of the shifts that are left. -/
theorem balayer_spans (fin : Time) (reste : List Plage) (trous : List OnCallPeriodShape)
    (curseur : Time) :
    (cloture fin (balayer fin reste trous curseur)).map OnCallPeriodShape.span =
      trous.map OnCallPeriodShape.span ++ Span.gaps fin curseur (reste.map Plage.span) := by
  induction reste generalizing trous curseur with
  | nil => exact cloture_spans trous curseur
  | cons c reste ih =>
    unfold balayer
    split
    · next hbreak =>
      rw [cloture_spans, Span.gaps_of_le hbreak, Span.piece, if_neg (not_lt.mpr hbreak)]
    · next hcurseur =>
      rw [ih, tour_spans (lt_of_not_ge hcurseur), List.append_assoc]
      rfl

/-- The shifts in the order of their start. -/
def tries (creneaux : List Plage) : List (Span Time) :=
  (creneaux.insertionSort fun a b => a.startsAt ≤ b.startsAt).map Plage.span

/-- **The periods are the gaps of a sweep.** -/
theorem trousDeCouverture_spans (debut fin : Time) (creneaux : List Plage) :
    (trousDeCouverture debut fin creneaux).map OnCallPeriodShape.span =
      Span.gaps fin debut (tries creneaux) := by
  have h := balayer_spans fin (creneaux.insertionSort fun a b => a.startsAt ≤ b.startsAt) [] debut
  rwa [List.map_nil, List.nil_append] at h

theorem covered_tries : Span.Covered (tries creneaux) t ↔ ∃ c ∈ creneaux, c.Couvre t := by
  rw [tries, covered_plages]
  simp only [List.mem_insertionSort]

theorem sorted_tries (creneaux : List Plage) :
    (tries creneaux).Pairwise fun c d => c.lo ≤ d.lo :=
  List.pairwise_map.mpr (List.pairwise_insertionSort (fun a b : Plage => a.startsAt ≤ b.startsAt) creneaux)

/-- Every shift ends after it starts. -/
def Ordonnes (creneaux : List Plage) : Prop := ∀ c ∈ creneaux, c.startsAt < c.endsAt

theorem Ordonnes.tries (h : Ordonnes creneaux) : ∀ c ∈ tries creneaux, c.lo < c.hi := by
  intro c hc
  obtain ⟨d, hd, rfl⟩ := List.mem_map.mp hc
  exact h d ((List.mem_insertionSort _).mp hd)

theorem trousDeCouverture_apart (h : Ordonnes creneaux) (debut fin : Time) :
    Span.Apart debut fin ((trousDeCouverture debut fin creneaux).map OnCallPeriodShape.span) := by
  rw [trousDeCouverture_spans]
  exact Span.gaps_apart h.tries fin debut

theorem mem_trousDeCouverture (h : Ordonnes creneaux) (hdebut : debut ≤ t) (hfin : t < fin) :
    (∃ p ∈ trousDeCouverture debut fin creneaux, p.from ≤ t ∧ t < p.to) ↔
      ∀ c ∈ creneaux, ¬ c.Couvre t := by
  rw [← covered_trous, trousDeCouverture_spans, Span.mem_gaps h.tries (sorted_tries _) hdebut hfin,
    covered_tries]
  push Not
  rfl

/-- The gaps depend only on the instants of the window that are covered. -/
theorem trousDeCouverture_congr {autres : List Plage} (h : Ordonnes creneaux) (h' : Ordonnes autres)
    (hcouvre : ∀ t, debut ≤ t → t < fin → ((∃ c ∈ creneaux, c.Couvre t) ↔ ∃ c ∈ autres, c.Couvre t)) :
    trousDeCouverture debut fin creneaux = trousDeCouverture debut fin autres := by
  refine List.map_injective_iff.mpr OnCallPeriodShape.span_injective ?_
  rw [trousDeCouverture_spans, trousDeCouverture_spans]
  refine Span.gaps_congr h.tries h'.tries (sorted_tries _) (sorted_tries _) fun t hdebut hfin => ?_
  rw [covered_tries, covered_tries]
  exact hcouvre t hdebut hfin

/-- A shift that covers an instant of the window passes the filter of `getCoverage`. -/
theorem trousDeCouverture_filter (h : Ordonnes creneaux) (debut fin : Time) :
    trousDeCouverture debut fin (creneaux.filter fun c => c.startsAt < fin ∧ c.endsAt > debut) =
      trousDeCouverture debut fin creneaux := by
  refine trousDeCouverture_congr (fun c hc => h c (List.mem_filter.mp hc).1) h fun t hdebut hfin => ?_
  constructor
  · rintro ⟨c, hc, hcouvre⟩
    exact ⟨c, (List.mem_filter.mp hc).1, hcouvre⟩
  · rintro ⟨c, hc, hcouvre⟩
    have hpasse : c.startsAt < fin ∧ c.endsAt > debut :=
      ⟨hcouvre.1.trans_lt hfin, hdebut.trans_lt hcouvre.2⟩
    exact ⟨c, List.mem_filter.mpr ⟨hc, by simpa using hpasse⟩, hcouvre⟩

/-- `trousMs`: what is open and what is covered make up the window. -/
theorem trousDeCouverture_length (h : Ordonnes creneaux) (hle : debut ≤ fin) :
    ((trousDeCouverture debut fin creneaux).map fun p => p.to - p.from).sum +
        ((Finset.Ico debut fin).filter fun t => ∃ c ∈ creneaux, c.Couvre t).card =
      fin - debut := by
  have hlength := Span.sum_length_gaps hle h.tries (sorted_tries creneaux)
  rw [← trousDeCouverture_spans, List.map_map] at hlength
  rw [← hlength]
  congr 3
  exact Finset.filter_congr fun t _ => covered_tries.symm

/-- **The gaps are exact.** -/
theorem trousDeCouverture_exact (debut fin : Time) (creneaux : List Plage) (hle : debut ≤ fin)
    (h : ∀ c ∈ creneaux, c.startsAt < c.endsAt) :
    (∀ p ∈ trousDeCouverture debut fin creneaux, debut ≤ p.from ∧ p.from < p.to ∧ p.to ≤ fin) ∧
      (trousDeCouverture debut fin creneaux).Pairwise (fun p q => p.to < q.from) ∧
      (∀ t, debut ≤ t → t < fin →
        ((∃ p ∈ trousDeCouverture debut fin creneaux, p.from ≤ t ∧ t < p.to) ↔
          ∀ c ∈ creneaux, ¬ (c.startsAt ≤ t ∧ t < c.endsAt))) ∧
      trousDeCouverture debut fin (creneaux.filter fun c => c.startsAt < fin ∧ c.endsAt > debut) =
        trousDeCouverture debut fin creneaux ∧
      ((trousDeCouverture debut fin creneaux).map fun p => p.to - p.from).sum +
          ((Finset.Ico debut fin).filter fun t => ∃ c ∈ creneaux, c.startsAt ≤ t ∧ t < c.endsAt).card =
        fin - debut := by
  have hapart := trousDeCouverture_apart h debut fin
  refine ⟨fun p hp => ?_, List.pairwise_map.mp hapart.apart, fun t => mem_trousDeCouverture h,
    trousDeCouverture_filter h debut fin, trousDeCouverture_length h hle⟩
  obtain ⟨hdebut, hfin⟩ := hapart.within p.span (List.mem_map_of_mem hp)
  exact ⟨hdebut, hapart.nonempty p.span (List.mem_map_of_mem hp), hfin⟩

/-- Two shifts that overlap, one that goes over the end of the window and one after it. -/
theorem trousDeCouverture_exact_quatre :
    (∀ c ∈ ([⟨30, 50⟩, ⟨10, 20⟩, ⟨15, 25⟩, ⟨60, 70⟩] : List Plage), c.startsAt < c.endsAt) ∧
      (∀ p ∈ trousDeCouverture 0 40 [⟨30, 50⟩, ⟨10, 20⟩, ⟨15, 25⟩, ⟨60, 70⟩],
        0 ≤ p.from ∧ p.from < p.to ∧ p.to ≤ 40) ∧
      trousDeCouverture 0 40 [⟨30, 50⟩, ⟨10, 20⟩, ⟨15, 25⟩, ⟨60, 70⟩] = [⟨0, 10⟩, ⟨25, 30⟩] :=
  ⟨by decide, (trousDeCouverture_exact 0 40 _ (by decide) (by decide)).1, by decide⟩

/-! ## The shifts end after they start -/

/-- What `verifierPeriode` has checked of every shift. -/
def Store.Ordonne (s : Store) : Prop := ∀ c, some c ∈ s.onCallShifts → c.startsAt < c.endsAt

/-- The shifts that the statement writes end after they start. -/
def Verifie : sig.Stmt → Prop
  | .inr (.onCallShiftCreate data) => data.startsAt < data.endsAt
  | .inr (.onCallShiftUpdate _ data) => data.startsAt < data.endsAt
  | _ => True

theorem exec_ordonne {c : sig.Stmt} (hc : Verifie c) (e : OumraHajj.Env) (hs : s.Ordonne) :
    (backend.exec c e s).2.Ordonne := by
  rcases c with c | c
  · exact hs
  · cases c with
    | onCallShiftFindUnique id => exact hs
    | onCallShiftCreate data =>
      simp only [backend, exec]
      split
      · intro c hc'
        rcases List.mem_append.mp hc' with hc' | hc'
        · exact hs c hc'
        · obtain rfl : c = data := by simpa using hc'
          exact hc
      · exact hs
    | onCallShiftUpdate id data =>
      simp only [backend, exec]
      split
      · intro c' hc'
        rcases List.mem_or_eq_of_mem_set hc' with hc' | hc'
        · exact hs c' hc'
        · obtain rfl := Option.some.inj hc'
          exact hc
      · exact hs
    | onCallShiftDelete id =>
      simp only [backend, exec]
      split
      · intro c' hc'
        rcases List.mem_or_eq_of_mem_set hc' with hc' | hc'
        · exact hs c' hc'
        · cases hc'
      · exact hs

/-- What follows `verifierPeriode` runs on a period that ends after it starts. -/
theorem verifierPeriode_uses {α : Type} {startsAt endsAt : Time} {f : Unit → Req α}
    {A : sig.Stmt → Prop} (hf : startsAt < endsAt → (f ()).Uses A) :
    ((verifierPeriode startsAt endsAt).bind f).Uses A := by
  unfold verifierPeriode
  split
  · trivial
  · next h =>
    split
    · trivial
    · exact hf (lt_of_not_ge h)

theorem app_verifie {α : Type} (p : OumraHajj.Req α) : (p.left : Req α).Uses Verifie :=
  Prog.uses_left (fun _ => trivial) p

theorem agencyIdOf_verifie (ownerId : UserId) : (OnCallService.agencyIdOf ownerId).Uses Verifie :=
  (app_verifie _).bind fun _ => trivial

theorem assertPackage_verifie (agencyId : AgencyId) (packageId : Option PackageId) :
    (OnCallService.assertPackage agencyId packageId).Uses Verifie := by
  rcases packageId with - | packageId
  · trivial
  · refine Prog.Uses.void ((app_verifie _).bind fun forfait => ?_)
    split
    · trivial
    · split <;> trivial

theorem findOwnedOrFail_verifie (ownerId : UserId) (id : OnCallShiftId) :
    (OnCallService.findOwnedOrFail ownerId id).Uses Verifie := by
  refine (agencyIdOf_verifie ownerId).bind fun agencyId =>
    Prog.uses_exec_bind trivial fun creneau => ?_
  split
  · trivial
  · split <;> trivial

theorem handler_verifie (q : ShiftRequest) : (handler q).Uses Verifie := by
  cases q with
  | createShift ownerId dto =>
    refine Prog.Uses.void ((agencyIdOf_verifie ownerId).bind fun agencyId =>
      verifierPeriode_uses fun hperiode => (assertPackage_verifie _ _).bind fun _ =>
        ⟨hperiode, fun r => ?_⟩)
    rcases r with - | creneau <;> trivial
  | updateShift ownerId id dto =>
    refine Prog.Uses.void ((findOwnedOrFail_verifie ownerId id).bind fun actuel =>
      verifierPeriode_uses fun hperiode => ⟨hperiode, fun r => ?_⟩)
    rcases r with - | creneau <;> trivial
  | deleteShift ownerId id =>
    refine (findOwnedOrFail_verifie ownerId id).bind fun _ => ⟨trivial, fun r => ?_⟩
    rcases r with - | _ <;> trivial

/-- **Shifts end after they start**, in every state of a run of requests. -/
theorem handler_ordonne {q : ShiftRequest} {r : Except Erreur Unit} (hs : s.Ordonne)
    (h : backend.Runs (handler q) s r s') : s'.Ordonne :=
  Backend.Runs.frame (R := fun s s' => s.Ordonne → s'.Ordonne) (fun _ => id)
    (fun _ _ _ h₁ h₂ hs => h₂ (h₁ hs)) (fun _ hc e _ => exec_ordonne hc e) (handler_verifie q) h hs

/-! ## The coverage -/

/-- The shifts of an agency for a package. -/
def Store.applicables (s : Store) (agencyId : AgencyId) (packageId : PackageId) : List OnCallShift :=
  (s.onCallShifts.filterMap id).filter fun c => c.Applicable agencyId packageId

theorem Store.shifts_map_snd (s : Store) (P : OnCallShift → Bool) :
    (s.shifts P).map Prod.snd = (s.onCallShifts.filterMap id).filter P := by
  have hmap : (s.onCallShifts.withIds.filterMap fun x => x.2.map fun c => (x.1, c)).map Prod.snd =
      s.onCallShifts.filterMap id := by
    conv => rhs; rw [← Table.map_snd_withIds s.onCallShifts]
    rw [List.map_filterMap, List.filterMap_map]
    congr 1
    funext x
    rcases x with ⟨i, - | c⟩ <;> rfl
  rw [← hmap, List.filter_map]
  rfl

theorem Store.Ordonne.applicables (hs : s.Ordonne) {agencyId : AgencyId} {packageId : PackageId}
    {c : OnCallShift} (hc : c ∈ s.applicables agencyId packageId) : c.startsAt < c.endsAt := by
  obtain ⟨x, hx, hxc⟩ := List.mem_filterMap.mp (List.mem_filter.mp hc).1
  exact hs c (by rwa [← hxc])

def OnCallShift.plage (c : OnCallShift) : Plage := ⟨c.startsAt, c.endsAt⟩

/-- The query finds the shifts for the package that pass its filter. -/
theorem coverage_answer (agencyId : AgencyId) (packageId : PackageId) (debut fin : Time) (e : Env)
    (s : Store) :
    ((Query.onCallShiftFindManyForCoverage agencyId packageId debut fin).answer e s).Perm
      (((s.applicables agencyId packageId).map OnCallShift.plage).filter
        fun c => c.startsAt < fin ∧ c.endsAt > debut) := by
  refine ((List.perm_insertionSort _ _).map _).trans (.of_eq ?_)
  have hplage : ∀ l : List (OnCallShiftId × OnCallShift),
      l.map (fun x => (⟨x.2.startsAt, x.2.endsAt⟩ : Plage)) = (l.map Prod.snd).map OnCallShift.plage := by
    intro l
    rw [List.map_map]
    rfl
  rw [hplage, Store.shifts_map_snd, List.filter_map, Store.applicables, List.filter_filter]
  refine congrArg _ (List.filter_congr fun c _ => ?_)
  simp only [OnCallShift.plage, Function.comp_apply, Bool.decide_and]
  exact Bool.and_comm _ _

/-- The query of `getCoverage` loses no gap and adds none. -/
theorem trousDeCouverture_answer (hs : s.Ordonne) (agencyId : AgencyId) (packageId : PackageId)
    (debut fin : Time) (e : Env) :
    trousDeCouverture debut fin
        ((Query.onCallShiftFindManyForCoverage agencyId packageId debut fin).answer e s) =
      trousDeCouverture debut fin ((s.applicables agencyId packageId).map OnCallShift.plage) := by
  have hplages : Ordonnes ((s.applicables agencyId packageId).map OnCallShift.plage) := by
    intro c hc
    obtain ⟨x, hx, rfl⟩ := List.mem_map.mp hc
    exact hs.applicables hx
  have hperm := coverage_answer agencyId packageId debut fin e s
  rw [← trousDeCouverture_filter hplages]
  refine trousDeCouverture_congr (fun c hc => ?_) (fun c hc => hplages c (List.mem_filter.mp hc).1)
    fun t _ _ => ?_
  · exact hplages c (List.mem_filter.mp (hperm.mem_iff.mp hc)).1
  · simp only [hperm.mem_iff]

theorem agencyIdOf_eval {ownerId : UserId} {agencyId : AgencyId} {agency : Agency}
    (h : s.app.agencyOf ownerId = some (agencyId, agency)) (e : Env) :
    readBackend.eval e (Prog.left (OnCallService.agencyIdOf ownerId)) s = (.ok agencyId, s) := by
  have hanswer : readBackend.exec (.inl (.inl (.agencyFindUnique ownerId))) e s =
      (some (agencyId, agency), s) := congrArg (fun a => (a, s)) h
  exact (Backend.evalBy_answer hanswer).trans rfl

theorem assertOwnPackage_eval {packageId : PackageId} {p : Package}
    (h : s.app.packages[packageId]? = some p) (e : Env) :
    readBackend.eval e (Prog.left (OnCallService.assertOwnPackage p.agencyId packageId)) s =
      (.ok p, s) := by
  have hanswer : readBackend.exec (.inl (.inl (.packageFindUnique packageId))) e s = (some p, s) :=
    congrArg (fun a => (a, s)) h
  refine (Backend.evalBy_answer hanswer).trans ?_
  show readBackend.evalBy _ (Prog.left (if p.agencyId ≠ p.agencyId then _ else _)) s = _
  rw [if_neg (not_not.mpr rfl)]
  rfl

/-- **The gaps that the agency sees** are those of all its shifts for the package. -/
theorem getCoverage_gaps (hs : s.Ordonne) {ownerId : UserId} {packageId : PackageId} {p : Package}
    {agency : Agency} (hagency : s.app.agencyOf ownerId = some (p.agencyId, agency))
    (hp : s.app.packages[packageId]? = some p) (e : Env) :
    ∃ v, readBackend.eval e (OnCallService.getCoverage ownerId packageId) s = (.ok v, s) ∧
      v.gaps = trousDeCouverture p.startDate (p.endDate + jourMs)
        ((s.applicables p.agencyId packageId).map OnCallShift.plage) := by
  rw [OnCallService.getCoverage, Prog.bind_eq, Backend.eval,
    Backend.evalBy_bind_ok (agencyIdOf_eval hagency e), Prog.bind_eq,
    Backend.evalBy_bind_ok (assertOwnPackage_eval hp e)]
  exact ⟨_, rfl, trousDeCouverture_answer hs p.agencyId packageId p.startDate (p.endDate + jourMs) e⟩

end OumraHajj.OnCall
