import OumraHajj.Common.Calendar
import OumraHajj.Planning.Service

/-!
# The conflicts of a planning

The days of an entry go from that of its start to that of its end. `conflits` compares instants: it is
`Exact`, each pair of entries with a day in common once, if and only if no entry starts on the day on which
another one has ended (`conflits_exact_iff`). An absence ends after it starts, whatever requests run
(`handler_ordonne`).
-/

namespace OumraHajj.Planning

variable {a b : PlanningEntryShape} {es : List PlanningEntryShape}

/-- The day is one of the entry, bounds included. -/
def PlanningEntryShape.Couvre (e : PlanningEntryShape) (jour : Int) : Prop :=
  jourDe e.startDate ≤ jour ∧ jour ≤ jourDe e.endDate

/-- The entries have a day in common. -/
def JourCommun (a b : PlanningEntryShape) : Prop := ∃ jour, a.Couvre jour ∧ b.Couvre jour

theorem JourCommun.symm (h : JourCommun a b) : JourCommun b a := by
  obtain ⟨jour, ha, hb⟩ := h
  exact ⟨jour, hb, ha⟩

theorem jourCommun_iff : JourCommun a b ↔
    max (jourDe a.startDate) (jourDe b.startDate) ≤ min (jourDe a.endDate) (jourDe b.endDate) := by
  constructor
  · rintro ⟨jour, ha, hb⟩
    exact (max_le ha.1 hb.1).trans (le_min ha.2 hb.2)
  · intro h
    exact ⟨_, ⟨le_max_left _ _, h.trans (min_le_left _ _)⟩, ⟨le_max_right _ _, h.trans (min_le_right _ _)⟩⟩

instance (a b : PlanningEntryShape) : Decidable (JourCommun a b) := decidable_of_iff _ jourCommun_iff.symm

/-- The conflict names the entries, and its range has their common days. -/
structure Signale (a b : PlanningEntryShape) (c : PlanningConflictShape) : Prop where
  firstId : c.firstId = a.id
  secondId : c.secondId = b.id
  jours : ∀ jour, jourDe c.startDate ≤ jour ∧ jour ≤ jourDe c.endDate ↔ a.Couvre jour ∧ b.Couvre jour

/-- Each entry with each one after it. -/
def paires {α : Type} : List α → List (α × α)
  | [] => []
  | a :: l => l.map (fun b => (a, b)) ++ paires l

/-- Each pair of entries with a day in common is reported once, and no other. -/
def Exact (es : List PlanningEntryShape) (cs : List PlanningConflictShape) : Prop :=
  ∃ cs' : List PlanningConflictShape, cs'.Perm cs ∧ List.Forall₂ (fun x c => Signale x.1 x.2 c)
    ((paires es).filter fun x => JourCommun x.1 x.2) cs'

/-- `b` starts after `a` has ended, on the same day. -/
def SuitLeMemeJour (a b : PlanningEntryShape) : Prop :=
  a.endDate < b.startDate ∧ jourDe a.endDate = jourDe b.startDate

instance (a b : PlanningEntryShape) : Decidable (SuitLeMemeJour a b) :=
  inferInstanceAs (Decidable (_ ∧ _))

/-! ## Pairs -/

theorem forall_paires {α : Type} {R : α → α → Prop} {l : List α} :
    (∀ x ∈ paires l, R x.1 x.2) ↔ l.Pairwise R := by
  induction l with
  | nil => simp [paires]
  | cons a l ih =>
    rw [paires, List.forall_mem_append, List.forall_mem_map, ih, List.pairwise_cons]

theorem mem_of_mem_paires {α : Type} {l : List α} {x : α × α} (h : x ∈ paires l) : x.1 ∈ l ∧ x.2 ∈ l := by
  induction l with
  | nil => exact absurd h List.not_mem_nil
  | cons a l ih =>
    rcases List.mem_append.mp h with h | h
    · obtain ⟨b, hb, rfl⟩ := List.mem_map.mp h
      exact ⟨List.mem_cons_self, List.mem_cons_of_mem _ hb⟩
    · exact ⟨List.mem_cons_of_mem _ (ih h).1, List.mem_cons_of_mem _ (ih h).2⟩

/-- The conflicts are those of the pairs that overlap. -/
theorem conflits_paires (es : List PlanningEntryShape) :
    conflits es = ((paires es).filter fun x => chevauche x.1 x.2).map fun x => conflit x.1 x.2 := by
  induction es with
  | nil => rfl
  | cons a reste ih =>
    rw [conflits, paires, List.filter_append, List.map_append, ih, List.filter_map, List.map_map]
    rfl

/-! ## One pair -/

/-- **The range has the common days.** -/
theorem signale_conflit (a b : PlanningEntryShape) : Signale a b (conflit a b) := by
  refine ⟨rfl, rfl, fun jour => ?_⟩
  have hstart : (conflit a b).startDate = max a.startDate b.startDate := by
    show (if a.startDate > b.startDate then a.startDate else b.startDate) = _
    split
    · next h => exact (max_eq_left h.le).symm
    · next h => exact (max_eq_right (not_lt.mp h)).symm
  have hend : (conflit a b).endDate = min a.endDate b.endDate := by
    show (if a.endDate < b.endDate then a.endDate else b.endDate) = _
    split
    · next h => exact (min_eq_left h.le).symm
    · next h => exact (min_eq_right (not_lt.mp h)).symm
  have hmono : Monotone jourDe := fun _ _ => jourDe_mono
  rw [hstart, hend, hmono.map_max, hmono.map_min, max_le_iff, le_min_iff]
  exact and_and_and_comm

theorem jourCommun_of_chevauche (h : chevauche a b = true) (ha : a.startDate ≤ a.endDate)
    (hb : b.startDate ≤ b.endDate) : JourCommun a b := by
  obtain ⟨h₁, h₂⟩ := of_decide_eq_true h
  refine jourCommun_iff.mpr (max_le (le_min (jourDe_mono ha) (jourDe_mono h₁)) ?_)
  exact le_min (jourDe_mono h₂) (jourDe_mono hb)

/-- **Entries with a day in common overlap, unless one ends before the other starts on that day.** -/
theorem chevauche_iff (h : JourCommun a b) :
    chevauche a b = true ↔ ¬ SuitLeMemeJour a b ∧ ¬ SuitLeMemeJour b a := by
  have hdays := jourCommun_iff.mp h
  have hab : jourDe b.startDate ≤ jourDe a.endDate := (le_max_right _ _).trans (hdays.trans (min_le_left _ _))
  have hba : jourDe a.startDate ≤ jourDe b.endDate := (le_max_left _ _).trans (hdays.trans (min_le_right _ _))
  unfold chevauche SuitLeMemeJour
  rw [decide_eq_true_iff]
  constructor
  · rintro ⟨h₁, h₂⟩
    exact ⟨fun hs => absurd hs.1 h₂.not_gt, fun hs => absurd hs.1 h₁.not_gt⟩
  · rintro ⟨hs₁, hs₂⟩
    constructor
    · by_contra! hlt
      exact hs₂ ⟨hlt, le_antisymm (jourDe_mono hlt.le) hba⟩
    · by_contra! hlt
      exact hs₁ ⟨hlt, le_antisymm (jourDe_mono hlt.le) hab⟩

theorem jourCommun_of_suit (ha : a.startDate ≤ a.endDate) (hb : b.startDate ≤ b.endDate)
    (h : SuitLeMemeJour a b) : JourCommun a b :=
  ⟨jourDe b.startDate, ⟨(jourDe_mono ha).trans h.2.le, h.2.ge⟩, le_refl _, jourDe_mono hb⟩

/-! ## The list -/

/-- The pairs that overlap are among those with a day in common. -/
theorem chevauche_sublist (h : ∀ e ∈ es, e.startDate ≤ e.endDate) :
    ((paires es).filter fun x => chevauche x.1 x.2).Sublist
      ((paires es).filter fun x => JourCommun x.1 x.2) := by
  have hfilter : (paires es).filter (fun x => chevauche x.1 x.2) =
      ((paires es).filter fun x => JourCommun x.1 x.2).filter fun x => chevauche x.1 x.2 := by
    rw [List.filter_filter]
    refine List.filter_congr fun x hx => ?_
    obtain ⟨h₁, h₂⟩ := mem_of_mem_paires hx
    by_cases hc : chevauche x.1 x.2 = true
    · simp [hc, jourCommun_of_chevauche hc (h _ h₁) (h _ h₂)]
    · simp [hc]
  rw [hfilter]
  exact List.filter_sublist

/-- **When the conflicts are exactly the shared days**: no entry starts on the day on which another one has
ended, after it. -/
theorem conflits_exact_iff (h : ∀ e ∈ es, e.startDate ≤ e.endDate) :
    Exact es (conflits es) ↔ es.Pairwise fun a b => ¬ SuitLeMemeJour a b ∧ ¬ SuitLeMemeJour b a := by
  constructor
  · rintro ⟨cs', hperm, hsignale⟩
    -- As many pairs overlap as have a day in common, so they are the same.
    have hlength : ((paires es).filter fun x => chevauche x.1 x.2).length =
        ((paires es).filter fun x => JourCommun x.1 x.2).length := by
      rw [hsignale.length_eq, hperm.length_eq, conflits_paires, List.length_map]
    have hsame := (chevauche_sublist h).eq_of_length hlength
    have hchevauche : ∀ x ∈ paires es, JourCommun x.1 x.2 → chevauche x.1 x.2 = true := by
      intro x hx hjour
      have hmem : x ∈ (paires es).filter fun x => JourCommun x.1 x.2 :=
        List.mem_filter.mpr ⟨hx, decide_eq_true hjour⟩
      rw [← hsame] at hmem
      exact (List.mem_filter.mp hmem).2
    refine forall_paires.mp fun x hx => ⟨fun hsuit => ?_, fun hsuit => ?_⟩
    · obtain ⟨h₁, h₂⟩ := mem_of_mem_paires hx
      have hjour := jourCommun_of_suit (h _ h₁) (h _ h₂) hsuit
      exact ((chevauche_iff hjour).mp (hchevauche x hx hjour)).1 hsuit
    · obtain ⟨h₁, h₂⟩ := mem_of_mem_paires hx
      have hjour := (jourCommun_of_suit (h _ h₂) (h _ h₁) hsuit).symm
      exact ((chevauche_iff hjour).mp (hchevauche x hx hjour)).2 hsuit
  · intro hdistincts
    have hsame : (paires es).filter (fun x => JourCommun x.1 x.2) =
        (paires es).filter fun x => chevauche x.1 x.2 := by
      refine List.filter_congr fun x hx => ?_
      obtain ⟨h₁, h₂⟩ := mem_of_mem_paires hx
      by_cases hjour : JourCommun x.1 x.2
      · simp [hjour, (chevauche_iff hjour).mpr (forall_paires.mpr hdistincts x hx)]
      · have hnot : ¬ chevauche x.1 x.2 = true :=
          fun hc => hjour (jourCommun_of_chevauche hc (h _ h₁) (h _ h₂))
        simp [hjour, hnot]
    refine ⟨_, .refl _, ?_⟩
    rw [hsame, conflits_paires, List.forall₂_map_right_iff, List.forall₂_same]
    exact fun x _ => signale_conflit x.1 x.2

/-- A trip to the 10th of December, and an absence from the 10th at eight o'clock. -/
def entreesDuDix : List PlanningEntryShape :=
  [{ kind := .group, id := 0, label := "G1", packageTitle := some "Oumra"
     startDate := minuit (daysFromCivil 2026 12 1), endDate := minuit (daysFromCivil 2026 12 10) },
   { kind := .unavailability, id := 0, label := "Congé"
     startDate := minuit (daysFromCivil 2026 12 10) + 28800000
     endDate := minuit (daysFromCivil 2026 12 12) }]

/-- The same absence, from midnight. -/
def entreesDeMinuit : List PlanningEntryShape :=
  entreesDuDix.map fun e => { e with startDate := minuit (jourDe e.startDate) }

theorem conflits_exact_minuit : Exact entreesDeMinuit (conflits entreesDeMinuit) :=
  (conflits_exact_iff (by decide)).mpr (by decide)

/-- **The planning misses a shared day**: the 10th of December. -/
theorem conflits_du_dix : ¬ ∀ es : List PlanningEntryShape, (∀ e ∈ es, e.startDate ≤ e.endDate) →
    Exact es (conflits es) := by
  intro h
  obtain ⟨cs', hperm, hsignale⟩ := h entreesDuDix (by decide)
  have hnone : conflits entreesDuDix = [] := by decide
  rw [hnone] at hperm
  have hpair : ((paires entreesDuDix).filter fun x => JourCommun x.1 x.2).length = 1 := by decide
  rw [hsignale.length_eq, hperm.length_eq] at hpair
  cases hpair

/-! ## The entries of a planning -/

open Async

/-- The absences end after they start. -/
def Store.Ordonne (s : Store) : Prop := ∀ a, some a ∈ s.guideUnavailabilities → a.startDate ≤ a.endDate

/-- The absence that the statement records ends after it starts. -/
def Verifie : sig.Stmt → Prop
  | .inr (.guideUnavailabilityCreate data) => data.startDate ≤ data.endDate
  | _ => True

theorem exec_ordonne {s : Store} {c : sig.Stmt} (hc : Verifie c) (e : Env) (hs : s.Ordonne) :
    (backend.exec c e s).2.Ordonne := by
  rcases c with c | c
  · exact hs
  · cases c with
    | userFindManyGuides agencyId => exact hs
    | groupFindMany ids debut fin => exact hs
    | guideUnavailabilityFindMany ids debut fin => exact hs
    | guideUnavailabilityCreate data =>
      simp only [backend, exec]
      split
      · intro a ha
        rcases List.mem_append.mp ha with ha | ha
        · exact hs a ha
        · obtain rfl : a = data := by simpa using ha
          exact hc
      · exact hs
    | guideUnavailabilityDeleteMany id agencyId =>
      simp only [backend, exec]
      split
      · split
        · intro a ha
          rcases List.mem_or_eq_of_mem_set ha with ha | ha
          · exact hs a ha
          · cases ha
        · exact hs
      · exact hs

theorem app_verifie {α : Type} (p : OumraHajj.Req α) : (p.left : Req α).Uses Verifie :=
  Prog.uses_left (fun _ => trivial) p

theorem plannings_verifie (guides : List (UserId × String)) (f : Fenetre) :
    (GuidePlanningService.plannings guides f).Uses Verifie := by
  unfold GuidePlanningService.plannings
  by_cases h : (guides.map (·.1)).length = 0
  · rw [if_pos h]
    trivial
  · rw [if_neg h]
    exact ⟨trivial, fun groupes => ⟨trivial, fun absences => trivial⟩⟩

/-- The requests that change the absences. -/
inductive AbsenceRequest where
  | addUnavailability (ownerId : UserId) (dto : CreateUnavailabilityDto)
  | deleteUnavailability (ownerId : UserId) (id : UnavailabilityId)

/-- The handler of a request, without the value that it returns. -/
def handler : AbsenceRequest → Req Unit
  | .addUnavailability ownerId dto => (GuidePlanningService.addUnavailability ownerId dto).void
  | .deleteUnavailability ownerId id => GuidePlanningService.deleteUnavailability ownerId id

theorem handler_verifie (q : AbsenceRequest) : (handler q).Uses Verifie := by
  cases q with
  | addUnavailability ownerId dto =>
    refine Prog.Uses.void ((app_verifie _).bind fun agence => Prog.uses_left_exec_bind trivial fun guide => ?_)
    split
    · trivial
    · split
      · trivial
      · split
        · trivial
        · next hordre =>
          refine ⟨not_lt.mp hordre, fun r => ?_⟩
          rcases r with code | ⟨⟩
          · trivial
          · refine (plannings_verifie _ _).bind fun schedules => ?_
            rcases schedules with - | ⟨planning, schedules⟩ <;> trivial
  | deleteUnavailability ownerId id =>
    refine (app_verifie _).bind fun agence => ⟨trivial, fun (count : Nat) => ?_⟩
    show Prog.Uses Verifie (if count = 0 then _ else _)
    split <;> trivial

/-- **Absences end after they start**, in every state of a run of requests. -/
theorem handler_ordonne {q : AbsenceRequest} {s s' : Store} {r : Except Erreur Unit} (hs : s.Ordonne)
    (h : backend.Runs (handler q) s r s') : s'.Ordonne :=
  Backend.Runs.frame (R := fun s s' => s.Ordonne → s'.Ordonne) (fun _ => id)
    (fun _ _ _ h₁ h₂ hs => h₂ (h₁ hs)) (fun _ hc e _ => exec_ordonne hc e) (handler_verifie q) h hs

/-- The entries of a planning end after they start, as its groups and its absences do. -/
theorem planning_ordonne {groupes : List GroupeRow} {absences : List AbsenceRow}
    (hgroupes : ∀ gr ∈ groupes, gr.startDate ≤ gr.endDate)
    (habsences : ∀ x ∈ absences, x.absence.startDate ≤ x.absence.endDate) (g : UserId × String) :
    ∀ e ∈ (planning groupes absences g).entries, e.startDate ≤ e.endDate := by
  intro e he
  rcases List.mem_append.mp ((List.mem_insertionSort _).mp he) with he | he
  · obtain ⟨gr, hgr, rfl⟩ := List.mem_map.mp he
    exact hgroupes gr (List.mem_filter.mp hgr).1
  · obtain ⟨x, hx, rfl⟩ := List.mem_map.mp he
    exact habsences x (List.mem_filter.mp hx).1

end OumraHajj.Planning
