import OumraHajj.Async.Rely
import OumraHajj.Groups.Handlers
import OumraHajj.Services.Requests

/-!
# A guide and its groups

`assignGuide` asks whether the guide leads another group on the dates of the package, and writes later;
the dates of a package change with `update`. `UnSeul s`: no guide leads two groups whose dates overlap. It
is kept where the answer is still the same at the write, and no new dates meet those of another group of
the guide (`Disponible`).
-/

namespace OumraHajj.Groups

open Async

/-- The dates of the packages of the two groups overlap, the bounds included. -/
def Store.SeChevauchent (s : Store) (g g' : Group) : Prop :=
  ∃ p ∈ s.app.packages[g.packageId]?, ∃ p' ∈ s.app.packages[g'.packageId]?,
    Chevauche p.startDate p.endDate p'.startDate p'.endDate

/-- One guide leads both groups. -/
def MemeGuide (g g' : Group) : Prop := ∃ u ∈ g.guideId, g'.guideId = some u

instance (s : Store) (g g' : Group) : Decidable (s.SeChevauchent g g') :=
  inferInstanceAs (Decidable (∃ p ∈ s.app.packages[g.packageId]?, ∃ p' ∈ s.app.packages[g'.packageId]?,
    Chevauche p.startDate p.endDate p'.startDate p'.endDate))

instance (g g' : Group) : Decidable (MemeGuide g g') :=
  inferInstanceAs (Decidable (∃ u ∈ g.guideId, g'.guideId = some u))

/-- A guide leads one group at a time. -/
def UnSeul (s : Store) : Prop :=
  ∀ x ∈ s.groups.withIds, ∀ y ∈ s.groups.withIds, x.1 ≠ y.1 → MemeGuide x.2 y.2 →
    ¬ s.SeChevauchent x.2 y.2

/-- A group is for a package that exists. -/
def Rattaches (s : Store) : Prop := ∀ g ∈ s.groups, g.packageId < s.app.packages.length

instance (s : Store) : Decidable (UnSeul s) :=
  inferInstanceAs (Decidable (∀ x ∈ s.groups.withIds, ∀ y ∈ s.groups.withIds, _))

theorem Chevauche.symm {startDate endDate debut fin : Time} (h : Chevauche startDate endDate debut fin) :
    Chevauche debut fin startDate endDate := ⟨h.2, h.1⟩

theorem MemeGuide.symm {g g' : Group} (h : MemeGuide g g') : MemeGuide g' g := by
  obtain ⟨u, hu, hu'⟩ := h
  exact ⟨u, hu', hu⟩

theorem Store.SeChevauchent.symm {s : Store} {g g' : Group} (h : s.SeChevauchent g g') :
    s.SeChevauchent g' g := by
  obtain ⟨p, hp, p', hp', h⟩ := h
  exact ⟨p', hp', p, hp, h.symm⟩

/-! ## The conditions -/

/-- The dates of a package after an edit. -/
def periodeApres (s : Store) (id : PackageId) (data : Catalogue.PackageEdit) (packageId : PackageId) :
    Option Package :=
  (s.app.packages[packageId]?).map fun p => if packageId = id then data.apply p else p

/-- The group and the guide that a statement gives it. -/
def affecteGuide : Stmt → Option (GroupId × UserId)
  | .groupUpdate id guideId => some (id, guideId)
  | _ => none

/-- The package that a statement edits. -/
def edite : Catalogue.Stmt → Option (PackageId × Catalogue.PackageEdit)
  | .packageUpdate id data => some (id, data)
  | _ => none

/-- At the write of `assignGuide`, its query still finds no other group of the guide on the dates of the
package; an edit of a package gives it no dates that meet those of another group of one of its guides. -/
def Disponible : sig.Stmt → Store → Env → Prop
  | .inl (.inl _), _, _ => True
  | .inl (.inr c), s, _ =>
    ∀ d ∈ edite c, ∀ x ∈ s.groups.withIds, ∀ y ∈ s.groups.withIds, x.1 ≠ y.1 → x.2.packageId = d.1 →
      MemeGuide x.2 y.2 → ∀ p ∈ periodeApres s d.1 d.2 x.2.packageId,
        ∀ p' ∈ periodeApres s d.1 d.2 y.2.packageId,
          ¬ Chevauche p.startDate p.endDate p'.startDate p'.endDate
  | .inr c, s, e =>
    ∀ d ∈ affecteGuide c, ∀ g ∈ s.groups[d.1]?, ∀ p ∈ s.app.packages[g.packageId]?,
      (exec (.groupFindFirst d.2 d.1 p.startDate p.endDate) e s).1 = none

instance : (c : sig.Stmt) → (s : Store) → (e : Env) → Decidable (Disponible c s e)
  | .inl (.inl _), _, _ => isTrue trivial
  | .inl (.inr c), s, _ =>
    inferInstanceAs (Decidable (∀ d ∈ edite c, ∀ x ∈ s.groups.withIds, ∀ y ∈ s.groups.withIds,
      x.1 ≠ y.1 → x.2.packageId = d.1 → MemeGuide x.2 y.2 →
        ∀ p ∈ periodeApres s d.1 d.2 x.2.packageId, ∀ p' ∈ periodeApres s d.1 d.2 y.2.packageId,
          ¬ Chevauche p.startDate p.endDate p'.startDate p'.endDate))
  | .inr c, s, e =>
    inferInstanceAs (Decidable (∀ d ∈ affecteGuide c, ∀ g ∈ s.groups[d.1]?,
      ∀ p ∈ s.app.packages[g.packageId]?,
        (show Option String from (exec (.groupFindFirst d.2 d.1 p.startDate p.endDate) e s).1) = none))

/-! ## The statements -/

section Steps

variable {s s' : Store}

/-- The guides, and the dates of the packages of the groups, stay. -/
theorem UnSeul.frame (hs : UnSeul s)
    (hgroups : ∀ (i : GroupId) (g' : Group) (u : UserId), s'.groups[i]? = some g' →
      g'.guideId = some u → ∃ g : Group, s.groups[i]? = some g ∧ g.packageId = g'.packageId ∧
        g.guideId = some u)
    (hpackages : ∀ g ∈ s.groups, ∀ p', s'.app.packages[g.packageId]? = some p' →
      ∃ p, s.app.packages[g.packageId]? = some p ∧ p.startDate = p'.startDate ∧
        p.endDate = p'.endDate) : UnSeul s' := by
  rintro ⟨i, g₁'⟩ hx ⟨j, g₂'⟩ hy hne ⟨u, hu₁, hu₂⟩ ⟨p₁', hp₁', p₂', hp₂', hchevauche⟩
  obtain ⟨g₁, hg₁, hpackage₁, hguide₁⟩ := hgroups i g₁' u (Table.mem_withIds.mp hx) hu₁
  obtain ⟨g₂, hg₂, hpackage₂, hguide₂⟩ := hgroups j g₂' u (Table.mem_withIds.mp hy) hu₂
  obtain ⟨p₁, hp₁, hstart₁, hend₁⟩ :=
    hpackages g₁ (List.mem_iff_getElem?.mpr ⟨i, hg₁⟩) p₁' (hpackage₁ ▸ hp₁')
  obtain ⟨p₂, hp₂, hstart₂, hend₂⟩ :=
    hpackages g₂ (List.mem_iff_getElem?.mpr ⟨j, hg₂⟩) p₂' (hpackage₂ ▸ hp₂')
  refine hs (i, g₁) (Table.mem_withIds.mpr hg₁) (j, g₂) (Table.mem_withIds.mpr hg₂) hne
    ⟨u, hguide₁, hguide₂⟩ ⟨p₁, hp₁, p₂, hp₂, ?_⟩
  rwa [hstart₁, hend₁, hstart₂, hend₂]

/-- The offers of the packages stay. -/
theorem dates_of_offer {d d' : Db} (h : d'.packages.map Package.offer = d.packages.map Package.offer)
    {id : PackageId} {p' : Package} (hp' : d'.packages[id]? = some p') :
    ∃ p, d.packages[id]? = some p ∧ p.startDate = p'.startDate ∧ p.endDate = p'.endDate := by
  have hprefix : d'.packages.map Package.offer <+: d.packages.map Package.offer := h ▸ List.prefix_rfl
  obtain ⟨p, hp, hoffer⟩ := Table.get_of_map_prefix hprefix hp'
  have hstart : p.offer.startDate = p'.offer.startDate := congrArg Package.startDate hoffer
  have hend : p.offer.endDate = p'.offer.endDate := congrArg Package.endDate hoffer
  exact ⟨p, hp, hstart, hend⟩

/-- The guide has no other group on these dates. -/
theorem not_periode_of_query {u : UserId} {id : GroupId} {debut fin : Time} {e : Env}
    (h : (exec (.groupFindFirst u id debut fin) e s).1 = none) {j : GroupId} {g : Group}
    (hg : s.groups[j]? = some g) (hguide : g.guideId = some u) (hne : j ≠ id) :
    s.periode debut fin g = false := by
  have hfind := Option.map_eq_none_iff.mp h
  have hj := List.find?_eq_none.mp hfind (j, g) (Table.mem_withIds.mpr hg)
  by_contra hp
  exact hj (decide_eq_true ⟨hguide, hne, (Bool.not_eq_false _).mp hp⟩)

/-- A group gets a guide. -/
theorem UnSeul.groupUpdate (hs : UnSeul s) {id : GroupId} {u : UserId} {g : Group} {e : Env}
    (hg : s.groups[id]? = some g) (ho : Disponible (.inr (.groupUpdate id u)) s e) :
    UnSeul { s with groups := s.groups.set id { g with guideId := some u } } := by
  -- the group with its new guide, beside another group
  have hrow : ∀ {j g'}, s.groups[j]? = some g' → j ≠ id → g'.guideId = some u →
      ¬ s.SeChevauchent { g with guideId := some u } g' := by
    rintro j g' hg' hj hguide ⟨p, hp, p', hp', hchevauche⟩
    have hperiode := not_periode_of_query (ho _ rfl g hg p hp) hg' hguide hj
    rw [Store.periode, show s.app.packages[g'.packageId]? = some p' from hp', Option.any_some] at hperiode
    exact of_decide_eq_false hperiode hchevauche.symm
  rintro ⟨i, g₁⟩ hx ⟨j, g₂⟩ hy hne ⟨v, hv₁, hv₂⟩ hchevauche
  have hx := Table.mem_withIds.mp hx
  have hy := Table.mem_withIds.mp hy
  simp only [Table.get_set hg] at hx hy
  by_cases hi : id = i
  · rw [if_pos hi] at hx
    obtain rfl := Option.some.inj hx
    obtain rfl : u = v := Option.some.inj hv₁
    have hj : j ≠ id := fun hj => hne (hi.symm.trans hj.symm)
    rw [if_neg (Ne.symm hj)] at hy
    exact hrow hy hj hv₂ hchevauche
  · rw [if_neg hi] at hx
    by_cases hj : id = j
    · rw [if_pos hj] at hy
      obtain rfl := Option.some.inj hy
      obtain rfl : u = v := Option.some.inj hv₂
      exact hrow hx (Ne.symm hi) hv₁ (Store.SeChevauchent.symm hchevauche)
    · rw [if_neg hj] at hy
      exact hs (i, g₁) (Table.mem_withIds.mpr hx) (j, g₂) (Table.mem_withIds.mpr hy) hne ⟨v, hv₁, hv₂⟩
        hchevauche

/-- A package gets other dates. -/
theorem UnSeul.packageUpdate (hs : UnSeul s) {id : PackageId} {data : Catalogue.PackageEdit}
    {p : Package} {e : Env} (hp : s.app.packages[id]? = some p)
    (ho : Disponible (.inl (.inr (.packageUpdate id data))) s e) :
    UnSeul { s with app := { s.app with packages := s.app.packages.set id (data.apply p) } } := by
  have hdates : ∀ k, (s.app.packages.set id (data.apply p))[k]? = periodeApres s id data k := by
    intro k
    rw [Table.get_set hp, periodeApres]
    by_cases hk : id = k
    · rw [if_pos hk, ← hk, hp, Option.map_some, if_pos rfl]
    · simp only [if_neg hk, if_neg (Ne.symm hk), Option.map_id']
  rintro x hx y hy hne hguide ⟨p₁, hp₁, p₂, hp₂, hchevauche⟩
  have hp₁ : p₁ ∈ periodeApres s id data x.2.packageId := (hdates _).symm.trans hp₁
  have hp₂ : p₂ ∈ periodeApres s id data y.2.packageId := (hdates _).symm.trans hp₂
  by_cases hxid : x.2.packageId = id
  · exact ho _ rfl x hx y hy hne hxid hguide p₁ hp₁ p₂ hp₂ hchevauche
  by_cases hyid : y.2.packageId = id
  · exact ho _ rfl y hy x hx (Ne.symm hne) hyid hguide.symm p₂ hp₂ p₁ hp₁ hchevauche.symm
  · simp only [periodeApres, if_neg hxid, if_neg hyid, Option.map_id'] at hp₁ hp₂
    exact hs x hx y hy hne hguide ⟨p₁, hp₁, p₂, hp₂, hchevauche⟩

/-- The guides lead one group at a time, and the groups are for packages that exist. -/
def Guides (s : Store) : Prop := Rattaches s ∧ UnSeul s

/-- The groups and the dates of the packages stay. -/
theorem Guides.frame (hs : Guides s) (hgroups : s'.groups = s.groups)
    (hoffers : s'.app.packages.map Package.offer = s.app.packages.map Package.offer) : Guides s' := by
  have hlength : s'.app.packages.length = s.app.packages.length := by
    have hlength := congrArg List.length hoffers
    rwa [List.length_map, List.length_map] at hlength
  refine ⟨fun g hg => ?_, hs.2.frame (fun i g' u hg' hu => ?_) fun g _ p' => dates_of_offer hoffers⟩
  · rw [hlength]
    exact hs.1 g (hgroups ▸ hg)
  · exact ⟨g', hgroups ▸ hg', rfl, hu⟩

theorem Guides.exec_groups (hs : Guides s) {c : Stmt} {e : Env} (ho : Disponible (.inr c) s e) :
    Guides (exec c e s).2 := by
  cases c
  case groupCreate packageId agencyId title =>
    simp only [exec]
    split
    · next p _ hp _ =>
      refine ⟨fun g hg => ?_, hs.2.frame (fun i g' u hg' hu => ?_) fun _ _ p' hp' => ⟨p', hp', rfl, rfl⟩⟩
      · rcases List.mem_append.mp hg with hg | hg
        · exact hs.1 g hg
        · obtain rfl := List.mem_singleton.mp hg
          exact Table.lt_of_get hp
      · rw [Table.get_append] at hg'
        split at hg'
        · obtain rfl := Option.some.inj hg'
          cases hu
        · exact ⟨g', hg', rfl, hu⟩
    · exact hs
  case groupUpdate id guideId =>
    simp only [exec]
    split
    · next g _ hg _ =>
      refine ⟨fun g' hg' => ?_, hs.2.groupUpdate hg ho⟩
      obtain ⟨i, hi⟩ := List.mem_iff_getElem?.mp hg'
      rw [Table.get_set hg] at hi
      split at hi
      · obtain rfl := Option.some.inj hi
        exact hs.1 g (List.mem_iff_getElem?.mpr ⟨id, hg⟩)
      · exact hs.1 g' (List.mem_iff_getElem?.mpr ⟨i, hi⟩)
    · exact hs
    · exact hs
  case groupMemberCreate groupId userId =>
    simp only [exec]
    split
    · split
      · exact hs
      · exact hs.frame rfl rfl
    · exact hs
  all_goals first
    | exact hs
    | exact hs.frame rfl rfl
    | simp only [exec]
      split <;> exact hs

theorem Guides.exec_catalogue (hs : Guides s) {c : Catalogue.Stmt} {e : Env}
    (ho : Disponible (.inl (.inr c)) s e) : Guides (backend.exec (.inl (.inr c)) e s).2 := by
  show Guides { s with app := (Catalogue.exec c s.app).2 }
  cases c
  case agencyFindUnique => exact hs
  case packageCreate data =>
    simp only [Catalogue.exec]
    split
    · refine ⟨fun g hg => ?_, hs.2.frame (fun i g' u hg' hu => ⟨g', hg', rfl, hu⟩) fun g hg p' hp' => ?_⟩
      · show g.packageId < (s.app.packages ++ [data]).length
        rw [List.length_append]
        exact Nat.lt_add_right _ (hs.1 g hg)
      · refine ⟨p', ?_, rfl, rfl⟩
        rwa [show (s.app.packages ++ [data])[g.packageId]? = s.app.packages[g.packageId]? from
          List.getElem?_append_left (hs.1 g hg)] at hp'
    · exact hs
  case packageUpdate id data =>
    simp only [Catalogue.exec]
    split
    · next p hp =>
      refine ⟨fun g hg => ?_, hs.2.packageUpdate hp ho⟩
      show g.packageId < (s.app.packages.set id (data.apply p)).length
      rw [List.length_set]
      exact hs.1 g hg
    · exact hs
  case refundPolicyTierReplace agencyId data =>
    rw [Catalogue.exec, Catalogue.replaceTiers]
    split
    · exact hs.frame rfl rfl
    · exact hs

/-- The invariant, whatever the other handlers do. -/
def guidesRely : Rely Store where
  inv := Guides
  le _ _ := True
  refl _ := trivial
  trans _ _ _ _ _ := trivial

theorem guides_step (c : sig.Stmt) : guidesRely.Step backend Disponible c := by
  refine fun s e hs ho => ⟨?_, trivial⟩
  rcases c with (c | c) | c
  · exact Guides.frame hs rfl (exec_offer c e s.app)
  · exact Guides.exec_catalogue hs ho
  · exact Guides.exec_groups hs ho

end Steps

/-- **One group at a time.** Whatever requests run at once, no guide leads two groups on dates that
overlap, where each guide is still available when it is assigned, and no edit of a package moves it onto
the dates of another group of its guide. -/
theorem guide_leads_one {ι : Type} [DecidableEq ι] (requests : ι → Request) {s : Store}
    (hfk : Rattaches s) (h₀ : UnSeul s) {c : Pool sig ι Store Erreur Unit}
    (hr : Pool.Reach backend (Rely.cond Disponible) (poolOf requests s) c) : UnSeul c.st := by
  have hs : guidesRely.inv (poolOf requests s).st := ⟨hfk, h₀⟩
  exact (Rely.reach_of_step hs guides_step hr).1.2

/-! ## Runs on fixed inputs -/

/-- A guide (user 2) of the agency, and a group for each of two packages. -/
private def deuxForfaits (debut : Time) : Store where
  app := { Db.exemple with
    users := [{ fullName := "Pèlerin" }, { fullName := "Gérante" },
      { fullName := "Guide", role := .guide, agencyId := some 0 }]
    packages :=
      [{ agencyId := 0, type := .oumra, title := "Oumra", startDate := 0, endDate := 10, price := 100
         capacity := 1 },
       { agencyId := 0, type := .oumra, title := "Oumra", startDate := debut, endDate := debut + 10
         price := 100, capacity := 1 }] }
  groups :=
    [{ packageId := 0, agencyId := 0, title := "Premier" }, { packageId := 1, agencyId := 0, title := "Second" }]

/-- The agency assigns the guide to both groups. -/
private def affectations : Fin 2 → Request
  | 0 => .assignGuide 1 0 2
  | 1 => .assignGuide 1 1 2

/-- The two requests check the guide before they assign it. -/
private def enMemeTemps (debut : Time) : Pool sig (Fin 2) Store Erreur Unit :=
  Pool.run backend (turns (n := 1) [0, 1, 0, 1, 0, 1, 0, 1, 0, 1, 0, 1, 0, 1])
    (poolOf affectations (deuxForfaits debut))

private theorem deuxForfaits_rattaches (debut : Time) : Rattaches (deuxForfaits debut) := by
  intro g hg
  rcases List.mem_cons.mp hg with rfl | hg
  · exact Nat.zero_lt_two
  · obtain rfl := List.mem_singleton.mp hg
    exact Nat.one_lt_two

/-- One package after the other. -/
theorem guide_leads_one_suite : (enMemeTemps 20).st.groups.map (·.guideId) = [some 2, some 2] ∧
    UnSeul (enMemeTemps 20).st := by
  refine ⟨by decide +kernel, ?_⟩
  refine guide_leads_one affectations (deuxForfaits_rattaches 20) (by decide +kernel)
    (Pool.Allowed.reach ?_ .refl)
  decide +kernel

/-- Two packages at once: neither request sees the assignment of the other. -/
theorem guide_leads_two :
    ¬ ∀ (requests : Fin 2 → Request) (s : Store) (c : Pool sig (Fin 2) Store Erreur Unit), Rattaches s →
      UnSeul s → Pool.Reach backend (fun _ _ _ _ => True) (poolOf requests s) c → UnSeul c.st := by
  intro h
  have hreach : Pool.Reach backend (fun _ _ _ _ => True) (poolOf affectations (deuxForfaits 5))
      (enMemeTemps 5) := Pool.Allowed.reach (by decide +kernel) .refl
  exact absurd (h _ _ _ (deuxForfaits_rattaches 5) (by decide +kernel) hreach) (by decide +kernel)

end OumraHajj.Groups
