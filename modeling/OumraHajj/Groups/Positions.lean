import OumraHajj.Groups.Attaches

/-!
# Shared positions

`GroupsService.updateLocation`, `triggerLostAlert`, `clearLocation` and `findAuthorizedOrFail`
(`src/modules/groups/groups.service.ts`), whatever requests run at once. A position is sensitive: it is shared by
choice, and not kept once the sharing has stopped.

* `positions_shared`: a user has at most one position in a group, it is where a request of his own has put him,
  and he is a member of the group or a guide of its agency. The positions are shown to the group and its agency.
* `positions_cleared`: nobody moves or erases the position of another, and a request that stops the sharing
  erases it for good, where no request of the user that shares it is still running.
-/

namespace OumraHajj.Groups

open Async

/-- The unique index: the group and the user of a position. -/
def GroupMemberLocation.cle (l : GroupMemberLocation) : GroupId × UserId := (l.groupId, l.userId)

/-- A member of the group, or a guide of its agency. -/
def Store.DuGroupe (s : Store) (groupId : GroupId) (userId : UserId) : Prop :=
  ⟨groupId, userId⟩ ∈ s.groupMembers ∨ ∃ a, s.agenceDe groupId = some a ∧ s.GuideDe userId a

/-- The position was there, or it is what a request of its user shares. -/
def Venue (P : Request → Prop) (s₀ : Store) (l : GroupMemberLocation) : Prop :=
  l ∈ s₀.groupMemberLocations ∨ ∃ q, P q ∧ q.position = some (l.groupId, l.userId, l.lat, l.lng)

/-- The positions of a state that requests `P` have reached from the state `s₀`. -/
structure Partagees (P : Request → Prop) (s₀ s : Store) : Prop where
  unique : (s.groupMemberLocations.map (·.cle)).Nodup
  sources : ∀ l ∈ s.groupMemberLocations, Venue P s₀ l
  membres : ∀ l ∈ s.groupMemberLocations, s.DuGroupe l.groupId l.userId

/-- The position that is shown: of one of the group, and where a request of his own has put him. -/
def Vue (P : Request → Prop) (s₀ s : Store) (groupId : GroupId) (x : MemberLocationShape) : Prop :=
  ∃ l u, Venue P s₀ l ∧ l.groupId = groupId ∧ s.DuGroupe groupId l.userId ∧ s.app.users[l.userId]? = some u ∧
    x = ⟨l.userId, u.fullName, l.lat, l.lng, l.updatedAt⟩

/-- The positions that a group shows. -/
structure Vues (P : Request → Prop) (s₀ s : Store) (groupId : GroupId) (group : GroupShape) : Prop where
  unique : (group.locations.map (·.userId)).Nodup
  positions : ∀ x ∈ group.locations, Vue P s₀ s groupId x

section Upsert

variable {rows : List GroupMemberLocation} {l : GroupMemberLocation} {groupId : GroupId} {userId : UserId}

theorem dePlace_iff : Store.dePlace groupId userId l = true ↔ l.cle = (groupId, userId) := by
  simp only [Store.dePlace, GroupMemberLocation.cle, decide_eq_true_eq, Prod.mk.injEq]

theorem mem_upsert {x : GroupMemberLocation} (hx : x ∈ Store.upsert rows l) : x = l ∨ x ∈ rows := by
  unfold Store.upsert at hx
  split at hx
  · obtain ⟨y, hy, rfl⟩ := List.mem_map.mp hx
    split
    · exact .inl rfl
    · exact .inr hy
  · rcases List.mem_append.mp hx with hx | hx
    · exact .inr hx
    · exact .inl (List.mem_singleton.mp hx)

/-- The position is moved, so its key is there already, or it is a new key. -/
theorem upsert_nodup (h : (rows.map (·.cle)).Nodup) : ((Store.upsert rows l).map (·.cle)).Nodup := by
  unfold Store.upsert
  split
  · have hmap : (rows.map fun x => if Store.dePlace l.groupId l.userId x then l else x).map (·.cle) =
        rows.map (·.cle) := by
      rw [List.map_map]
      refine List.map_congr_left fun x _ => ?_
      simp only [Function.comp_apply]
      split
      · next hx => exact (dePlace_iff.mp hx).symm
      · rfl
    exact hmap ▸ h
  · next hnew =>
    rw [List.map_append]
    refine List.nodup_append.mpr ⟨h, List.nodup_singleton _, fun k hk k' hk' => ?_⟩
    obtain ⟨x, hx, rfl⟩ := List.mem_map.mp hk
    obtain rfl := List.mem_singleton.mp hk'
    exact fun heq => hnew (List.any_eq_true.mpr ⟨x, hx, dePlace_iff.mpr heq⟩)

/-- The position of another user, or in another group. -/
theorem upsert_filter (hl : l.cle ≠ (groupId, userId)) :
    (Store.upsert rows l).filter (Store.dePlace groupId userId) =
      rows.filter (Store.dePlace groupId userId) := by
  have hnot : ¬Store.dePlace groupId userId l = true := mt dePlace_iff.mp hl
  unfold Store.upsert
  split
  · clear * - hnot
    induction rows with
    | nil => rfl
    | cons x rows ih =>
      rw [List.map_cons, List.filter_cons, List.filter_cons, ih]
      split
      · next hx =>
        have hne : ¬Store.dePlace groupId userId x = true := by
          rw [dePlace_iff] at hx hnot ⊢
          exact fun h => hnot (hx.symm.trans h)
        rw [if_neg hne]
      · rfl
  · rw [List.filter_append, List.filter_cons_of_neg hnot, List.filter_nil, List.append_nil]

theorem delete_filter {groupId' : GroupId} {userId' : UserId} (hne : (groupId', userId') ≠ (groupId, userId)) :
    (rows.filter fun l => !Store.dePlace groupId' userId' l).filter (Store.dePlace groupId userId) =
      rows.filter (Store.dePlace groupId userId) := by
  rw [List.filter_filter]
  refine List.filter_congr fun l _ => ?_
  by_cases hl : Store.dePlace groupId userId l = true
  · have hnot : ¬Store.dePlace groupId' userId' l = true := by
      rw [dePlace_iff] at hl ⊢
      exact fun h => hne (h.symm.trans hl)
    simp only [hl, hnot, Bool.not_false, Bool.and_true]
  · simp only [hl, Bool.false_and]

end Upsert

/-! ## The invariant -/

section Invariant

variable {P : Request → Prop} {s₀ s s' : Store}

theorem Store.DuGroupe.constant {groupId : GroupId} {userId : UserId} (h : s.DuGroupe groupId userId)
    (hc : Constant s s') : s'.DuGroupe groupId userId := by
  rcases h with hm | ⟨a, ha, hu⟩
  · exact .inl (hc.members hm)
  · exact .inr ⟨a, hc.agenceDe ha, hc.guideDe hu⟩

/-- Positions are at most erased. -/
theorem Partagees.sublist (h : Partagees P s₀ s) (hc : Constant s s')
    (hrows : s'.groupMemberLocations.Sublist s.groupMemberLocations) : Partagees P s₀ s' :=
  ⟨(hrows.map _).nodup h.unique, fun l hl => h.sources l (hrows.subset hl),
    fun l hl => (h.membres l (hrows.subset hl)).constant hc⟩

theorem Vues.constant {groupId : GroupId} {group : GroupShape} (h : Vues P s₀ s groupId group)
    (hc : Constant s s') : Vues P s₀ s' groupId group := by
  refine ⟨h.unique, fun x hx => ?_⟩
  obtain ⟨l, u, hvenue, hgroup, hde, hu, hx⟩ := h.positions x hx
  exact ⟨l, u, hvenue, hgroup, hde.constant hc, get_of_grown hc.users hu, hx⟩

/-- The positions whose user exists. -/
theorem map_locations (s : Store) (groupId : GroupId) (g : Group) :
    (toGroupShape (s.record groupId g)).locations.map (·.userId) =
      ((s.groupMemberLocations.filter (·.groupId = groupId)).filter
        fun l => (s.app.users[l.userId]?).isSome).map (·.userId) := by
  show List.map _ (List.map _ (List.filterMap _ _)) = _
  rw [List.map_map, List.map_filterMap]
  induction s.groupMemberLocations.filter (·.groupId = groupId) with
  | nil => rfl
  | cons l rows ih =>
    rcases hu : s.app.users[l.userId]? with _ | u
    · rw [List.filterMap_cons_none (by rw [hu]; rfl), List.filter_cons_of_neg (by rw [hu]; simp), ih]
    · rw [List.filterMap_cons_some (by rw [hu]; rfl), List.filter_cons_of_pos (by rw [hu]; rfl), ih]
      rfl

/-- The positions of a group that is read. -/
theorem Partagees.vues (h : Partagees P s₀ s) (groupId : GroupId) (g : Group) :
    Vues P s₀ s groupId (toGroupShape (s.record groupId g)) := by
  refine ⟨?_, fun x hx => ?_⟩
  · have hkeys : (((s.groupMemberLocations.filter (·.groupId = groupId)).map (·.userId)).map
        fun u => (groupId, u)).Nodup := by
      have hmap : ((s.groupMemberLocations.filter (·.groupId = groupId)).map (·.userId)).map
          (fun u => (groupId, u)) = (s.groupMemberLocations.filter (·.groupId = groupId)).map (·.cle) := by
        rw [List.map_map]
        refine List.map_congr_left fun l hl => ?_
        have hgroup : l.groupId = groupId := by simpa using (List.mem_filter.mp hl).2
        exact Prod.ext hgroup.symm rfl
      exact hmap ▸ (List.filter_sublist.map _).nodup h.unique
    rw [map_locations]
    exact (List.filter_sublist.map _).nodup (List.Nodup.of_map _ hkeys)
  · obtain ⟨⟨l, fullName⟩, hl, rfl⟩ := List.mem_map.mp hx
    obtain ⟨l', hl', hname⟩ := List.mem_filterMap.mp hl
    obtain ⟨u, hu, heq⟩ := Option.map_eq_some_iff.mp hname
    obtain ⟨rfl, rfl⟩ := Prod.mk.inj heq
    obtain ⟨hmem, hgroup⟩ := List.mem_filter.mp hl'
    replace hgroup : l'.groupId = groupId := by simpa using hgroup
    exact ⟨l', u, h.sources l' hmem, hgroup, hgroup ▸ h.membres l' hmem, hu, rfl⟩

/-- A request of one of the group shares his position. -/
theorem Partagees.upsert (h : Partagees P s₀ s) {q : Request} {l : GroupMemberLocation} (hP : P q)
    (hq : q.position = some (l.groupId, l.userId, l.lat, l.lng)) (hl : s.DuGroupe l.groupId l.userId) :
    Partagees P s₀ { s with groupMemberLocations := Store.upsert s.groupMemberLocations l } := by
  have hc : Constant s { s with groupMemberLocations := Store.upsert s.groupMemberLocations l } :=
    Evolue.constant (.of_eq rfl rfl rfl)
  refine ⟨upsert_nodup h.unique, fun x hx => ?_, fun x hx => ?_⟩
  · rcases mem_upsert hx with rfl | hx
    · exact .inr ⟨q, hP, hq⟩
    · exact h.sources x hx
  · rcases mem_upsert hx with rfl | hx
    · exact hl.constant hc
    · exact (h.membres x hx).constant hc

/-- The statement shares no position. -/
def SansPosition : sig.Stmt → Prop
  | .inr (.groupMemberLocationUpsert _ _ _ _) => False
  | _ => True

theorem Consulte.sansPosition {c : sig.Stmt} (hc : Consulte c) : SansPosition c := by
  rcases c with c | c
  · trivial
  · cases c <;> first | exact hc.elim | trivial

/-- What a statement does to the positions. -/
theorem exec_locations (c : sig.Stmt) (e : Env) (s : Store) :
    (∃ groupId userId lat lng, c = .inr (.groupMemberLocationUpsert groupId userId lat lng) ∧
      ((backend.exec c e s).2.groupMemberLocations = s.groupMemberLocations ∨
        (backend.exec c e s).2.groupMemberLocations =
          Store.upsert s.groupMemberLocations ⟨groupId, userId, lat, lng, e.now⟩)) ∨
      (∃ groupId userId, c = .inr (.groupMemberLocationDeleteMany groupId userId) ∧
        (backend.exec c e s).2.groupMemberLocations =
          s.groupMemberLocations.filter fun l => !Store.dePlace groupId userId l) ∨
        (backend.exec c e s).2.groupMemberLocations = s.groupMemberLocations := by
  rcases c with c | c
  · exact .inr (.inr rfl)
  cases c
  case groupMemberLocationUpsert groupId userId lat lng =>
    refine .inl ⟨groupId, userId, lat, lng, rfl, ?_⟩
    simp only [backend, exec]
    split
    · exact .inr rfl
    · exact .inl rfl
  case groupMemberLocationDeleteMany groupId userId => exact .inr (.inl ⟨groupId, userId, rfl, rfl⟩)
  case groupMemberCreate groupId userId =>
    refine .inr (.inr ?_)
    simp only [backend, exec]
    split
    · split <;> rfl
    · rfl
  all_goals
    refine .inr (.inr ?_)
    first
      | rfl
      | simp only [backend, exec]
        split <;> rfl

theorem exec_positions {c : sig.Stmt} (hc : SansPosition c) (e : Env) (s : Store) :
    (backend.exec c e s).2.groupMemberLocations.Sublist s.groupMemberLocations := by
  rcases exec_locations c e s with ⟨_, _, _, _, rfl, -⟩ | ⟨_, _, -, h⟩ | h
  · exact hc.elim
  · exact h ▸ List.filter_sublist
  · exact h ▸ .refl _

/-- The invariant, and what does not change. -/
def partageRely (P : Request → Prop) (s₀ : Store) : Rely Store where
  inv s := Attaches s ∧ Partagees P s₀ s
  le := Constant
  refl := Constant.refl
  trans _ _ _ := Constant.trans

/-- The handler keeps the invariant, whatever its statements are answered. -/
abbrev Partage {α : Type} (P : Request → Prop) (s₀ : Store) (p : Req α) (s : Store)
    (Q : Except Erreur α → Store → Prop) : Prop :=
  (partageRely P s₀).Keeps backend (fun _ _ _ => True) p s Q

theorem sansPosition_keeps {α : Type} {p : Req α} {Q : Except Erreur α → Store → Prop}
    (hp : p.Uses SansPosition) (h : Maintient p s Q) : Partage P s₀ p s Q := by
  have hinv : ∀ s, (partageRely P s₀).inv s → Attaches s := fun _ h => h.1
  refine Rely.Keeps.strengthen (D := attachesRely) hinv (fun _ _ h => h) ?_ hp h
  intro c hc s₁ e hi hattaches hle
  exact ⟨⟨hattaches, hi.2.sublist hle (exec_positions hc e s₁)⟩, hle⟩

/-- What has been read of a group, and of its positions. -/
theorem findGroup_keeps (id : GroupId) : Partage P s₀ (GroupsService.findByIdOrFail id) s
    fun r s' => Constant s s' ∧ ∀ group, r = .ok group → Lu s' id group ∧ Vues P s₀ s' id group := by
  rintro s' e hi hle -
  refine ⟨hi, .refl s', ?_⟩
  rcases hg : s'.groups[id]? with _ | g
  · simp only [backend, exec, hg]
    exact ⟨hle, by rintro group ⟨⟩⟩
  · simp only [backend, exec, hg]
    refine ⟨hle, ?_⟩
    rintro group ⟨⟩
    exact ⟨Attaches.lu hi.1 hg, hi.2.vues id g⟩

/-- What only reads the groups. -/
theorem consulte_keeps {α : Type} {p : Req α} (hp : p.Uses Consulte) (s : Store) :
    Partage P s₀ p s fun _ _ => True :=
  (sansPosition_keeps (hp.mono fun _ => Consulte.sansPosition)
    (detache_keeps (hp.mono fun _ => Consulte.detache) s)).mono fun _ _ _ => trivial

theorem updateLocation_keeps {q : Request} {userId : UserId} {groupId : GroupId} {lat lng : ℚ} (hP : P q)
    (hq : q.position = some (groupId, userId, lat, lng)) :
    Partage P s₀ (GroupsService.updateLocation userId groupId lat lng) s fun _ _ => True := by
  refine .seq (findGroup_keeps groupId) ?_ fun _ _ _ => trivial
  rintro group s₁ - ⟨hlu, -⟩
  show Partage P s₀ (if userId ∉ group.memberIds ∧ group.guideId ≠ some userId then _ else _) s₁ _
  split
  · trivial
  next hpart =>
  intro s₂ e hi hle _
  have hlu₂ : Lu s₂ groupId group := hlu.constant hle
  -- the group was read before: its members stay, and its guide is one of the agency
  have hde : s₂.DuGroupe groupId userId := by
    by_cases hm : userId ∈ group.memberIds
    · exact .inl (hlu₂.members userId hm)
    · have hguide : group.guideId = some userId := not_not.mp fun hne => hpart ⟨hm, hne⟩
      exact .inr ⟨group.agencyId, hlu₂.agence, hlu₂.guide userId hguide⟩
  have h := evolue_of_detache (c := .inr (.groupMemberLocationUpsert group.id userId lat lng)) trivial e s₂
  refine ⟨⟨hi.1.evolue h, ?_⟩, h.constant, ?_⟩
  · rw [hlu₂.id_eq]
    simp only [backend, exec]
    split
    · exact hi.2.upsert hP hq hde
    · exact hi.2
  · rcases (backend.exec (.inr (.groupMemberLocationUpsert group.id userId lat lng)) e s₂).1 with code | _
    · trivial
    · exact consulte_keeps (find_consulte groupId) _

/-- Every handler. -/
theorem partage_keeps {q : Request} (hP : P q) (s : Store) : Partage P s₀ (handler q) s fun _ _ => True := by
  rcases hq : q.position with _ | x
  · have huses : (handler q).Uses SansPosition := by
      refine (handler_ecrit q).mono fun c hc => ?_
      rcases c with c | c
      · trivial
      · cases c
        case groupMemberLocationUpsert =>
          obtain ⟨groupId, h⟩ := hc
          rw [hq] at h
          cases h
        all_goals trivial
    exact sansPosition_keeps huses (attaches_keeps q s)
  · cases q
    case updateLocation userId groupId lat lng => exact (updateLocation_keeps hP rfl).void
    case triggerLostAlert pilgrimUserId groupId lat lng =>
      refine .seq (findGroup_keeps groupId) ?_ fun _ _ _ => trivial
      intro group s₁ _ _
      show Partage P s₀ (if pilgrimUserId ∉ group.memberIds then _ else _) s₁ _
      split
      · trivial
      · refine .bind ((updateLocation_keeps hP rfl).mono ?_)
        rintro (x | _) s₂ -
        · trivial
        · exact consulte_keeps ((app_consulte _).bind fun pilgrim => alerter_consulte group _ _ _ _) s₂
    all_goals cases hq

end Invariant

/-! ## Who sees the positions -/

/-- A request of the groups, or a group that is asked for. -/
inductive Appel where
  | request (q : Request)
  | getById (requesterId : UserId) (requesterRole : Role) (groupId : GroupId)

/-- The handler of a call, with the group that it shows. -/
def servir : Appel → Req (Option GroupShape)
  | .request q => (handler q).bind fun _ => .ret none
  | .getById requesterId requesterRole groupId =>
    (GroupsService.findAuthorizedOrFail requesterId requesterRole groupId).bind fun group => .ret (some group)

/-- The calls at once, from the store `s`. -/
def appels {ι : Type} (calls : ι → Appel) (s : Store) : Pool sig ι Store Erreur (Option GroupShape) :=
  ⟨fun t => servir (calls t), s⟩

/-- The administrator, the group, and the agency of the group. -/
def Store.Habilite (s : Store) (groupId : GroupId) (requesterId : UserId) (requesterRole : Role) : Prop :=
  requesterRole = .admin ∨ s.DuGroupe groupId requesterId ∨ (requesterRole = .agency ∧
    ∃ agencyId row, s.app.agencyOf requesterId = some (agencyId, row) ∧ s.agenceDe groupId = some agencyId)

/-- What a call is answered: a group is shown to whom it may be shown. -/
def Montre (P : Request → Prop) (s₀ : Store) (a : Appel) (s : Store) (answer : Option GroupShape) : Prop :=
  ∀ group ∈ answer, ∃ requesterId requesterRole groupId, a = .getById requesterId requesterRole groupId ∧
    s.Habilite groupId requesterId requesterRole ∧ Vues P s₀ s groupId group

section Vues

variable {P : Request → Prop} {s₀ s s' : Store} {groupId : GroupId}

theorem Store.Habilite.constant {requesterId : UserId} {requesterRole : Role}
    (h : s.Habilite groupId requesterId requesterRole) (hc : Constant s s') :
    s'.Habilite groupId requesterId requesterRole := by
  rcases h with h | h | ⟨hrole, agencyId, row, hrow, ha⟩
  · exact .inl h
  · exact .inr (.inl (h.constant hc))
  · exact .inr (.inr ⟨hrole, agencyId, row, hc.agencyOf hrow, hc.agenceDe ha⟩)

theorem Montre.constant {a : Appel} {answer : Option GroupShape} (h : Montre P s₀ a s answer)
    (hc : Constant s s') : Montre P s₀ a s' answer := by
  intro group hgroup
  obtain ⟨requesterId, requesterRole, groupId, ha, hhabilite, hvues⟩ := h group hgroup
  exact ⟨requesterId, requesterRole, groupId, ha, hhabilite.constant hc, hvues.constant hc⟩

theorem getById_keeps (requesterId : UserId) (requesterRole : Role) (groupId : GroupId) (s : Store) :
    Partage P s₀ (GroupsService.findAuthorizedOrFail requesterId requesterRole groupId) s
      fun r s' => ∀ group, r = .ok group →
        s'.Habilite groupId requesterId requesterRole ∧ Vues P s₀ s' groupId group := by
  refine .seq (findGroup_keeps groupId) ?_ fun _ _ _ => by rintro group ⟨⟩
  rintro group s₁ - ⟨hlu, hvues⟩
  show Partage P s₀ (if requesterRole = .admin then _ else if requesterId ∈ group.memberIds ∨
    group.guideId = some requesterId then _ else if requesterRole = .agency then _ else _) s₁ _
  split
  · next hadmin =>
    rintro _ ⟨⟩
    exact ⟨.inl hadmin, hvues⟩
  split
  · next hpart =>
    rintro _ ⟨⟩
    refine ⟨.inr (.inl ?_), hvues⟩
    rcases hpart with hm | hguide
    · exact .inl (hlu.members requesterId hm)
    · exact .inr ⟨group.agencyId, hlu.agence, hlu.guide requesterId hguide⟩
  split
  · next hrole =>
    have hown : Partage P s₀ (app (AgenciesService.findByOwnerOrFail requesterId)) s₁ fun r s' =>
        Constant s₁ s' ∧ ∀ agency, r = .ok agency →
          ∃ row, s'.app.agencyOf requesterId = some (agency.id, row) :=
      sansPosition_keeps ((app_consulte _).mono fun _ => Consulte.sansPosition) (owner_keeps requesterId)
    refine .seq hown ?_ fun _ _ _ => by rintro group ⟨⟩
    rintro agency s₂ hle ⟨row, hrow⟩
    show Partage P s₀ (if group.agencyId = agency.id then _ else _) s₂ _
    split
    · next heq =>
      rintro _ ⟨⟩
      exact ⟨.inr (.inr ⟨hrole, agency.id, row, hrow, heq ▸ (hlu.constant hle).agence⟩), hvues.constant hle⟩
    · rintro group ⟨⟩
  · rintro group ⟨⟩

theorem servir_keeps (calls : Appel → Prop) {a : Appel} (ha : calls a) (s : Store) :
    Partage (fun q => calls (.request q)) s₀ (servir a) s
      fun r s' => ∀ answer, r = .ok answer → Montre (fun q => calls (.request q)) s₀ a s' answer := by
  cases a with
  | request q =>
    refine .bind ((partage_keeps ha s).mono ?_)
    rintro (_ | _) s' -
    · rintro answer ⟨⟩
    · rintro answer ⟨⟩ group ⟨⟩
  | getById requesterId requesterRole groupId =>
    refine .bind ((getById_keeps requesterId requesterRole groupId s).mono ?_)
    rintro (_ | group) s' hgroup
    · rintro answer ⟨⟩
    · rintro answer ⟨⟩ group' ⟨⟩
      obtain ⟨hhabilite, hvues⟩ := hgroup group rfl
      exact ⟨requesterId, requesterRole, groupId, rfl, hhabilite, hvues⟩

end Vues

/-- **Shared positions.** Whatever calls run at once: a user has at most one position in a group, it is where a
request of his own has put him (or was there), and he is a member of the group or a guide of its agency; and the
group is shown to the administrator, to these and to its agency, with such positions only. -/
theorem positions_shared {ι : Type} [DecidableEq ι] (calls : ι → Appel) {s : Store} (hs : Attaches s)
    (hunique : (s.groupMemberLocations.map (·.cle)).Nodup)
    (hmembres : ∀ l ∈ s.groupMemberLocations, s.DuGroupe l.groupId l.userId)
    {c : Pool sig ι Store Erreur (Option GroupShape)}
    (hr : Pool.Reach backend Pool.anyStep (appels calls s) c) :
    Partagees (fun q => ∃ t, calls t = .request q) s c.st ∧
      ∀ t answer, c.procs t = .ret answer →
        Montre (fun q => ∃ t, calls t = .request q) s (calls t) c.st answer := by
  have h₀ : (partageRely (fun q => ∃ t, calls t = .request q) s).inv (appels calls s).st :=
    ⟨hs, hunique, fun l hl => .inl hl, hmembres⟩
  have hr' : Pool.Reach backend (Rely.cond fun _ _ _ => True) (appels calls s) c :=
    hr.mono fun _ _ _ _ _ _ _ => trivial
  obtain ⟨hinv, -, hdone⟩ := Rely.reach_done
    (fun t _ _ _ hle h answer hanswer => (h answer hanswer).constant hle) h₀
    (fun t => servir_keeps (fun a => ∃ t, calls t = a) ⟨t, rfl⟩ s) hr'
  refine ⟨hinv.2, fun t answer hret => ?_⟩
  have hanswer := hdone t
  rw [hret] at hanswer
  exact hanswer answer rfl

/-- A pilgrim and the guide of a group, and somebody else. -/
private def sortie : Store where
  app := { Db.exemple with
    users :=
      [{ fullName := "Pèlerin" }, { fullName := "Gérante" },
        { fullName := "Guide", role := .guide, agencyId := some 0 }, { fullName := "Autre pèlerin" }] }
  groups := [{ packageId := 0, agencyId := 0, title := "Groupe", guideId := some 2 }]
  groupMembers := [⟨0, 0⟩]

/-- Three users share a position, one of them twice; the owner and somebody else ask for the group. -/
private def partages : Fin 6 → Appel
  | 0 => .request (.updateLocation 0 0 1 2)
  | 1 => .request (.updateLocation 2 0 3 4)
  | 2 => .request (.updateLocation 3 0 5 6)
  | 3 => .request (.triggerLostAlert 0 0 7 8)
  | 4 => .getById 1 .agency 0
  | 5 => .getById 3 .pilgrim 0

private def partage : Pool sig (Fin 6) Store Erreur (Option GroupShape) :=
  Pool.run backend (turns (List.replicate 9 [0, 1, 2, 3]).flatten ++
    (turns [4, 4, 5]).map fun x => (x.1, { now := 1 })) (appels partages sortie)

/-- The two positions of the pilgrim and of the guide are shown to the owner. -/
theorem positions_shared_sortie :
    (partage.st.groupMemberLocations.map fun l => (l.userId, l.lat)) = [(0, 7), (2, 3)] ∧
      (∃ group, partage.procs 4 = .ret (some group) ∧ group.locations.length = 2) ∧
      Partagees (fun q => ∃ t, partages t = .request q) sortie partage.st := by
  have hr : Pool.Reach backend Pool.anyStep (appels partages sortie) partage := .run .refl _
  have hs : Attaches sortie := by
    refine ⟨?_, ?_⟩
    · rintro g hg u hu
      obtain rfl := List.mem_singleton.mp hg
      obtain rfl := Option.some.inj hu
      exact ⟨_, rfl, rfl, rfl⟩
    · intro b hb i hi
      have hall : ∀ b ∈ sortie.app.bookings, b.groupId = none := by decide
      rw [hall b hb] at hi
      cases hi
  refine ⟨by decide +kernel, ⟨_, rfl, rfl⟩, (positions_shared partages hs ?_ ?_ hr).1⟩
  · exact List.nodup_nil
  · rintro l ⟨⟩

/-! ## Whose positions a call may move -/

/-- The group and the user whose position the request shares or erases. -/
def Request.cible (q : Request) : Option (GroupId × UserId) :=
  match q with
  | .updateLocation userId groupId _ _ => some (groupId, userId)
  | .clearLocation userId groupId => some (groupId, userId)
  | .triggerLostAlert pilgrimUserId groupId _ _ => some (groupId, pilgrimUserId)
  | _ => none

/-- The call executes the statement on the position of its own user only. -/
def Touche (a : Appel) : sig.Stmt → Prop
  | .inr (.groupMemberLocationUpsert groupId userId lat lng) =>
    ∃ q, a = .request q ∧ q.position = some (groupId, userId, lat, lng)
  | .inr (.groupMemberLocationDeleteMany groupId userId) => a = .request (.clearLocation userId groupId)
  | _ => True

section Calls

variable {a : Appel} {groupId : GroupId} {userId : UserId}

theorem Consulte.touche {c : sig.Stmt} (hc : Consulte c) : Touche a c := by
  rcases c with c | c
  · trivial
  · cases c <;> first | exact hc.elim | trivial

/-- The group that is read is the one that is asked for. -/
theorem find_performs (id : GroupId) : (GroupsService.findByIdOrFail id).Performs backend (Touche a)
    fun r => ∀ group, r = .ok group → group.id = id := by
  refine ⟨trivial, fun e s => ?_⟩
  rcases hg : s.groups[id]? with _ | g
  · simp only [backend, exec, hg]
    rintro group ⟨⟩
  · simp only [backend, exec, hg]
    rintro group ⟨⟩
    rfl

theorem updateLocation_performs {q : Request} {lat lng : ℚ}
    (hq : q.position = some (groupId, userId, lat, lng)) :
    (GroupsService.updateLocation userId groupId lat lng).Performs backend (Touche (.request q))
      fun _ => True := by
  refine .bind ((find_performs groupId).mono ?_)
  rintro (_ | group) hid
  · trivial
  show Prog.Performs backend _ (if userId ∉ group.memberIds ∧ group.guideId ≠ some userId then _ else _) _
  split
  · trivial
  · refine ⟨⟨q, rfl, hid group rfl ▸ hq⟩, fun e s => ?_⟩
    rcases (backend.exec (.inr (.groupMemberLocationUpsert group.id userId lat lng)) e s).1 with code | _
    · trivial
    · exact (find_consulte groupId).performs (fun _ => Consulte.touche) fun _ => trivial

theorem authorized_consulte (requesterId : UserId) (requesterRole : Role) (groupId : GroupId) :
    (GroupsService.findAuthorizedOrFail requesterId requesterRole groupId).Uses Consulte := by
  refine (find_consulte groupId).bind fun group => ?_
  show Prog.Uses Consulte (if requesterRole = .admin then _ else if requesterId ∈ group.memberIds ∨
    group.guideId = some requesterId then _ else if requesterRole = .agency then _ else _)
  split
  · trivial
  split
  · trivial
  split
  · refine (app_consulte _).bind fun agency => ?_
    show Prog.Uses Consulte (if group.agencyId = agency.id then _ else _)
    split <;> trivial
  · trivial

/-- Every handler. -/
theorem servir_performs (a : Appel) : (servir a).Performs backend (Touche a) fun _ => True := by
  cases a with
  | getById requesterId requesterRole groupId =>
    refine .after ((authorized_consulte requesterId requesterRole groupId).mono fun _ => Consulte.touche) ?_ ?_
    · exact fun _ => trivial
    · exact fun _ => trivial
  | request q =>
    suffices h : (handler q).Performs backend (Touche (.request q)) fun _ => True from
      .bind (h.mono fun r _ => by cases r <;> trivial)
    rcases hq : q.position with _ | x
    · refine (handler_ecrit q).performs (fun c hc => ?_) fun _ => trivial
      rcases c with c | c
      · trivial
      · cases c
        case groupMemberLocationUpsert =>
          obtain ⟨groupId, h⟩ := hc
          rw [hq] at h
          cases h
        case groupMemberLocationDeleteMany => exact congrArg Appel.request hc
        all_goals trivial
    · cases q
      case updateLocation userId groupId lat lng =>
        exact .bind ((updateLocation_performs rfl).mono fun r _ => by cases r <;> trivial)
      case triggerLostAlert pilgrimUserId groupId lat lng =>
        refine .after ((find_consulte groupId).mono fun _ => Consulte.touche) (fun group => ?_) fun _ => trivial
        show Prog.Performs backend _ (if pilgrimUserId ∉ group.memberIds then _ else _) _
        split
        · trivial
        · refine .bind ((updateLocation_performs rfl).mono ?_)
          rintro (_ | _) -
          · trivial
          · exact ((app_consulte _).bind fun pilgrim => alerter_consulte group _ _ _ _).performs
              (fun _ => Consulte.touche) fun _ => trivial
      all_goals cases hq

variable {c : sig.Stmt} {s : Store}

/-- The position of a user in a group: at most one row. -/
def Store.positionDe (s : Store) (groupId : GroupId) (userId : UserId) : List GroupMemberLocation :=
  s.groupMemberLocations.filter (Store.dePlace groupId userId)

/-- A call about another position. -/
theorem exec_autre (hc : Touche a c) (ha : ∀ q, a = .request q → q.cible ≠ some (groupId, userId)) (e : Env) :
    (backend.exec c e s).2.positionDe groupId userId = s.positionDe groupId userId := by
  rw [Store.positionDe, Store.positionDe]
  rcases exec_locations c e s with ⟨g, u, lat, lng, rfl, h⟩ | ⟨g, u, rfl, h⟩ | h
  · obtain ⟨q, rfl, hq⟩ := hc
    have hne : (g, u) ≠ (groupId, userId) := by
      rintro ⟨⟩
      refine ha q rfl ?_
      cases q <;> cases hq <;> rfl
    rcases h with h | h
    · rw [h]
    · rw [h]
      exact upsert_filter hne
  · have hne : (g, u) ≠ (groupId, userId) := by
      rintro ⟨⟩
      exact ha _ hc rfl
    rw [h]
    exact delete_filter hne
  · rw [h]

/-- A call that does not share the position brings it not back. -/
theorem exec_vide (hc : Touche a c)
    (ha : ∀ q lat lng, a = .request q → q.position ≠ some (groupId, userId, lat, lng)) (e : Env)
    (hs : s.positionDe groupId userId = []) : (backend.exec c e s).2.positionDe groupId userId = [] := by
  rw [Store.positionDe] at hs ⊢
  rcases exec_locations c e s with ⟨g, u, lat, lng, rfl, h⟩ | ⟨g, u, -, h⟩ | h
  · obtain ⟨q, rfl, hq⟩ := hc
    have hne : (g, u) ≠ (groupId, userId) := by
      rintro ⟨⟩
      exact ha q lat lng rfl hq
    rcases h with h | h
    · rw [h, hs]
    · have hl : (⟨g, u, lat, lng, e.now⟩ : GroupMemberLocation).cle ≠ (groupId, userId) := hne
      rw [h, upsert_filter hl, hs]
  · rw [h]
    exact List.sublist_nil.mp (hs ▸ List.filter_sublist.filter _)
  · rw [h, hs]

end Calls

section Runs

variable {ι : Type} [DecidableEq ι] {calls : ι → Appel} {s : Store} {groupId : GroupId} {userId : UserId}
  {c c₁ c₂ : Pool sig ι Store Erreur (Option GroupShape)}

/-- The statement that a call executes next is on the position of its own user only. -/
theorem reach_touche (hr : Pool.Reach backend Pool.anyStep (appels calls s) c) {t : ι} {q : sig.Stmt}
    {k : sig.Resp q → Req (Option GroupShape)} (hq : c.procs t = .call q k) : Touche (calls t) q := by
  have h := hr.performs (fun t => servir_performs (calls t)) t
  rw [hq] at h
  exact h.1

/-- A request that stops the sharing has not begun, or has ended. -/
theorem reach_clear {t : ι} (ht : calls t = .request (.clearLocation userId groupId))
    (hr : Pool.Reach backend Pool.anyStep (appels calls s) c) :
    c.procs t = servir (calls t) ∨ c.procs t = .ret none := by
  induction hr with
  | refl => exact .inl rfl
  | @step c u e _ _ ih =>
    unfold Pool.step
    split
    · rename_i q k hq
      by_cases hut : u = t
      · subst hut
        right
        rcases ih with ih | ih
        · rw [ht] at ih
          obtain ⟨rfl, hk⟩ := Prog.call.inj (hq.symm.trans ih)
          obtain rfl := eq_of_heq hk
          simp only [Function.update_self]
          rfl
        · cases hq.symm.trans ih
      · simpa only [Function.update_of_ne (Ne.symm hut)] using ih
    · exact ih

/-- Nobody moves or erases the position of another. -/
theorem reach_autre (hr₁ : Pool.Reach backend Pool.anyStep (appels calls s) c₁)
    (hended : ∀ t q, calls t = .request q → q.cible = some (groupId, userId) → c₁.next t = none)
    (hr₂ : Pool.Reach backend Pool.anyStep c₁ c₂) :
    c₂.st.positionDe groupId userId = c₁.st.positionDe groupId userId := by
  induction hr₂ with
  | refl => rfl
  | @step c t e hr _ ih =>
    unfold Pool.step
    split
    · rename_i q k hq
      refine (exec_autre (reach_touche (hr₁.trans hr) hq) (fun r hr' hcible => ?_) e).trans ih
      have hnone := hended t r hr' hcible
      rw [Pool.next, ← hr.ended hnone, hq] at hnone
      cases hnone
    · exact ih

/-- Once the position is erased, it is erased for good. -/
theorem reach_vide {t : ι} (ht : calls t = .request (.clearLocation userId groupId))
    (hr₁ : Pool.Reach backend Pool.anyStep (appels calls s) c₁)
    (hended : ∀ t q lat lng, calls t = .request q → q.position = some (groupId, userId, lat, lng) →
      c₁.next t = none)
    (hpending : c₁.next t ≠ none) (hr₂ : Pool.Reach backend Pool.anyStep c₁ c₂) :
    c₂.next t ≠ none ∨ c₂.st.positionDe groupId userId = [] := by
  induction hr₂ with
  | refl => exact .inl hpending
  | @step c u e hr _ ih =>
    unfold Pool.step
    split
    · rename_i q k hq
      have htouche := reach_touche (hr₁.trans hr) hq
      by_cases hut : u = t
      · subst hut
        right
        rcases reach_clear ht (hr₁.trans hr) with hnew | hdone
        · rw [ht] at hnew
          obtain ⟨rfl, -⟩ := Prog.call.inj (hq.symm.trans hnew)
          exact List.filter_eq_nil_iff.mpr fun l hl => by simpa using (List.mem_filter.mp hl).2
        · cases hq.symm.trans hdone
      · rcases ih with ih | ih
        · left
          simpa only [Pool.next, Function.update_of_ne (Ne.symm hut)] using ih
        · right
          refine exec_vide htouche (fun r lat lng hr' hposition => ?_) e ih
          have hnone := hended u r lat lng hr' hposition
          rw [Pool.next, ← hr.ended hnone, hq] at hnone
          cases hnone
    · exact ih

end Runs

/-- **The sharing stops.** In a run from any pool that calls reach: nobody moves or erases the position of
another (it stays as it is where no request of its user about it is running); and once a request that stops the
sharing has ended, no position of the user is left in the group, where the requests that share it had ended
before. -/
theorem positions_cleared {ι : Type} [DecidableEq ι] (calls : ι → Appel) {s : Store}
    {c₁ c₂ : Pool sig ι Store Erreur (Option GroupShape)}
    (hr₁ : Pool.Reach backend Pool.anyStep (appels calls s) c₁) (hr₂ : Pool.Reach backend Pool.anyStep c₁ c₂)
    (groupId : GroupId) (userId : UserId) :
    ((∀ t q, calls t = .request q → q.cible = some (groupId, userId) → c₁.next t = none) →
      c₂.st.positionDe groupId userId = c₁.st.positionDe groupId userId) ∧
    ((∀ t q lat lng, calls t = .request q → q.position = some (groupId, userId, lat, lng) →
        c₁.next t = none) →
      ∀ t, calls t = .request (.clearLocation userId groupId) → c₁.next t ≠ none → c₂.next t = none →
        c₂.st.positionDe groupId userId = []) := by
  refine ⟨fun hended => reach_autre hr₁ hended hr₂, fun hended t ht hpending hdone => ?_⟩
  rcases reach_vide ht hr₁ hended hpending hr₂ with h | h
  · exact absurd hdone h
  · exact h

/-- The pilgrim stops sharing his position once he has shared it. -/
private def arret : Fin 3 → Appel
  | 0 => .request (.updateLocation 0 0 1 2)
  | 1 => .request (.updateLocation 2 0 3 4)
  | 2 => .request (.clearLocation 0 0)

private def avantArret : Pool sig (Fin 3) Store Erreur (Option GroupShape) :=
  Pool.run backend (turns (List.replicate 4 [0, 1]).flatten) (appels arret sortie)

private def apresArret : Pool sig (Fin 3) Store Erreur (Option GroupShape) :=
  Pool.run backend ((turns [2]).map fun x => (x.1, { now := 1 })) avantArret

/-- His position is erased, and the guide's is left. -/
theorem positions_cleared_arret :
    (avantArret.st.positionDe 0 0).length = 1 ∧ apresArret.st.positionDe 0 0 = [] ∧
      apresArret.st.positionDe 0 2 = avantArret.st.positionDe 0 2 := by
  have hr₁ : Pool.Reach backend Pool.anyStep (appels arret sortie) avantArret := .run .refl _
  have hr₂ : Pool.Reach backend Pool.anyStep avantArret apresArret := .run .refl _
  have hended : ∀ t, t ≠ 2 → avantArret.next t = none := by decide +kernel
  refine ⟨by decide +kernel, (positions_cleared arret hr₁ hr₂ 0 0).2 (fun t q lat lng ht hq => hended t ?_) 2 rfl
    (by decide +kernel) (by decide +kernel), (positions_cleared arret hr₁ hr₂ 0 2).1 fun t q ht hq => hended t ?_⟩
  · rintro rfl
    cases ht
    cases hq
  · rintro rfl
    cases ht
    cases hq

end OumraHajj.Groups
