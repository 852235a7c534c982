import OumraHajj.Tenancy.Store

/-!
# Every row is for a package of its agency

`Coherent` is the invariant. `Suite` is what an ordinary statement leaves of the rows: agencies and packages
stay, and no row is for another one. The five statements that are not ordinary create a row or assign a
group. The agency of three of them is checked by their handlers, which read it from the package first;
that of a new group and the package of an assigned group are not, and are the condition `Accord`.
-/

namespace OumraHajj.Tenancy

open Async

namespace Store

variable (s : Store)

/-- The agencies of the packages. -/
def agences : List AgencyId := s.groups.app.packages.map (·.agencyId)

/-- The agency of a package. -/
def agenceDe (packageId : PackageId) : Option AgencyId := s.agences[packageId]?

end Store

/-- The columns of a booking that say whose it is. -/
def rattachement (b : Booking) : PackageId × AgencyId × Option Groups.GroupId :=
  (b.packageId, b.agencyId, b.groupId)

/-- Those of a group. -/
def attache (g : Groups.Group) : PackageId × AgencyId := (g.packageId, g.agencyId)

/-- The invariant (module doc). -/
structure Coherent (s : Store) : Prop where
  bookings : ∀ b ∈ s.groups.app.bookings, s.agenceDe b.packageId = some b.agencyId
  groups : ∀ g ∈ s.groups.groups, s.agenceDe g.packageId = some g.agencyId
  roomBlocks : ∀ b, some b ∈ s.roomBlocks → s.agenceDe b.packageId = some b.agencyId
  onCallShifts : ∀ c, some c ∈ s.onCallShifts → ∀ p ∈ c.packageId, s.agenceDe p = some c.agencyId
  /-- The group of a booking is for the package of the booking. -/
  grouped : ∀ b ∈ s.groups.app.bookings, ∀ i ∈ b.groupId, ∃ g, s.groups.groups[i]? = some g ∧
    g.packageId = b.packageId

/-- What an ordinary statement leaves (module doc). -/
structure Suite (s s' : Store) : Prop where
  agences : s.agences <+: s'.agences
  bookings : ∀ b' ∈ s'.groups.app.bookings, ∃ b ∈ s.groups.app.bookings,
    rattachement b' = rattachement b
  groups : s'.groups.groups.map attache = s.groups.groups.map attache
  roomBlocks : ∀ b', some b' ∈ s'.roomBlocks → ∃ b, some b ∈ s.roomBlocks ∧
    b'.packageId = b.packageId ∧ b'.agencyId = b.agencyId
  onCallShifts : ∀ c', some c' ∈ s'.onCallShifts → ∃ c, some c ∈ s.onCallShifts ∧
    c'.packageId = c.packageId ∧ c'.agencyId = c.agencyId

variable {s s' : Store}

theorem Store.agenceDe_of_prefix (h : s.agences <+: s'.agences) {packageId : PackageId}
    {agencyId : AgencyId} (ha : s.agenceDe packageId = some agencyId) :
    s'.agenceDe packageId = some agencyId := by
  obtain ⟨l, hl⟩ := h
  rw [Store.agenceDe, ← hl, List.getElem?_append_left (Table.lt_of_get ha)]
  exact ha

theorem Store.agences_prefix (h : s'.agences = s.agences) : s.agences <+: s'.agences :=
  h ▸ List.prefix_rfl

theorem Store.agences_of_app (h : s'.groups.app = s.groups.app) : s.agences <+: s'.agences :=
  Store.agences_prefix (by rw [Store.agences, Store.agences, h])

theorem Suite.of_eq (hg : s'.groups = s.groups) (hr : s'.roomBlocks = s.roomBlocks)
    (hc : s'.onCallShifts = s.onCallShifts) : Suite s s' := by
  refine ⟨?_, ?_, ?_, ?_, ?_⟩
  · exact Store.agences_of_app (congrArg Groups.Store.app hg)
  · exact fun b hb => ⟨b, hg ▸ hb, rfl⟩
  · rw [hg]
  · exact fun b hb => ⟨b, hr ▸ hb, rfl, rfl⟩
  · exact fun c hs => ⟨c, hc ▸ hs, rfl, rfl⟩

theorem Suite.group (h : Suite s s') {i : Nat} {g : Groups.Group} (hg : s.groups.groups[i]? = some g) :
    ∃ g', s'.groups.groups[i]? = some g' ∧ attache g' = attache g := by
  have hcol := congrArg (·[i]?) h.groups
  simp only [List.getElem?_map, hg, Option.map_some] at hcol
  exact Option.map_eq_some_iff.mp hcol

/-- An ordinary statement keeps the invariant. -/
theorem Coherent.suite (hs : Coherent s) (h : Suite s s') : Coherent s' := by
  refine ⟨fun b' hb' => ?_, fun g' hg' => ?_, fun b' hb' => ?_, fun c' hc' p hp => ?_,
    fun b' hb' i hi => ?_⟩
  · obtain ⟨b, hb, heq⟩ := h.bookings b' hb'
    obtain ⟨hpackage, hagency, -⟩ : b'.packageId = b.packageId ∧ b'.agencyId = b.agencyId ∧
      b'.groupId = b.groupId := by simpa [rattachement] using heq
    rw [hpackage, hagency]
    exact Store.agenceDe_of_prefix h.agences (hs.bookings b hb)
  · have hmem : attache g' ∈ s.groups.groups.map attache := h.groups ▸ List.mem_map_of_mem hg'
    obtain ⟨g, hg, heq⟩ := List.mem_map.mp hmem
    obtain ⟨hpackage, hagency⟩ : g.packageId = g'.packageId ∧ g.agencyId = g'.agencyId := by
      simpa [attache] using heq
    rw [← hpackage, ← hagency]
    exact Store.agenceDe_of_prefix h.agences (hs.groups g hg)
  · obtain ⟨b, hb, hpackage, hagency⟩ := h.roomBlocks b' hb'
    rw [hpackage, hagency]
    exact Store.agenceDe_of_prefix h.agences (hs.roomBlocks b hb)
  · obtain ⟨c, hc, hpackage, hagency⟩ := h.onCallShifts c' hc'
    rw [hagency]
    exact Store.agenceDe_of_prefix h.agences (hs.onCallShifts c hc p (hpackage ▸ hp))
  · obtain ⟨b, hb, heq⟩ := h.bookings b' hb'
    obtain ⟨hpackage, -, hgroup⟩ : b'.packageId = b.packageId ∧ b'.agencyId = b.agencyId ∧
      b'.groupId = b.groupId := by simpa [rattachement] using heq
    obtain ⟨g, hg, hgp⟩ := hs.grouped b hb i (hgroup ▸ hi)
    obtain ⟨g', hg', heq'⟩ := h.group hg
    refine ⟨g', hg', ?_⟩
    rw [hpackage, ← hgp]
    exact congrArg Prod.fst heq'

/-! ## The ordinary statements -/

/-- The statement creates none of the rows, and assigns no group. -/
def Ordinaire : sig.Stmt → Prop
  | .inl (.inl (.inl (.inl c))) => NoBooking c
  | .inl (.inl (.inl (.inr _))) => True
  | .inl (.inl (.inr (.groupCreate _ _ _))) | .inl (.inl (.inr (.bookingUpdate _ _))) => False
  | .inl (.inl (.inr _)) => True
  | .inl (.inr (.roomBlockCreate _)) => False
  | .inl (.inr _) => True
  | .inr (.onCallShiftCreate _) => False
  | .inr _ => True

/-- Another database, where no booking and no package is of another agency. -/
theorem Suite.of_db (hp : s.agences <+: s'.agences)
    (hb : s'.groups.app.bookings.map Booking.terms = s.groups.app.bookings.map Booking.terms)
    (hg : s'.groups.groups = s.groups.groups) (hr : s'.roomBlocks = s.roomBlocks)
    (hc : s'.onCallShifts = s.onCallShifts) : Suite s s' := by
  refine ⟨hp, fun b' hb' => ?_, by rw [hg], fun b h => ⟨b, hr ▸ h, rfl, rfl⟩,
    fun c h => ⟨c, hc ▸ h, rfl, rfl⟩⟩
  have hmem : b'.terms ∈ s.groups.app.bookings.map Booking.terms := hb ▸ List.mem_map_of_mem hb'
  obtain ⟨b, hb, heq⟩ := List.mem_map.mp hmem
  exact ⟨b, hb, congrArg (fun t : Terms => (t.packageId, t.agencyId, t.groupId)) heq.symm⟩

theorem suite_prisma {c : OumraHajj.Stmt} (hc : NoBooking c) (e : Env) (s : Store) :
    Suite s (backend.exec (.inl (.inl (.inl (.inl c)))) e s).2 := by
  have hoffer := congrArg (List.map Package.agencyId) (exec_offer c e s.groups.app)
  rw [List.map_map, List.map_map] at hoffer
  exact .of_db (Store.agences_prefix hoffer) (exec_terms hc e s.groups.app) rfl rfl rfl

theorem suite_catalogue (c : Catalogue.Stmt) (e : Env) (s : Store) :
    Suite s (backend.exec (.inl (.inl (.inl (.inr c)))) e s).2 := by
  cases c with
  | agencyFindUnique id => exact .of_eq rfl rfl rfl
  | packageCreate data =>
    simp only [backend, Groups.backend, Catalogue.backend, Catalogue.exec]
    split
    · refine .of_db ?_ rfl rfl rfl rfl
      rw [Store.agences, Store.agences, List.map_append]
      exact List.prefix_append _ _
    · exact .of_eq rfl rfl rfl
  | packageUpdate id data =>
    simp only [backend, Groups.backend, Catalogue.backend, Catalogue.exec]
    split
    · next p hp => exact .of_db (Store.agences_prefix (map_set_of_eq hp rfl)) rfl rfl rfl rfl
    · exact .of_eq rfl rfl rfl
  | refundPolicyTierReplace agencyId data =>
    simp only [backend, Groups.backend, Catalogue.backend, Catalogue.exec, Catalogue.replaceTiers]
    split <;> exact .of_db List.prefix_rfl rfl rfl rfl rfl

theorem suite_groups {c : Groups.Stmt} (hc : Ordinaire (.inl (.inl (.inr c)))) (e : Env) (s : Store) :
    Suite s (backend.exec (.inl (.inl (.inr c))) e s).2 := by
  have hdb : ∀ g : Groups.Store, g.app = s.groups.app →
      g.groups.map attache = s.groups.groups.map attache → Suite s { s with groups := g } := by
    intro g happ hg
    refine ⟨?_, fun b hb => ⟨b, happ ▸ hb, rfl⟩, hg, fun b h => ⟨b, h, rfl, rfl⟩,
      fun c h => ⟨c, h, rfl, rfl⟩⟩
    exact Store.agences_of_app happ
  cases c
  case groupCreate => exact hc.elim
  case bookingUpdate => exact hc.elim
  case groupUpdate id guideId =>
    simp only [backend, Groups.backend, Groups.exec]
    split
    · next g _ hg _ => exact hdb _ rfl (map_set_of_eq hg rfl)
    · exact hdb _ rfl rfl
    · exact hdb _ rfl rfl
  case groupMemberCreate groupId userId =>
    simp only [backend, Groups.backend, Groups.exec]
    split
    · split <;> exact hdb _ rfl rfl
    · exact hdb _ rfl rfl
  all_goals first
    | exact hdb _ rfl rfl
    | simp only [backend, Groups.backend, Groups.exec]
      split <;> exact hdb _ rfl rfl

/-- The statements of the rooms and of the shifts leave the rest of the database. -/
theorem rooms_app (c : Rooms.Stmt) (e : Env) (r : Rooms.Store) : (Rooms.exec c e r).2.app = r.app := by
  cases c
  all_goals first
    | rfl
    | simp only [Rooms.exec]
      split <;> rfl

theorem onCall_app (c : OnCall.Stmt) (o : OnCall.Store) : (OnCall.exec c o).2.app = o.app := by
  cases c
  all_goals first
    | rfl
    | simp only [OnCall.exec]
      split <;> rfl

theorem suite_rooms {c : Rooms.Stmt} (hc : Ordinaire (.inl (.inr c))) (e : Env) (s : Store) :
    Suite s (backend.exec (.inl (.inr c)) e s).2 := by
  have hrooms : ∀ r : Rooms.Store, r.app = s.groups.app →
      (∀ b', some b' ∈ r.roomBlocks → ∃ b, some b ∈ s.roomBlocks ∧ b'.packageId = b.packageId ∧
        b'.agencyId = b.agencyId) → Suite s (s.putRooms r) := by
    intro r happ hr
    refine ⟨?_, fun b hb => ⟨b, happ ▸ hb, rfl⟩, rfl, hr, fun c h => ⟨c, h, rfl, rfl⟩⟩
    exact Store.agences_of_app happ
  have hsame : ∀ b', some b' ∈ s.roomBlocks → ∃ b, some b ∈ s.roomBlocks ∧ b'.packageId = b.packageId ∧
      b'.agencyId = b.agencyId := fun b h => ⟨b, h, rfl, rfl⟩
  cases c
  case roomBlockCreate => exact hc.elim
  case roomBlockUpdate id data =>
    simp only [backend, Rooms.exec]
    split
    · next b hb =>
      refine hrooms _ rfl fun b' hb' => ?_
      rcases List.mem_or_eq_of_mem_set hb' with hb' | hb'
      · exact hsame b' hb'
      · obtain rfl := Option.some.inj hb'
        exact ⟨b, List.mem_of_getElem? (Table.get_of_row hb), rfl, rfl⟩
    · exact hrooms _ rfl hsame
  case roomBlockDelete id =>
    simp only [backend, Rooms.exec]
    split
    · refine hrooms _ rfl fun b' hb' => ?_
      rcases List.mem_or_eq_of_mem_set hb' with hb' | hb'
      · exact hsame b' hb'
      · cases hb'
    · exact hrooms _ rfl hsame
  all_goals first
    | exact hrooms _ rfl hsame
    | simp only [backend, Rooms.exec]
      split <;> exact hrooms _ rfl hsame

theorem suite_onCall {c : OnCall.Stmt} (hc : Ordinaire (.inr c)) (e : Env) (s : Store) :
    Suite s (backend.exec (.inr c) e s).2 := by
  have honCall : ∀ o : OnCall.Store, o.app = s.groups.app →
      (∀ c', some c' ∈ o.onCallShifts → ∃ c, some c ∈ s.onCallShifts ∧ c'.packageId = c.packageId ∧
        c'.agencyId = c.agencyId) → Suite s (s.putOnCall o) := by
    intro o happ ho
    refine ⟨?_, fun b hb => ⟨b, happ ▸ hb, rfl⟩, rfl, fun b h => ⟨b, h, rfl, rfl⟩, ho⟩
    exact Store.agences_of_app happ
  have hsame : ∀ c', some c' ∈ s.onCallShifts → ∃ c, some c ∈ s.onCallShifts ∧
      c'.packageId = c.packageId ∧ c'.agencyId = c.agencyId := fun c h => ⟨c, h, rfl, rfl⟩
  cases c
  case onCallShiftCreate => exact hc.elim
  case onCallShiftFindUnique => exact honCall _ rfl hsame
  case onCallShiftUpdate id data =>
    simp only [backend, OnCall.exec]
    split
    · next c hc =>
      refine honCall _ rfl fun c' hc' => ?_
      rcases List.mem_or_eq_of_mem_set hc' with hc' | hc'
      · exact hsame c' hc'
      · obtain rfl := Option.some.inj hc'
        exact ⟨c, List.mem_of_getElem? (Table.get_of_row hc), rfl, rfl⟩
    · exact honCall _ rfl hsame
  case onCallShiftDelete id =>
    simp only [backend, OnCall.exec]
    split
    · refine honCall _ rfl fun c' hc' => ?_
      rcases List.mem_or_eq_of_mem_set hc' with hc' | hc'
      · exact hsame c' hc'
      · cases hc'
    · exact honCall _ rfl hsame

theorem suite_of_ordinaire {c : sig.Stmt} (hc : Ordinaire c) (e : Env) (s : Store) :
    Suite s (backend.exec c e s).2 := by
  rcases c with ((c | c) | c) | c
  · rcases c with c | c
    · exact suite_prisma hc e s
    · exact suite_catalogue c e s
  · exact suite_groups hc e s
  · exact suite_rooms hc e s
  · exact suite_onCall hc e s

/-! ## The statements that create a row or assign a group -/

/-- A group is for a package of its agency; a booking goes to a group for its package (module doc). -/
def Accord : sig.Stmt → Store → Env → Prop
  | .inl (.inl (.inr (.groupCreate packageId agencyId _))), s, _ =>
    ∀ a ∈ s.agenceDe packageId, a = agencyId
  | .inl (.inl (.inr (.bookingUpdate id groupId))), s, _ =>
    ∀ b ∈ s.groups.app.bookings[id]?, ∀ g ∈ s.groups.groups[groupId]?, g.packageId = b.packageId
  | _, _, _ => True

instance : (c : sig.Stmt) → (s : Store) → (e : Env) → Decidable (Accord c s e)
  | .inl (.inl (.inr (.groupCreate packageId agencyId _))), s, _ =>
    inferInstanceAs (Decidable (∀ a ∈ s.agenceDe packageId, a = agencyId))
  | .inl (.inl (.inr (.bookingUpdate id groupId))), s, _ =>
    inferInstanceAs (Decidable (∀ b ∈ s.groups.app.bookings[id]?, ∀ g ∈ s.groups.groups[groupId]?,
      g.packageId = b.packageId))
  | .inl (.inl (.inl _)), _, _ | .inl (.inr _), _, _ | .inr _, _, _ => isTrue trivial
  | .inl (.inl (.inr (.groupFindUnique _))), _, _
  | .inl (.inl (.inr (.groupUpdate _ _))), _, _
  | .inl (.inl (.inr (.groupFindFirst _ _ _ _))), _, _
  | .inl (.inl (.inr (.guideUnavailabilityFindFirst _ _ _))), _, _
  | .inl (.inl (.inr (.groupMemberCreate _ _))), _, _
  | .inl (.inl (.inr (.groupItineraryStepCreate _))), _, _
  | .inl (.inl (.inr (.groupMemberLocationUpsert _ _ _ _))), _, _
  | .inl (.inl (.inr (.groupMemberLocationDeleteMany _ _))), _, _
  | .inl (.inl (.inr (.bookingFindMany _))), _, _
  | .inl (.inl (.inr (.userFindMany _))), _, _
  | .inl (.inl (.inr (.specialNeedsUpsert _ _ _ _ _))), _, _ => isTrue trivial

/-- A booking for a package of its agency. -/
theorem Coherent.bookingCreate (hs : Coherent s) {pilgrimId : UserId} {packageId : PackageId}
    {agencyId : AgencyId} {refundPolicySnapshot : Option Json}
    (ha : s.agenceDe packageId = some agencyId) (e : Env) :
    Coherent (backend.exec (.inl (.inl (.inl (.inl (.bookingCreate pilgrimId packageId agencyId
      refundPolicySnapshot))))) e s).2 := by
  refine ⟨fun b hb => ?_, hs.groups, hs.roomBlocks, hs.onCallShifts, fun b hb i hi => ?_⟩
  · rcases List.mem_append.mp hb with hb | hb
    · exact hs.bookings b hb
    · obtain rfl := List.mem_singleton.mp hb
      exact ha
  · rcases List.mem_append.mp hb with hb | hb
    · exact hs.grouped b hb i hi
    · obtain rfl := List.mem_singleton.mp hb
      cases hi

/-- A group of the agency of its package. -/
theorem Coherent.groupCreate (hs : Coherent s) {packageId : PackageId} {agencyId : AgencyId}
    {title : String} (ha : ∀ a ∈ s.agenceDe packageId, a = agencyId) (e : Env) :
    Coherent (backend.exec (.inl (.inl (.inr (.groupCreate packageId agencyId title)))) e s).2 := by
  simp only [backend, Groups.backend, Groups.exec]
  split
  · next p _ hp _ =>
    have hagence : s.agenceDe packageId = some p.agencyId := by
      rw [Store.agenceDe, Store.agences, List.getElem?_map, hp, Option.map_some]
    refine ⟨hs.bookings, fun g hg => ?_, hs.roomBlocks, hs.onCallShifts, fun b hb i hi => ?_⟩
    · rcases List.mem_append.mp hg with hg | hg
      · exact hs.groups g hg
      · obtain rfl := List.mem_singleton.mp hg
        exact hagence.trans (congrArg some (ha p.agencyId hagence))
    · obtain ⟨g, hg, hpackage⟩ := hs.grouped b hb i hi
      exact ⟨g, Table.get_append_of_get hg _, hpackage⟩
  · exact hs

/-- A booking that goes to a group for its package. -/
theorem Coherent.bookingUpdate (hs : Coherent s) {id : BookingId} {groupId : Groups.GroupId}
    (ha : ∀ b ∈ s.groups.app.bookings[id]?, ∀ g ∈ s.groups.groups[groupId]?,
      g.packageId = b.packageId) (e : Env) :
    Coherent (backend.exec (.inl (.inl (.inr (.bookingUpdate id groupId)))) e s).2 := by
  simp only [backend, Groups.backend, Groups.exec]
  split
  · next b g hb hg =>
    have hmem := List.mem_of_getElem? hb
    refine ⟨fun b' hb' => ?_, hs.groups, hs.roomBlocks, hs.onCallShifts, fun b' hb' i hi => ?_⟩
    · rcases List.mem_or_eq_of_mem_set hb' with hb' | rfl
      · exact hs.bookings b' hb'
      · exact hs.bookings b hmem
    · rcases List.mem_or_eq_of_mem_set hb' with hb' | rfl
      · exact hs.grouped b' hb' i hi
      · obtain rfl := Option.some.inj hi
        exact ⟨g, hg, ha b hb g hg⟩
  · exact hs
  · exact hs

/-- A block for a package of its agency. -/
theorem Coherent.roomBlockCreate (hs : Coherent s) {data : Rooms.RoomBlock}
    (ha : s.agenceDe data.packageId = some data.agencyId) (e : Env) :
    Coherent (backend.exec (.inl (.inr (.roomBlockCreate data))) e s).2 := by
  simp only [backend, Rooms.exec]
  split
  · refine ⟨hs.bookings, hs.groups, fun b hb => ?_, hs.onCallShifts, hs.grouped⟩
    rcases List.mem_append.mp hb with hb | hb
    · exact hs.roomBlocks b hb
    · obtain rfl := Option.some.inj (List.mem_singleton.mp hb)
      exact ha
  · exact hs

/-- A shift for a package of its agency, or for all of them. -/
theorem Coherent.onCallShiftCreate (hs : Coherent s) {data : OnCall.OnCallShift}
    (ha : ∀ p ∈ data.packageId, s.agenceDe p = some data.agencyId) (e : Env) :
    Coherent (backend.exec (.inr (.onCallShiftCreate data)) e s).2 := by
  simp only [backend, OnCall.exec]
  split
  · refine ⟨hs.bookings, hs.groups, hs.roomBlocks, fun c hc => ?_, hs.grouped⟩
    rcases List.mem_append.mp hc with hc | hc
    · exact hs.onCallShifts c hc
    · obtain rfl := Option.some.inj (List.mem_singleton.mp hc)
      exact ha
  · exact hs

end OumraHajj.Tenancy
