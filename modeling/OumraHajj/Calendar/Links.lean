import OumraHajj.Async.Links
import OumraHajj.Calendar.Service
import OumraHajj.Groups.Attaches

/-!
# The subscription links of the agencies

An agency subscribes to its calendar by a secret link (`getOrCreateCalendarSubscription`,
`regenerateCalendarSubscription` and `findByCalendarTokenOrFail` of `src/modules/agencies/agencies.service.ts`).
These are links of `Async.Links` as well, of the agencies: here the first query of the owner reads the token of his
agency, and only a new link checks anything else.

`calendar_links` is what `FamilyView.family_links` says of the families. Of one state, the link of the feed in
`Calendar.Service` opens the same agency (`agencyOfToken_find`).
-/

namespace OumraHajj.Calendar.Links

open Async Groups

structure CalendarSubscriptionShape where
  token : String
  subscriptionUrl : String

def toCalendarSubscriptionShape (token : String) : CalendarSubscriptionShape :=
  { token, subscriptionUrl := "/api/v1/calendar/agency/" ++ token ++ "/calendar.ics" }

/-- `jeton` is what `randomBytes(24).toString('hex')` answers. -/
structure LinkEnv extends OumraHajj.Env where
  jeton : String := ""

/-- The agencies with their links. -/
abbrev LinkStore := Groups.Store × Column AgencyId String

abbrev linkSig : Sig := Async.Links.linked Groups.sig UserId AgencyId String Agency

/-- `where: { ownerId }`. -/
def rows : Async.Links.Rows Groups.Store UserId AgencyId Agency where
  row s ownerId := (s.app.agencyOf ownerId).map Prod.fst
  record s id := s.app.agencies[id]?

def linkBackend : Backend linkSig LinkStore LinkEnv :=
  Async.Links.backend Groups.backend rows LinkEnv.toEnv LinkEnv.jeton

/-- A request handler. -/
abbrev LinkReq := Prog linkSig Erreur

namespace AgenciesService

def ownedId (ownerId : UserId) : Groups.Req AgencyId := do
  let owned ← app (OumraHajj.AgenciesService.findByOwnerOrFail ownerId)
  return owned.id

def regenerateCalendarSubscription (ownerId : UserId) : LinkReq CalendarSubscriptionShape := do
  let token ← Async.Links.regenerate (ownedId ownerId) .prisma
  return toCalendarSubscriptionShape token

def getOrCreateCalendarSubscription (ownerId : UserId) : LinkReq CalendarSubscriptionShape := do
  let token ← Async.Links.getOrCreate (.ret ()) ownerId (.notFound "Agence introuvable") (· ≠ "")
    (ownedId ownerId) .prisma
  return toCalendarSubscriptionShape token

def findByCalendarTokenOrFail (token : String) : LinkReq AgencyShape :=
  .call (.inr (.opens token)) fun
    | none => .fail (.notFound "Lien de calendrier invalide")
    | some (id, agency) => .ret (toAgencyShape id agency)

end AgenciesService

/-- What the feed reads. -/
abbrev feedStore (x : LinkStore) : Store := { app := x.1.app, calendarToken := x.2.get }

/-- The query of the feed. -/
theorem agencyOfToken_find (x : LinkStore) (token : String) :
    (feedStore x).agencyOfToken token =
      (x.2.find token).bind fun id => (x.1.app.agencies[id]?).map (id, ·) := by
  have hlink : ∀ y : AgencyId × Agency, y ∈ x.1.app.agencies.withIds → x.2.get y.1 = some token →
      (x.2.find token).bind (fun id => (x.1.app.agencies[id]?).map (id, ·)) = some y := by
    rintro ⟨id, agency⟩ hmem hget
    rw [Column.find_iff_get.mpr hget, Option.bind_some, Table.mem_withIds.mp hmem]
    rfl
  rcases hfind : (feedStore x).agencyOfToken token with _ | y
  · refine (Option.eq_none_iff_forall_ne_some.mpr fun y hy => ?_).symm
    obtain ⟨id, hid, hrow⟩ := Option.bind_eq_some_iff.mp hy
    obtain ⟨agency, hagency, rfl⟩ := Option.map_eq_some_iff.mp hrow
    have hno := List.find?_eq_none.mp hfind (id, agency) (Table.mem_withIds.mpr hagency)
    exact hno (decide_eq_true (Column.find_iff_get.mp hid))
  · have htoken := List.find?_some hfind
    exact (hlink y (List.mem_of_find?_eq_some hfind) (of_decide_eq_true htoken)).symm

/-! ## Requests -/

inductive Request where
  | groups (q : Groups.Request)
  | getCalendarSubscription (ownerId : UserId)
  | regenerateCalendarSubscription (ownerId : UserId)
  | findByCalendarToken (token : String)

/-- The owner who asks for the link of his agency. -/
def Request.demandeur : Request → Option UserId
  | .getCalendarSubscription ownerId => some ownerId
  | .regenerateCalendarSubscription ownerId => some ownerId
  | _ => none

inductive Reponse where
  | rien
  | lien (link : CalendarSubscriptionShape)
  | agence (agency : AgencyShape)

/-- The handler of a request. -/
def handler : Request → LinkReq Reponse
  | .groups q => (Prog.left (Groups.handler q)).bind fun _ => .ret .rien
  | .getCalendarSubscription ownerId =>
    (AgenciesService.getOrCreateCalendarSubscription ownerId).bind fun link => .ret (.lien link)
  | .regenerateCalendarSubscription ownerId =>
    (AgenciesService.regenerateCalendarSubscription ownerId).bind fun link => .ret (.lien link)
  | .findByCalendarToken token =>
    (AgenciesService.findByCalendarTokenOrFail token).bind fun agency => .ret (.agence agency)

/-- The state with the links that were drawn. -/
abbrev Recorded := LinkStore × Async.Links.Drawn AgencyId String

/-- The requests run at once, from the store `s`; nothing has been drawn. -/
def poolOf {ι : Type} (requests : ι → Request) (s : LinkStore) : Pool linkSig ι Recorded Erreur Reponse :=
  ⟨fun t => handler (requests t), (s, [])⟩

/-! ## The links -/

/-- The agency is the owner's. -/
def DuGerant (ownerId : UserId) (s : Groups.Store) (id : AgencyId) : Prop :=
  ∃ row, s.app.agencyOf ownerId = some (id, row)

theorem duGerant_constant {s s' : Groups.Store} {ownerId : UserId} {id : AgencyId} (hle : Constant s s')
    (h : DuGerant ownerId s id) : DuGerant ownerId s' id := by
  obtain ⟨row, hrow⟩ := h
  exact ⟨row, hle.agencyOf hrow⟩

theorem ownedId_keeps {ownerId : UserId} (s : Groups.Store) :
    Maintient (AgenciesService.ownedId ownerId) s fun r s' => ∀ id, r = .ok id → DuGerant ownerId s' id := by
  refine .seq (Groups.owner_keeps ownerId) ?_ fun x s' _ => by rintro id ⟨⟩
  rintro owned s₁ - hrow
  rintro id ⟨⟩
  exact hrow

section Requests

variable {ι : Type} (requests : ι → Request)

/-- The owner of the agency has asked for its link. -/
def Demande (s : Groups.Store) (id : AgencyId) : Prop :=
  ∃ t ownerId, (requests t).demandeur = some ownerId ∧ DuGerant ownerId s id

/-- What a request may be answered. -/
def Fidele (c₀ : Column AgencyId String) (q : Request) (x : Recorded) : Reponse → Prop
  | .rien => True
  | .lien link => ∃ ownerId, q.demandeur = some ownerId ∧
    Async.Links.Given (DuGerant ownerId) c₀ link.token x
  | .agence agency => ∃ token, q = .findByCalendarToken token ∧ (agency.id, token) ∈ x.2 ++ c₀.rows

variable {requests} {c₀ : Column AgencyId String} {x : Recorded}

theorem demande_stable : Async.Links.Stable attachesRely (Demande requests) := by
  rintro s s' id hle ⟨t, ownerId, hq, h⟩
  exact ⟨t, ownerId, hq, duGerant_constant hle h⟩

theorem duGerant_stable (ownerId : UserId) : Async.Links.Stable attachesRely (DuGerant ownerId) :=
  fun _ _ _ => duGerant_constant

/-- The invariant: the links are drawn for those who may have them. -/
abbrev liensRely (requests : ι → Request) (c₀ : Column AgencyId String) : Rely Recorded :=
  Async.Links.rely attachesRely (Demande requests) c₀

theorem fidele_later {q : Request} {answer : Reponse} {x x' : Recorded}
    (hle : (liensRely requests c₀).le x x') (h : Fidele c₀ q x answer) : Fidele c₀ q x' answer := by
  cases answer with
  | rien => trivial
  | lien link =>
    obtain ⟨ownerId, hq, hgiven⟩ := h
    exact ⟨ownerId, hq, hgiven.later (duGerant_stable ownerId) hle⟩
  | agence agency =>
    obtain ⟨token, hq, hmem⟩ := h
    exact ⟨token, hq, Async.Links.mem_later hle hmem⟩

/-- The handler keeps the invariant, and its answer is what it should be. -/
abbrev Sert (requests : ι → Request) (c₀ : Column AgencyId String) (q : Request) (p : LinkReq Reponse)
    (x : Recorded) : Prop :=
  Async.Links.Keeps attachesRely (Demande requests) c₀ Groups.backend rows LinkEnv.toEnv LinkEnv.jeton p x
    fun r x' => ∀ answer, r = .ok answer → Fidele c₀ q x' answer

theorem handler_sert (t : ι) (x : Recorded) : Sert requests c₀ (requests t) (handler (requests t)) x := by
  have hverify : ∀ ownerId, (requests t).demandeur = some ownerId →
      ∀ s k, DuGerant ownerId s k → Demande requests s k := fun ownerId hq s k h => ⟨t, ownerId, hq, h⟩
  rcases hq : requests t with q | ownerId | ownerId | token
  · refine .bind ((Async.Links.left_keeps demande_stable (attaches_keeps q x.1.1)).mono ?_)
    rintro (_ | _) x' -
    · rintro answer ⟨⟩
    · rintro answer ⟨⟩
      trivial
  · refine .bind (.bind ((Async.Links.getOrCreate_keeps demande_stable (duGerant_stable ownerId)
      (hverify ownerId (by rw [hq]; rfl)) (C := fun _ => True) (fun _ _ _ _ => trivial) ?_ ?_ ownedId_keeps
      _ _ _).mono ?_))
    · exact fun _ => trivial
    · rintro s k - - hrow
      obtain ⟨⟨id, row⟩, hagency, rfl⟩ := Option.map_eq_some_iff.mp hrow
      exact ⟨row, hagency⟩
    · rintro (_ | token) x' hgiven
      · rintro answer ⟨⟩
      · rintro answer ⟨⟩
        exact ⟨ownerId, rfl, hgiven token rfl⟩
  · refine .bind (.bind ((Async.Links.regenerate_keeps demande_stable (duGerant_stable ownerId)
      (hverify ownerId (by rw [hq]; rfl)) ownedId_keeps _).mono ?_))
    rintro (_ | token) x' hgiven
    · rintro answer ⟨⟩
    · rintro answer ⟨⟩
      exact ⟨ownerId, rfl, hgiven token rfl⟩
  · refine .bind (Async.Links.opens_keeps ?_ ?_)
    · rintro x' - - answer ⟨⟩
    · rintro x' id agency - - hmem - answer ⟨⟩
      exact ⟨token, rfl, hmem⟩

end Requests

/-- **The subscription links.** Whatever requests run at once, where no token is drawn twice: a link opens the
feed of an agency exactly as long as it is the last one that was drawn for it; one that was taken back opens
nothing; a link is drawn only if the owner of the agency asks for it; and whoever is given a link or found an
agency is its owner, or has a link of it. -/
theorem calendar_links {ι : Type} [DecidableEq ι] (requests : ι → Request) {s : Groups.Store} (hs : Attaches s)
    (c₀ : Column AgencyId String) {c : Pool linkSig ι Recorded Erreur Reponse}
    (hr : Pool.Reach (linkBackend.logged Async.Links.note) (Rely.cond (Async.Links.Fresh c₀ LinkEnv.jeton))
      (poolOf requests (s, c₀)) c) :
    (∀ token id agency, (feedStore c.st.1).agencyOfToken token = some (id, agency) ↔
        Async.Links.last c₀ c.st.2 id = some token ∧ c.st.1.1.app.agencies[id]? = some agency) ∧
      (∀ id token, (id, token) ∈ c.st.2 ++ c₀.rows → Async.Links.last c₀ c.st.2 id ≠ some token →
        (feedStore c.st.1).agencyOfToken token = none) ∧
      (∀ y ∈ c.st.2, Demande requests c.st.1.1 y.1) ∧
      ∀ t answer, c.procs t = .ret answer → Fidele c₀ (requests t) c.st answer := by
  have h₀ : (liensRely requests c₀).inv (poolOf requests (s, c₀)).st :=
    ⟨hs, Async.Links.Follows.init c₀, by rintro y ⟨⟩⟩
  obtain ⟨⟨-, hfollows, hdemande⟩, -, hdone⟩ := Rely.reach_done
    (fun t _ _ _ hle h answer hanswer => fidele_later hle (h answer hanswer)) h₀
    (fun t => handler_sert t (poolOf requests (s, c₀)).st) hr
  refine ⟨fun token id agency => ?_, fun id token hmem hne => ?_, hdemande, fun t answer hret => ?_⟩
  · rw [agencyOfToken_find, Option.bind_eq_some_iff]
    constructor
    · rintro ⟨id', hid, hrow⟩
      obtain ⟨agency', hagency, heq⟩ := Option.map_eq_some_iff.mp hrow
      obtain ⟨rfl, rfl⟩ := Prod.mk.inj heq
      exact ⟨hfollows.find_iff.mp hid, hagency⟩
    · rintro ⟨hlast, hagency⟩
      exact ⟨id, hfollows.find_iff.mpr hlast, by rw [hagency]; rfl⟩
  · rw [agencyOfToken_find, hfollows.revoked hmem hne]
    rfl
  · have hdone := hdone t
    rw [hret] at hdone
    exact hdone answer rfl

/-- The owner renews the link of her agency. -/
private def renouvellement : Fin 2 → Request
  | 0 => .regenerateCalendarSubscription 1
  | 1 => .getCalendarSubscription 1

/-- The second request reads the link before it is renewed. -/
private def ordre : List (Fin 2 × LinkEnv) := ((turns [0, 1, 0]).map Prod.fst).zip [{}, {}, { jeton := "b" }]

private def ancien : Column AgencyId String := ⟨[(0, "a")], by decide, by decide⟩

private def renouvele : Pool linkSig (Fin 2) Recorded Erreur Reponse :=
  Pool.run (linkBackend.logged Async.Links.note) ordre (poolOf renouvellement ({ app := Db.exemple }, ancien))

/-- The old link is given as it is taken back. -/
theorem calendar_links_renouvele :
    ((∃ link, renouvele.procs 1 = .ret (.lien link) ∧ link.token = "a") ∧ renouvele.st.2 = [(0, "b")]) ∧
      (feedStore renouvele.st.1).agencyOfToken "a" = none ∧
        ∃ agency, (feedStore renouvele.st.1).agencyOfToken "b" = some (0, agency) := by
  have hs : Attaches { app := Db.exemple } := by
    refine ⟨?_, ?_⟩
    · rintro g ⟨⟩
    · rintro b ⟨⟩
  have hallowed : Pool.Allowed (linkBackend.logged Async.Links.note)
      (Rely.cond (Async.Links.Fresh ancien LinkEnv.jeton))
      (poolOf renouvellement ({ app := Db.exemple }, ancien)) ordre := by decide +kernel
  have hr : Pool.Reach (linkBackend.logged Async.Links.note)
      (Rely.cond (Async.Links.Fresh ancien LinkEnv.jeton))
      (poolOf renouvellement ({ app := Db.exemple }, ancien)) renouvele := hallowed.reach .refl
  obtain ⟨hlast, hrevoked, -⟩ := calendar_links renouvellement hs ancien hr
  have hdrawn : renouvele.st.2 = [(0, "b")] := by decide +kernel
  rw [hdrawn] at hlast hrevoked
  exact ⟨⟨⟨_, rfl, rfl⟩, hdrawn⟩, hrevoked 0 "a" (by decide +kernel) (by decide +kernel),
    _, (hlast "b" 0 _).mpr ⟨by decide +kernel, rfl⟩⟩

end OumraHajj.Calendar.Links
