import OumraHajj.FamilyView.Service

/-!
# The links of the families

Whatever requests run at once, a link opens a booking exactly as long as it is the last one that was drawn for
it, and one that was taken back opens nothing. A link is drawn only for the pilgrim of the booking, who is given
no other, and a view is shown only to whoever has such a link (`family_links`). The handlers check the pilgrim
in a statement before the one that draws: a booking stays with its pilgrim (`Groups.Constant`).
-/

namespace OumraHajj.FamilyView

open Async Groups


/-- The booking is the one, and its pilgrim the user. -/
def DuPelerin (pilgrimId : UserId) (bookingId : BookingId) (s : Groups.Store) (id : BookingId) : Prop :=
  id = bookingId ∧ (s.app.bookings[id]?).map (·.pilgrimId) = some pilgrimId

section Handlers

variable {s : Groups.Store} {pilgrimId : UserId} {bookingId : BookingId}

theorem duPelerin_constant {s s' : Groups.Store} {id : BookingId} (hle : Constant s s')
    (h : DuPelerin pilgrimId bookingId s id) : DuPelerin pilgrimId bookingId s' id := by
  obtain ⟨b, hb, hp⟩ := Option.map_eq_some_iff.mp h.2
  have htitulaires : (s.app.bookings[id]?).map titulaires = some (titulaires b) := by rw [hb]; rfl
  obtain ⟨b', hb', heq⟩ := Option.map_eq_some_iff.mp (hle.titulaires htitulaires)
  refine ⟨h.1, ?_⟩
  rw [hb', Option.map_some, (Prod.mk.inj heq).1, hp]

theorem assertPilgrim_keeps (s : Groups.Store) :
    Maintient (BookingsService.assertPilgrim pilgrimId bookingId) s fun r s' =>
      ∀ id, r = .ok id → DuPelerin pilgrimId bookingId s' id := by
  refine .seq (booking_keeps bookingId) ?_ fun x s' _ => by rintro id ⟨⟩
  rintro booking s₁ - ⟨hid, htitulaires, -⟩
  split
  · rintro id ⟨⟩
  · next heq =>
    rintro id ⟨⟩
    obtain ⟨b, hb, hpair⟩ := Option.map_eq_some_iff.mp htitulaires
    refine ⟨hid, ?_⟩
    rw [hid, hb, Option.map_some, (Prod.mk.inj hpair).1, not_not.mp heq]

end Handlers

theorem duPelerin_stable (pilgrimId : UserId) (bookingId : BookingId) :
    Links.Stable attachesRely (DuPelerin pilgrimId bookingId) := fun _ _ _ => duPelerin_constant

/-- The name of a user. -/
def nomDe (s : Groups.Store) (userId : UserId) : Option String := (s.app.users[userId]?).map (·.fullName)

theorem nomDe_constant {s s' : Groups.Store} (hle : Constant s s') {userId : UserId} {nom : String}
    (h : nomDe s userId = some nom) : nomDe s' userId = some nom := by
  obtain ⟨u, hu, hnom⟩ := Option.map_eq_some_iff.mp h
  exact Option.map_eq_some_iff.mpr ⟨u, get_of_grown hle.users hu, hnom⟩

theorem name_keeps (userId : UserId) (s : Groups.Store) :
    Maintient (app (OumraHajj.UsersService.findByIdOrFail userId)) s fun r s' => Constant s s' ∧
      ∀ user, r = .ok user → nomDe s' userId = some user.fullName := by
  rintro s' e hi hle -
  refine ⟨hi, .refl s', ?_⟩
  rcases hu : s'.app.users[userId]? with _ | u
  · simp only [Groups.backend, Catalogue.backend, prisma, OumraHajj.exec, hu]
    exact ⟨hle, by rintro user ⟨⟩⟩
  · simp only [Groups.backend, Catalogue.backend, prisma, OumraHajj.exec, hu]
    refine ⟨hle, ?_⟩
    rintro user ⟨⟩
    exact congrArg _ hu

/-- The name in a view. -/
theorem lireVue_keeps (booking : BookingShape) (s : Groups.Store) :
    Maintient (BookingsService.lireVue booking) s fun r s' =>
      ∀ view, r = .ok view → nomDe s' booking.pilgrimId = some view.pilgrimFullName := by
  refine .bind ((detache_keeps (app_detache _) s).mono ?_)
  rintro (x | pkg) s₁ -
  · rintro view ⟨⟩
  refine .seq (name_keeps booking.pilgrimId s₁) ?_ fun x s' _ => by rintro view ⟨⟩
  intro pilgrim s₂ _ hnom
  split
  · next groupId _ =>
    refine .bind ((detache_keeps (find_detache groupId) s₂).mono ?_)
    rintro (x | group) s₃ hle
    · rintro view ⟨⟩
    · rintro view ⟨⟩
      exact nomDe_constant hle hnom
  · rintro view ⟨⟩
    exact hnom

/-! ## Requests -/

section Requests

variable {ι : Type} (requests : ι → Request)

/-- The pilgrim of the booking has asked for its link. -/
def Demande (s : Groups.Store) (id : BookingId) : Prop :=
  ∃ t pilgrimId, (requests t).demande = some (pilgrimId, id) ∧ DuPelerin pilgrimId id s id

/-- What a request may be answered. -/
def Fidele (c₀ : Column BookingId String) (q : Request) (x : Recorded) : Reponse → Prop
  | .rien => True
  | .lien link => ∃ pilgrimId id, q.demande = some (pilgrimId, id) ∧ DuPelerin pilgrimId id x.1.1 id ∧
    (id, link.token) ∈ x.2 ++ c₀.rows
  | .vue view => ∃ token id pilgrimId, q = .getView token ∧ (id, token) ∈ x.2 ++ c₀.rows ∧
    DuPelerin pilgrimId id x.1.1 id ∧ nomDe x.1.1 pilgrimId = some view.pilgrimFullName

variable {requests}

theorem demande_stable : Links.Stable attachesRely (Demande requests) := by
  rintro s s' id hle ⟨t, pilgrimId, hq, h⟩
  exact ⟨t, pilgrimId, hq, duPelerin_constant hle h⟩

variable {c₀ : Column BookingId String} {x : Recorded}

/-- The invariant: the links are drawn for those who may have them. -/
abbrev liensRely (requests : ι → Request) (c₀ : Column BookingId String) : Rely Recorded :=
  Links.rely attachesRely (Demande requests) c₀

theorem fidele_later {q : Request} {answer : Reponse} {x x' : Recorded}
    (hle : (liensRely requests c₀).le x x') (h : Fidele c₀ q x answer) : Fidele c₀ q x' answer := by
  cases answer with
  | rien => trivial
  | lien link =>
    obtain ⟨pilgrimId, id, hq, hp, hmem⟩ := h
    exact ⟨pilgrimId, id, hq, duPelerin_constant hle.1 hp, Links.mem_later hle hmem⟩
  | vue view =>
    obtain ⟨token, id, pilgrimId, hq, hmem, hp, hnom⟩ := h
    exact ⟨token, id, pilgrimId, hq, Links.mem_later hle hmem, duPelerin_constant hle.1 hp,
      nomDe_constant hle.1 hnom⟩

/-- The handler keeps the invariant, and its answer is what it should be. -/
abbrev Sert (requests : ι → Request) (c₀ : Column BookingId String) (q : Request) (p : Req Reponse)
    (x : Recorded) : Prop :=
  Links.Keeps attachesRely (Demande requests) c₀ Groups.backend rows LinkEnv.toEnv LinkEnv.jeton p x
    fun r x' => ∀ answer, r = .ok answer → Fidele c₀ q x' answer

/-- A link that is given. -/
theorem lien_sert {q : Request} {p : Req String} {pilgrimId : UserId} {id : BookingId}
    (hq : q.demande = some (pilgrimId, id))
    (hp : Links.Keeps attachesRely (Demande requests) c₀ Groups.backend rows LinkEnv.toEnv LinkEnv.jeton p x
      fun r x' => ∀ t, r = .ok t → Links.Given (DuPelerin pilgrimId id) c₀ t x') :
    Sert requests c₀ q ((p.bind fun t => .ret (toFamilyViewLinkShape t)).bind fun link => .ret (.lien link)) x := by
  rw [Prog.bind_assoc]
  refine .bind (hp.mono ?_)
  rintro (_ | t) x' hgiven
  · rintro answer ⟨⟩
  · rintro answer ⟨⟩
    obtain ⟨k, hk, hmem⟩ := hgiven t rfl
    obtain rfl : k = id := hk.1
    exact ⟨pilgrimId, k, hq, hk, hmem⟩

theorem handler_sert (t : ι) (x : Recorded) : Sert requests c₀ (requests t) (handler (requests t)) x := by
  have hverify : ∀ (pilgrimId : UserId) (id : BookingId), (requests t).demande = some (pilgrimId, id) →
      ∀ s k, DuPelerin pilgrimId id s k → Demande requests s k := by
    rintro pilgrimId id hq s k ⟨rfl, hp⟩
    exact ⟨t, pilgrimId, hq, rfl, hp⟩
  rcases hq : requests t with q | ⟨pilgrimId, id⟩ | ⟨pilgrimId, id⟩ | token
  · refine .bind ((Links.left_keeps demande_stable (attaches_keeps q x.1.1)).mono ?_)
    rintro (_ | _) x' -
    · rintro answer ⟨⟩
    · rintro answer ⟨⟩
      trivial
  · refine lien_sert rfl (Links.getOrCreate_keeps demande_stable (duPelerin_stable pilgrimId id)
      (hverify pilgrimId id (by rw [hq]; rfl)) (C := fun s => DuPelerin pilgrimId id s id)
      (fun _ _ => duPelerin_constant) ?_ ?_ assertPilgrim_keeps _ _ _)
    · refine .bind ((assertPilgrim_keeps x.1.1).mono ?_)
      rintro (_ | k) s' hk
      · rintro ⟨⟩
      · rintro -
        have hk' := hk k rfl
        exact hk'.1 ▸ hk'
    · rintro s k - hc hrow
      obtain ⟨-, -, rfl⟩ := Option.map_eq_some_iff.mp hrow
      exact hc
  · exact lien_sert rfl (Links.regenerate_keeps demande_stable (duPelerin_stable pilgrimId id)
      (hverify pilgrimId id (by rw [hq]; rfl)) assertPilgrim_keeps _)
  · refine .bind (Links.opens_keeps ?_ ?_)
    · rintro x' - - answer ⟨⟩
    · intro x' id raw hx' hle hmem hraw
      refine (Links.left_keeps demande_stable (lireVue_keeps (toBookingShape id raw) x'.1.1)).mono ?_
      rintro (_ | view) x'' ⟨hle', hnom⟩
      · rintro answer ⟨⟩
      · rintro answer ⟨⟩
        refine ⟨token, id, raw.pilgrimId, rfl, Links.mem_later hle' hmem, duPelerin_constant hle'.1 ?_,
          hnom view rfl⟩
        exact ⟨rfl, by rw [show x'.1.1.app.bookings[id]? = some raw from hraw]; rfl⟩

end Requests

/-- **The links of the families.** Whatever requests run at once, where no token is drawn twice: a link opens a
booking exactly as long as it is the last one that was drawn for it; one that was taken back opens nothing; a
link is drawn only if the pilgrim of the booking asks for it; and whoever is given a link or shown a view is the
pilgrim of the booking, or has a link of it. -/
theorem family_links {ι : Type} [DecidableEq ι] (requests : ι → Request) {s : Groups.Store} (hs : Attaches s)
    (c₀ : Column BookingId String) {c : Pool sig ι Recorded Erreur Reponse}
    (hr : Pool.Reach (backend.logged Links.note) (Rely.cond (Links.Fresh c₀ LinkEnv.jeton))
      (poolOf requests (s, c₀)) c) :
    (∀ token id, c.st.1.2.find token = some id ↔ Links.last c₀ c.st.2 id = some token) ∧
      (∀ id token, (id, token) ∈ c.st.2 ++ c₀.rows → Links.last c₀ c.st.2 id ≠ some token →
        c.st.1.2.find token = none) ∧
      (∀ y ∈ c.st.2, Demande requests c.st.1.1 y.1) ∧
      ∀ t answer, c.procs t = .ret answer → Fidele c₀ (requests t) c.st answer := by
  have h₀ : (liensRely requests c₀).inv (poolOf requests (s, c₀)).st :=
    ⟨hs, Links.Follows.init c₀, by rintro y ⟨⟩⟩
  obtain ⟨⟨-, hfollows, hdemande⟩, -, hdone⟩ := Rely.reach_done
    (fun t _ _ _ hle h answer hanswer => fidele_later hle (h answer hanswer)) h₀
    (fun t => handler_sert t (poolOf requests (s, c₀)).st) hr
  refine ⟨fun _ _ => hfollows.find_iff, fun _ _ => hfollows.revoked, hdemande, fun t answer hret => ?_⟩
  have hdone := hdone t
  rw [hret] at hdone
  exact hdone answer rfl

/-- A booking of the user 0. -/
private def dossier : Groups.Store where
  app := { Db.exemple with
    users := [{ fullName := "Pèlerin" }, { fullName := "Gérante" }]
    bookings := [Booking.exemple] }

/-- The pilgrim asks for his link twice, and his family shows the first one. -/
private def demandes : Fin 3 → Request
  | 0 => .getFamilyViewLink 0 0
  | 1 => .getFamilyViewLink 0 0
  | 2 => .getView "a"

/-- Both requests find no link, so each of them draws one. -/
private def ordre : List (Fin 3 × LinkEnv) :=
  ((turns [0, 1, 0, 1, 0, 1, 0, 1, 2]).map Prod.fst).zip
    [{}, {}, {}, {}, {}, {}, { jeton := "a" }, { jeton := "b" }, {}]

private def liens : Pool sig (Fin 3) Recorded Erreur Reponse :=
  Pool.run (backend.logged Links.note) ordre (poolOf demandes (dossier, default))

/-- The first link is given, and taken back by the second one. -/
theorem family_links_deux :
    ((∃ link, liens.procs 0 = .ret (.lien link) ∧ link.token = "a") ∧ liens.st.2 = [(0, "b"), (0, "a")]) ∧
      liens.st.1.2.find "a" = none ∧ liens.st.1.2.find "b" = some 0 := by
  have hs : Attaches dossier := by
    refine ⟨?_, ?_⟩
    · rintro g ⟨⟩
    · rintro b hb i hi
      obtain rfl := List.mem_singleton.mp hb
      cases hi
  have hallowed : Pool.Allowed (backend.logged Links.note) (Rely.cond (Links.Fresh default LinkEnv.jeton))
      (poolOf demandes (dossier, default)) ordre := by decide +kernel
  have hr : Pool.Reach (backend.logged Links.note) (Rely.cond (Links.Fresh default LinkEnv.jeton))
      (poolOf demandes (dossier, default)) liens := hallowed.reach .refl
  obtain ⟨hlast, hrevoked, -⟩ := family_links demandes hs default hr
  have hdrawn : liens.st.2 = [(0, "b"), (0, "a")] := by decide +kernel
  rw [hdrawn] at hlast hrevoked
  exact ⟨⟨⟨_, rfl, rfl⟩, hdrawn⟩, hrevoked 0 "a" (by decide +kernel) (by decide +kernel),
    (hlast "b" 0).mpr (by decide +kernel)⟩

end OumraHajj.FamilyView
