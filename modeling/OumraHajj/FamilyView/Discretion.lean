import OumraHajj.FamilyView.Service

/-!
# What a family sees

`connu x token` is what a family may know of the booking that its link opens: the state of the dossier, the name
of the pilgrim and the title of the package, and of the group the position of the pilgrim and the itinerary. The
view is made of this and of nothing else (`family_discreet`): neither the documents nor the payments, nor where
the other members are.
-/

namespace OumraHajj.FamilyView

open Async Groups

/-- What is known of a group (module doc). -/
structure GroupeConnu where
  position : Option FamilyViewLocation
  itinerary : List ItineraryStepShape

/-- What is known of a booking (module doc); a row that is missing is `none`. -/
structure Connu where
  status : BookingStatus
  steps : List DossierStepShape
  pilgrimFullName : Option String
  packageTitle : Option String
  /-- `none` without a group. -/
  groupe : Option (Option GroupeConnu)

def groupeConnu (s : Groups.Store) (pilgrimId : UserId) (groupId : GroupId) : Option GroupeConnu :=
  (s.groups[groupId]?).map fun _ =>
    { position := (s.groupMemberLocations.find? fun l => l.groupId = groupId ∧ l.userId = pilgrimId).map
        fun l => { lat := l.lat, lng := l.lng, updatedAt := l.updatedAt }
      itinerary := (s.groupItinerarySteps.filter (·.groupId = groupId)).map fun step =>
        { label := step.label, date := step.date, location := step.location } }

def connu (x : Store) (token : String) : Option Connu := do
  let id ← x.2.find token
  let booking ← x.1.app.bookings[id]?
  return {
    status := booking.status
    steps := (toBookingShape id booking).steps
    pilgrimFullName := (x.1.app.users[booking.pilgrimId]?).map (·.fullName)
    packageTitle := (x.1.app.packages[booking.packageId]?).map (·.title)
    groupe := booking.groupId.map (groupeConnu x.1 booking.pilgrimId) }

/-- The last step of an itinerary. -/
def derniereEtape (itinerary : List ItineraryStepShape) : Option ItineraryStepShape :=
  (itinerary.mergeSort fun a b => b.date ≤ a.date).head?

/-- The answer to whoever knows it. -/
def reponse : Option Connu → Except Erreur FamilyViewShape
  | none => .error (.notFound "Lien de suivi invalide")
  | some k =>
    match k.packageTitle, k.pilgrimFullName, k.groupe with
    | none, _, _ => .error (.notFound "Forfait introuvable")
    | some _, none, _ => .error (.notFound "Utilisateur introuvable")
    | some _, some _, some none => .error (.notFound "Groupe introuvable")
    | some title, some nom, some (some groupe) =>
      .ok ⟨nom, title, k.status, k.steps, groupe.position, derniereEtape groupe.itinerary⟩
    | some title, some nom, none => .ok ⟨nom, title, k.status, k.steps, none, none⟩

/-- The groups of a store. -/
def groupsPortion : Portion Store Groups.Store where
  get x := x.1
  set x s := (s, x.2)
  get_set _ _ := rfl
  set_get _ := rfl
  set_set _ _ _ := rfl

theorem actsOn_groups : Groups.backend.ActsOn groupsPortion backend LinkEnv.toEnv := fun _ _ _ => rfl

section View

variable {s s' : Groups.Store}

/-- The position of the pilgrim among those of his group. -/
theorem position_record {pilgrimId : UserId} {u : User} (hu : s.app.users[pilgrimId]? = some u) (id : GroupId)
    (g : Group) :
    ((toGroupShape (s.record id g)).locations.find? (·.userId = pilgrimId)).map
        (fun l => (⟨l.lat, l.lng, l.updatedAt⟩ : FamilyViewLocation)) =
      (s.groupMemberLocations.find? fun l => l.groupId = id ∧ l.userId = pilgrimId).map
        fun l => ⟨l.lat, l.lng, l.updatedAt⟩ := by
  simp only [toGroupShape, Store.record]
  induction s.groupMemberLocations with
  | nil => rfl
  | cons l rows ih =>
    by_cases hg : l.groupId = id
    · by_cases hp : l.userId = pilgrimId
      · simp [hg, hp, hu]
      · rcases hv : s.app.users[l.userId]? with _ | v
        · simpa [hg, hp, hv] using ih
        · simpa [hg, hp, hv] using ih
    · simpa [hg] using ih

/-- The view is the answer to what is known. -/
theorem lireVue_runs {id : BookingId} {booking : Booking} {r : Except Erreur FamilyViewShape}
    (hr : Groups.backend.Runs (BookingsService.lireVue (toBookingShape id booking)) s r s') :
    s' = s ∧ r = reponse (some
      { status := booking.status
        steps := (toBookingShape id booking).steps
        pilgrimFullName := (s.app.users[booking.pilgrimId]?).map (·.fullName)
        packageTitle := (s.app.packages[booking.packageId]?).map (·.title)
        groupe := booking.groupId.map (groupeConnu s booking.pilgrimId) }) := by
  obtain ⟨e, hr⟩ := hr
  rcases hp : s.app.packages[booking.packageId]? with _ | pkg
  · simp only [Groups.backend, Catalogue.backend, prisma, OumraHajj.exec, toBookingShape, hp] at hr
    exact ⟨hr.2, hr.1⟩
  simp only [Groups.backend, Catalogue.backend, prisma, OumraHajj.exec, toBookingShape, hp] at hr
  obtain ⟨e', hr⟩ := hr
  rcases hu : s.app.users[booking.pilgrimId]? with _ | u
  · simp only [hu] at hr
    exact ⟨hr.2, hr.1⟩
  simp only [hu] at hr
  rcases hgroup : booking.groupId with _ | groupId
  · rw [hgroup] at hr
    exact ⟨hr.2, hr.1⟩
  rw [hgroup] at hr
  obtain ⟨e'', hr⟩ := hr
  rcases hg : s.groups[groupId]? with _ | g
  · simp only [Groups.exec, hg] at hr
    refine ⟨hr.2, hr.1.trans ?_⟩
    simp [reponse, groupeConnu, hg]
  · simp only [Groups.exec, hg] at hr
    refine ⟨hr.2, hr.1.trans ?_⟩
    simp only [reponse, groupeConnu, hg, Option.map_some, BookingsService.vue, Option.bind_some,
      position_record hu groupId g]
    rfl

theorem getFamilyView_runs {token : String} {x x' : Store} {r : Except Erreur FamilyViewShape}
    (hr : backend.Runs (BookingsService.getFamilyView token) x r x') :
    x' = x ∧ r = reponse (connu x token) := by
  obtain ⟨e, hr⟩ := hr
  have hexec : backend.exec (.inr (.opens token)) e x =
    ((x.2.find token).bind fun id => (x.1.app.bookings[id]?).map (id, ·), x) := rfl
  rw [hexec] at hr
  rcases hfind : x.2.find token with _ | id
  · rw [hfind] at hr
    refine ⟨hr.2, hr.1.trans ?_⟩
    simp [connu, hfind, reponse]
  rcases hb : x.1.app.bookings[id]? with _ | booking
  · rw [hfind, Option.bind_some, hb] at hr
    refine ⟨hr.2, hr.1.trans ?_⟩
    simp [connu, hfind, hb, reponse]
  rw [hfind, Option.bind_some, hb] at hr
  obtain ⟨hrun, hx⟩ := runs_portion actsOn_groups hr
  obtain ⟨hs, rfl⟩ := lireVue_runs hrun
  refine ⟨hx.trans ?_, ?_⟩
  · rw [hs, groupsPortion.set_get]
  · simp [connu, hfind, hb, groupsPortion]

end View

/-- **The view is discreet.** Two databases in which the family may know the same are answered the same, and a
view changes nothing. -/
theorem family_discreet {token : String} {x₁ x₂ x₁' x₂' : Store} (h : connu x₁ token = connu x₂ token)
    {r₁ r₂ : Except Erreur FamilyViewShape}
    (h₁ : backend.Runs (BookingsService.getFamilyView token) x₁ r₁ x₁')
    (h₂ : backend.Runs (BookingsService.getFamilyView token) x₂ r₂ x₂') : r₁ = r₂ ∧ x₁' = x₁ ∧ x₂' = x₂ := by
  obtain ⟨hx₁, rfl⟩ := getFamilyView_runs h₁
  obtain ⟨hx₂, rfl⟩ := getFamilyView_runs h₂
  exact ⟨congrArg _ h, hx₁, hx₂⟩

/-- Two members of a group, and the link of the first one. -/
private def voyage (position : ℚ) : Store :=
  ({ app := { Db.exemple with
       users := [{ fullName := "Pèlerin" }, { fullName := "Gérante" }, { fullName := "Compagnon" }]
       bookings := [{ Booking.exemple with groupId := some 0 }] }
     groups := [{ packageId := 0, agencyId := 0, title := "Groupe" }]
     groupMembers := [⟨0, 0⟩, ⟨0, 2⟩]
     groupItinerarySteps := [{ groupId := 0, label := "La Mecque", date := 1 }]
     groupMemberLocations :=
       [{ groupId := 0, userId := 2, lat := position, lng := 39, updatedAt := 1 },
         { groupId := 0, userId := 0, lat := 21, lng := 39, updatedAt := 1 }] },
    ⟨[(0, "lien")], by decide, by decide⟩)

/-- The other member moves. -/
theorem family_discreet_voyage :
    ((backend.eval {} (BookingsService.getFamilyView "lien") (voyage 20)).1.toOption.bind
      (·.location)).map (·.lat) = some 21 ∧
    (backend.eval {} (BookingsService.getFamilyView "lien") (voyage 20)).1 =
      (backend.eval {} (BookingsService.getFamilyView "lien") (voyage 22)).1 :=
  ⟨by decide +kernel, (family_discreet rfl (Backend.eval_runs _ _ _) (Backend.eval_runs _ _ _)).1⟩

end OumraHajj.FamilyView
