import OumraHajj.Catalogue.Handlers
import OumraHajj.Groups.Service

/-!
# What the handlers of the groups execute

`handler_courante`: all the requests but `createBooking`, `cancelBooking` and `assignGroup` leave who is
booked and who is in a group. `handler_sansReservation`: only the first one creates a booking.
-/

namespace OumraHajj.Groups

open Async

/-- The statement creates no booking and cancels none, and puts nobody in a group. -/
def Courante : sig.Stmt → Prop
  | .inl c => Catalogue.Courante c
  | .inr (.groupMemberCreate _ _) => False
  | .inr (.bookingUpdate _ _) => False
  | .inr _ => True

section Handlers

theorem app_courante {α : Type} {p : OumraHajj.Req α} (hp : p.Uses OumraHajj.Courante) :
    (app p).Uses Courante := by
  have hcatalogue : (Prog.left p : Catalogue.Req α).Uses Catalogue.Courante := hp.left fun _ h => h
  exact hcatalogue.left fun _ h => h

theorem user_courante (id : UserId) : (UsersService.findByIdOrFail id).Uses OumraHajj.Courante := by
  refine ⟨trivial, fun r => ?_⟩
  cases r <;> trivial

theorem find_courante (id : GroupId) :
    (GroupsService.findByIdOrFail id).Uses Courante := by
  refine ⟨trivial, fun r => ?_⟩
  cases r <;> trivial

theorem ownership_courante (ownerId : UserId) (group : GroupShape) :
    (GroupsService.assertAgencyOwnership ownerId group).Uses Courante := by
  refine (app_courante (courante_owner ownerId)).bind fun agency => ?_
  split <;> trivial

theorem available_courante (guideId : UserId) (group : GroupShape) :
    (GroupsService.assertGuideAvailable guideId group).Uses Courante := by
  refine ⟨trivial, fun forfait => ?_⟩
  rcases forfait with _ | forfait
  · trivial
  refine ⟨trivial, fun autre => ?_⟩
  rcases autre with _ | title
  · refine ⟨trivial, fun absence => ?_⟩
    cases absence <;> trivial
  · trivial

theorem updateLocation_courante (userId : UserId) (groupId : GroupId) (lat lng : ℚ) :
    (GroupsService.updateLocation userId groupId lat lng).Uses Courante := by
  refine (find_courante groupId).bind fun group => ?_
  split
  · trivial
  · refine ⟨trivial, fun r => ?_⟩
    cases r with
    | error code => trivial
    | ok _ => exact find_courante groupId

theorem alerter_courante (group : GroupShape) (type : NotificationType)
    (title content : Texte) (isCritical : Bool) :
    (GroupsService.alerter group type title content isCritical).Uses Courante := by
  unfold GroupsService.alerter
  split
  · exact app_courante (uses_send informs_courante _)
  · trivial

theorem triggerSos_courante (pilgrimUserId : UserId) (groupId : GroupId) :
    (GroupsService.triggerSos pilgrimUserId groupId).Uses Courante := by
  refine (find_courante groupId).bind fun group => ?_
  split
  · trivial
  refine (app_courante (user_courante pilgrimUserId)).bind fun pilgrim =>
    (alerter_courante group _ _ _ _).bind fun _ => ?_
  split
  · split
    · trivial
    · exact app_courante (Prog.uses_exec trivial)
  · trivial

/-- Every request but these three. -/
theorem handler_courante (q : Request) :
    (∃ pilgrimId packageId, q = .catalogue (.app (.createBooking pilgrimId packageId))) ∨
      (∃ pilgrimId bookingId, q = .catalogue (.app (.cancelBooking pilgrimId bookingId))) ∨
        (∃ ownerId bookingId groupId, q = .assignGroup ownerId bookingId groupId) ∨
          (handler q).Uses Courante := by
  cases q with
  | catalogue q =>
    rcases Catalogue.handler_courante q with ⟨_, _, rfl⟩ | ⟨_, _, rfl⟩ | hq
    · exact .inl ⟨_, _, rfl⟩
    · exact .inr (.inl ⟨_, _, rfl⟩)
    · exact .inr (.inr (.inr (hq.left fun _ h => h)))
  | createGroup ownerId dto =>
    refine .inr (.inr (.inr (Prog.Uses.void ?_)))
    refine (app_courante (courante_owner ownerId)).bind fun agency => ⟨trivial, fun r => ?_⟩
    cases r <;> trivial
  | assignGuide ownerId groupId guideUserId =>
    refine .inr (.inr (.inr (Prog.Uses.void ?_)))
    refine (find_courante groupId).bind fun group => (ownership_courante ownerId group).bind
      fun _ => (app_courante (user_courante guideUserId)).bind fun guide => ?_
    split
    · trivial
    split
    · trivial
    refine (available_courante guide.id group).bind fun _ => ⟨trivial, fun r => ?_⟩
    cases r <;> trivial
  | assignGroup ownerId bookingId groupId => exact .inr (.inr (.inl ⟨_, _, _, rfl⟩))
  | addItineraryStep ownerId groupId dto =>
    refine .inr (.inr (.inr (Prog.Uses.void ?_)))
    refine (find_courante groupId).bind fun group =>
      (ownership_courante ownerId group).bind fun _ => ⟨trivial, fun r => ?_⟩
    cases r with
    | error code => trivial
    | ok _ => exact find_courante groupId
  | updateLocation userId groupId lat lng =>
    exact .inr (.inr (.inr (updateLocation_courante userId groupId lat lng).void))
  | clearLocation userId groupId => exact .inr (.inr (.inr ⟨trivial, fun _ => trivial⟩))
  | triggerSos pilgrimUserId groupId =>
    exact .inr (.inr (.inr (triggerSos_courante pilgrimUserId groupId)))
  | triggerLostAlert pilgrimUserId groupId lat lng =>
    refine .inr (.inr (.inr ((find_courante groupId).bind fun group => ?_)))
    split
    · trivial
    · exact (updateLocation_courante pilgrimUserId groupId lat lng).bind fun _ =>
        (app_courante (user_courante pilgrimUserId)).bind fun pilgrim =>
          alerter_courante group _ _ _ _
  | replaceSpecialNeeds userId dto =>
    refine .inr (.inr (.inr (Prog.Uses.void ⟨trivial, fun r => ?_⟩)))
    cases r <;> trivial

end Handlers

/-! ## Neither a booking nor a member is lost -/

/-- The statement cancels no booking, and puts nobody in a group. -/
def Conserve : sig.Stmt → Prop
  | .inl (.inl c) => SansAnnulation c
  | .inl (.inr _) => True
  | .inr (.groupMemberCreate _ _) => False
  | .inr (.bookingUpdate _ _) => False
  | .inr _ => True

theorem Courante.conserve {c : sig.Stmt} (h : Courante c) : Conserve c := by
  rcases c with (c | c) | c
  · exact OumraHajj.Courante.sansAnnulation h
  · trivial
  · cases c <;> first | exact h.elim | trivial

theorem app_conserve {α : Type} {p : OumraHajj.Req α} (hp : p.Uses SansAnnulation) :
    (app p).Uses Conserve := by
  have hcatalogue : (Prog.left p : Catalogue.Req α).Uses fun c => Conserve (.inl c) :=
    hp.left fun _ h => h
  exact hcatalogue.left fun _ h => h

/-- Every request but these two. -/
theorem handler_conserve (q : Request) :
    (∃ pilgrimId bookingId, q = .catalogue (.app (.cancelBooking pilgrimId bookingId))) ∨
      (∃ ownerId bookingId groupId, q = .assignGroup ownerId bookingId groupId) ∨
        (handler q).Uses Conserve := by
  rcases handler_courante q with ⟨pilgrimId, packageId, rfl⟩ | h | h | h
  · exact .inr (.inr (app_conserve (create_sansAnnulation pilgrimId packageId).void))
  · exact .inl h
  · exact .inr (.inl h)
  · exact .inr (.inr (h.mono fun _ => Courante.conserve))

/-! ## No booking is created -/

/-- The statement creates no booking. -/
def SansReservation : sig.Stmt → Prop
  | .inl (.inl c) => NoBooking c
  | _ => True

theorem Courante.sansReservation {c : sig.Stmt} (h : Courante c) : SansReservation c := by
  rcases c with (c | c) | c
  · exact OumraHajj.Courante.noBooking h
  · trivial
  · trivial

theorem app_sansReservation {α : Type} {p : OumraHajj.Req α} (hp : p.Uses NoBooking) :
    (app p).Uses SansReservation := by
  have hcatalogue : (Prog.left p : Catalogue.Req α).Uses fun c : Catalogue.sig.Stmt =>
      ∀ d, c = .inl d → NoBooking d := hp.left (by rintro c hc d ⟨⟩; exact hc)
  refine hcatalogue.left fun c hc => ?_
  rcases c with c | c
  · exact hc c rfl
  · trivial

theorem assignGroup_sansReservation (ownerId : UserId) (bookingId : BookingId) (groupId : GroupId) :
    (BookingsService.assignGroup ownerId bookingId groupId).Uses SansReservation := by
  have hfind : (GroupsService.findByIdOrFail groupId).Uses SansReservation :=
    (find_courante groupId).mono fun _ => Courante.sansReservation
  refine (app_sansReservation (noBooking_of (courante_find bookingId))).bind fun booking =>
    (app_sansReservation (noBooking_of (courante_ownership ownerId booking))).bind fun _ =>
      Prog.Uses.bind ?_ fun _ => ⟨trivial, fun r => ?_⟩
  · refine hfind.bind fun group => ((ownership_courante ownerId group).mono
      fun _ => Courante.sansReservation).bind fun _ => ?_
    split
    · exact hfind
    · refine ⟨trivial, fun r => ?_⟩
      cases r with
      | error code => trivial
      | ok _ => exact hfind
  · cases r <;> trivial

/-- Every request that is not `createBooking` creates no booking. -/
theorem handler_sansReservation (q : Request) :
    (∃ pilgrimId packageId, q = .catalogue (.app (.createBooking pilgrimId packageId))) ∨
      (handler q).Uses SansReservation := by
  rcases handler_courante q with h | ⟨pilgrimId, bookingId, rfl⟩ | ⟨ownerId, bookingId, groupId, rfl⟩ | h
  · exact .inl h
  · exact .inr (app_sansReservation (noBooking_cancel bookingId pilgrimId).void)
  · exact .inr (assignGroup_sansReservation ownerId bookingId groupId).void
  · exact .inr (h.mono fun _ => Courante.sansReservation)

end OumraHajj.Groups
