import OumraHajj.Async.Links
import OumraHajj.Groups.Attaches

/-!
# The family view

A pilgrim shares a link with his family, who follow his booking without an account (`getOrCreateFamilyViewLink`,
`regenerateFamilyViewLink` and `getFamilyView` of `src/modules/bookings/bookings.service.ts`,
`src/modules/family-view/family-view.controller.ts`). The links are those of `Async.Links`: the column
`familyViewToken` of the bookings is unique. The token is drawn as the update is sent, in one step.

The history holds the links that were drawn.
-/

namespace OumraHajj.FamilyView

open Async Groups

structure FamilyViewLinkShape where
  token : String
  viewUrl : String

def toFamilyViewLinkShape (token : String) : FamilyViewLinkShape :=
  { token, viewUrl := "/api/v1/family-view/" ++ token }

structure FamilyViewLocation where
  lat : ℚ
  lng : ℚ
  updatedAt : Time

structure FamilyViewShape where
  pilgrimFullName : String
  packageTitle : String
  status : BookingStatus
  steps : List DossierStepShape
  location : Option FamilyViewLocation
  latestItineraryStep : Option ItineraryStepShape

/-- `jeton` is what `randomBytes(24).toString('hex')` answers. -/
structure LinkEnv extends Env where
  jeton : String := ""

/-- The bookings with their links. -/
abbrev Store := Groups.Store × Column BookingId String

abbrev sig : Sig := Links.linked Groups.sig BookingId BookingId String Booking

def rows : Links.Rows Groups.Store BookingId BookingId Booking where
  row s id := (s.app.bookings[id]?).map fun _ => id
  record s id := s.app.bookings[id]?

def backend : Backend sig Store LinkEnv := Links.backend Groups.backend rows LinkEnv.toEnv LinkEnv.jeton

/-- A request handler. -/
abbrev Req := Prog sig Erreur

/-- A handler of the groups. -/
abbrev ofGroups {α : Type} (p : Groups.Req α) : Req α := Prog.left p

namespace BookingsService

/-- Only the pilgrim shares his booking: the agency may not do it for him. -/
def assertPilgrim (pilgrimId : UserId) (bookingId : BookingId) : Groups.Req BookingId := do
  let booking ← app (OumraHajj.BookingsService.findByIdOrFail bookingId)
  if booking.pilgrimId ≠ pilgrimId then .fail (.forbidden "Cette réservation ne vous appartient pas")
  else return booking.id

def regenerateFamilyViewLink (pilgrimId : UserId) (bookingId : BookingId) : Req FamilyViewLinkShape := do
  let token ← Links.regenerate (assertPilgrim pilgrimId bookingId) .prisma
  return toFamilyViewLinkShape token

def getOrCreateFamilyViewLink (pilgrimId : UserId) (bookingId : BookingId) : Req FamilyViewLinkShape := do
  let token ← Links.getOrCreate (assertPilgrim pilgrimId bookingId).void bookingId (.prisma "P2025")
    (· ≠ "") (assertPilgrim pilgrimId bookingId) .prisma
  return toFamilyViewLinkShape token

/-- The view of a booking: what the family may know, from the name, the title and the group. -/
def vue (booking : BookingShape) (pilgrim : UserShape) (pkg : PackageShape) (group : Option GroupShape) :
    FamilyViewShape where
  pilgrimFullName := pilgrim.fullName
  packageTitle := pkg.title
  status := booking.status
  steps := booking.steps
  location := (group.bind fun g => g.locations.find? (·.userId = booking.pilgrimId)).map fun l =>
    { lat := l.lat, lng := l.lng, updatedAt := l.updatedAt }
  latestItineraryStep := group.bind fun g =>
    (g.itinerary.mergeSort fun a b => b.date ≤ a.date).head?

/-- What is read with the booking of a link. -/
def lireVue (booking : BookingShape) : Groups.Req FamilyViewShape := do
  let pkg ← app (PackagesService.findByIdOrFail booking.packageId)
  let pilgrim ← app (OumraHajj.UsersService.findByIdOrFail booking.pilgrimId)
  match booking.groupId with
  | some groupId =>
    let group ← GroupsService.findByIdOrFail groupId
    return vue booking pilgrim pkg (some group)
  | none => return vue booking pilgrim pkg none

/-- Whoever has the token: there is no account. -/
def getFamilyView (token : String) : Req FamilyViewShape :=
  .call (.inr (.opens token)) fun
    | none => .fail (.notFound "Lien de suivi invalide")
    | some (id, raw) => ofGroups (lireVue (toBookingShape id raw))

end BookingsService

/-! ## Requests -/

inductive Request where
  | groups (q : Groups.Request)
  | getFamilyViewLink (pilgrimId : UserId) (bookingId : BookingId)
  | regenerateFamilyViewLink (pilgrimId : UserId) (bookingId : BookingId)
  | getView (token : String)

/-- The booking whose link is asked for, and who asks. -/
def Request.demande : Request → Option (UserId × BookingId)
  | .getFamilyViewLink pilgrimId bookingId => some (pilgrimId, bookingId)
  | .regenerateFamilyViewLink pilgrimId bookingId => some (pilgrimId, bookingId)
  | _ => none

inductive Reponse where
  | rien
  | lien (link : FamilyViewLinkShape)
  | vue (view : FamilyViewShape)

/-- The handler of a request. -/
def handler : Request → Req Reponse
  | .groups q => (ofGroups (Groups.handler q)).bind fun _ => .ret .rien
  | .getFamilyViewLink pilgrimId bookingId =>
    (BookingsService.getOrCreateFamilyViewLink pilgrimId bookingId).bind fun link => .ret (.lien link)
  | .regenerateFamilyViewLink pilgrimId bookingId =>
    (BookingsService.regenerateFamilyViewLink pilgrimId bookingId).bind fun link => .ret (.lien link)
  | .getView token => (BookingsService.getFamilyView token).bind fun view => .ret (.vue view)

/-- The state with the links that were drawn. -/
abbrev Recorded := Store × Links.Drawn BookingId String

/-- The requests run at once, from the store `s`; nothing has been drawn. -/
def poolOf {ι : Type} (requests : ι → Request) (s : Store) : Pool sig ι Recorded Erreur Reponse :=
  ⟨fun t => handler (requests t), (s, [])⟩

end OumraHajj.FamilyView
