import OumraHajj.Common.Dates
import OumraHajj.Spec.Creation
import OumraHajj.Storage.Tokens

/-!
# Who reads a document

The documents of a booking are listed, checked for their expiration and opened by a link
(`src/modules/documents/documents.service.ts`), each time for the pilgrim of the booking or the owner of its
agency. The check, the reading and the signature are different statements, and other requests run between them.

What is submitted (`PilgrimDocument.depot`) and the terms of a booking stay as they are (`Db.Durable`), so who was
let in is still allowed when he gets his answer, and the answer is exact (`documents_private`).
-/

namespace OumraHajj

open Async

/-- `'pilgrim' | 'agency'`. -/
inductive RequesterRole where
  | pilgrim
  | agency

inductive DocumentExpiryStatus where
  | expired
  | expiresBeforeTrip
  | expiresSoonAfterTrip
  deriving DecidableEq

structure DocumentExpiryAlertShape where
  id : DocumentId
  type : PilgrimDocumentType
  expiresAt : Time
  status : DocumentExpiryStatus

/-- `PASSPORT_VALIDITY_MARGIN_DAYS`. -/
def passportValidityMarginDays : Int := 180

namespace DocumentsService

/-- The pilgrim or the agency of the booking; the texts are those of the caller. -/
def assertReader (requesterId : UserId) (requesterRole : RequesterRole) (refusPelerin refusAgence : String)
    (booking : BookingShape) : Req Unit :=
  match requesterRole with
  | .pilgrim => if booking.pilgrimId ≠ requesterId then .fail (.forbidden refusPelerin) else return ()
  | .agency => do
    let agency ← AgenciesService.findByOwnerOrFail requesterId
    if booking.agencyId ≠ agency.id then .fail (.forbidden refusAgence) else return ()

def findByBooking (requesterId : UserId) (requesterRole : RequesterRole) (bookingId : BookingId) :
    Req (List PilgrimDocumentShape) := do
  let booking ← BookingsService.findByIdOrFail bookingId
  assertReader requesterId requesterRole "Cette réservation ne vous appartient pas"
    "Cette réservation n'appartient pas à votre agence" booking
  let docs ← await (.documentFindMany booking.id)
  return docs.map fun x => toDocumentShape x.1 x.2

/-- The links are signed with the secret of the storage. -/
def getAccessUrl (N : Storage.Node) (signingSecret : String) (requesterId : UserId) (requesterRole : RequesterRole)
    (documentId : DocumentId) : Req Storage.AccessUrl := do
  let doc ← findByIdOrFail documentId
  let booking ← BookingsService.findByIdOrFail doc.bookingId
  assertReader requesterId requesterRole "Ce document ne vous appartient pas"
    "Ce document n'appartient pas à votre agence" booking
  let now ← await .now
  return Storage.LocalDiskStorageProvider.getAccessUrl N signingSecret doc.storageRef now

/-- The status of an expiration date, if it asks for something. -/
def expiryStatus (type : PilgrimDocumentType) (expiresAt now tripEnd : Time) : Option DocumentExpiryStatus :=
  if expiresAt < now then some .expired
  else if expiresAt < tripEnd then some .expiresBeforeTrip
  else if type = .passport ∧ expiresAt < tripEnd + passportValidityMarginDays * jourMs then
    some .expiresSoonAfterTrip
  else none

/-- The alert of a document; there is none without a date. -/
def alerte (now tripEnd : Time) (doc : PilgrimDocumentShape) : Option DocumentExpiryAlertShape :=
  doc.expiresAt.bind fun expiresAt => (expiryStatus doc.type expiresAt now tripEnd).map fun status =>
    { id := doc.id, type := doc.type, expiresAt, status }

def getExpiryAlerts (requesterId : UserId) (requesterRole : RequesterRole) (bookingId : BookingId) :
    Req (List DocumentExpiryAlertShape) := do
  let docs ← findByBooking requesterId requesterRole bookingId
  let booking ← BookingsService.findByIdOrFail bookingId
  let pkg ← PackagesService.findByIdOrFail booking.packageId
  let now ← await .now
  return docs.filterMap (alerte now pkg.endDate)

/-- The document is valid now, during the trip and, if it is a passport, for the margin after it. -/
def valable (now tripEnd : Time) (doc : PilgrimDocumentShape) : Bool :=
  doc.expiresAt.all fun expiresAt => now ≤ expiresAt ∧ tripEnd ≤ expiresAt ∧
    (doc.type = .passport → tripEnd + passportValidityMarginDays * jourMs ≤ expiresAt)

theorem expiryStatus_eq_none {type : PilgrimDocumentType} {expiresAt now tripEnd : Time} :
    expiryStatus type expiresAt now tripEnd = none ↔ now ≤ expiresAt ∧ tripEnd ≤ expiresAt ∧
      (type = .passport → tripEnd + passportValidityMarginDays * jourMs ≤ expiresAt) := by
  unfold expiryStatus
  split
  · next h => exact iff_of_false nofun fun ⟨hnow, _⟩ => absurd hnow (not_le.mpr h)
  split
  · next h => exact iff_of_false nofun fun ⟨_, hend, _⟩ => absurd hend (not_le.mpr h)
  split
  · next h => exact iff_of_false nofun fun ⟨_, _, hmargin⟩ => absurd (hmargin h.1) (not_le.mpr h.2)
  · next hnow hend hmargin =>
    exact iff_of_true rfl ⟨not_lt.mp hnow, not_lt.mp hend, fun htype =>
      not_lt.mp fun hlt => hmargin ⟨htype, hlt⟩⟩

/-- Exactly the documents that are not valid have an alert. -/
theorem alertes_ids (now tripEnd : Time) (docs : List PilgrimDocumentShape) :
    (docs.filterMap (alerte now tripEnd)).map (·.id) =
      (docs.filter fun doc => !valable now tripEnd doc).map (·.id) := by
  induction docs with
  | nil => rfl
  | cons doc docs ih =>
    rw [List.filterMap_cons, List.filter_cons]
    rcases hdate : doc.expiresAt with _ | expiresAt
    · simpa [alerte, valable, hdate] using ih
    · have hnone := @expiryStatus_eq_none doc.type expiresAt now tripEnd
      rcases hstatus : expiryStatus doc.type expiresAt now tripEnd with _ | status
      · have hvalable : valable now tripEnd doc = true := by
          rw [valable, hdate]
          exact decide_eq_true (hnone.mp hstatus)
        simpa [alerte, hdate, hstatus, hvalable] using ih
      · have hvalable : valable now tripEnd doc = false := by
          rw [valable, hdate]
          exact decide_eq_false fun h => by rw [hnone.mpr h] at hstatus; cases hstatus
        simpa [alerte, hdate, hstatus, hvalable] using ih

end DocumentsService

/-- A document without what the agency says of it. -/
def PilgrimDocument.depot (d : PilgrimDocument) : PilgrimDocument :=
  { d with status := .pending, rejectionReason := none }

theorem PilgrimDocument.depot_eq {d d' : PilgrimDocument} (h : d'.depot = d.depot) :
    d'.bookingId = d.bookingId ∧ d'.storageRef = d.storageRef := by
  injection h with hbooking _ _ hstorage
  exact ⟨hbooking, hstorage⟩

/-- What a shape tells of what was submitted. -/
def PilgrimDocumentShape.depot (d : PilgrimDocumentShape) : PilgrimDocument :=
  { bookingId := d.bookingId, pilgrimId := d.pilgrimId, type := d.type, storageRef := d.storageRef
    expiresAt := d.expiresAt }

/-- What no request takes back. -/
structure Db.Durable (s s' : Db) : Prop where
  terms : s.bookings.map Booking.terms <+: s'.bookings.map Booking.terms
  agencies : s.agencies <+: s'.agencies
  offer : s'.packages.map Package.offer = s.packages.map Package.offer
  depot : s.documents.map PilgrimDocument.depot <+: s'.documents.map PilgrimDocument.depot

namespace Db

variable {s s₁ s' : Db}

theorem Durable.refl (s : Db) : s.Durable s := ⟨List.prefix_rfl, List.prefix_rfl, rfl, List.prefix_rfl⟩

theorem Durable.trans (h : s.Durable s₁) (h' : s₁.Durable s') : s.Durable s' :=
  ⟨h.terms.trans h'.terms, h.agencies.trans h'.agencies, h'.offer.trans h.offer, h.depot.trans h'.depot⟩

theorem exec_depot (c : Stmt) (e : Env) (s : Db) :
    s.documents.map PilgrimDocument.depot <+: (exec c e s).2.documents.map PilgrimDocument.depot := by
  cases c
  case documentCreate =>
    simp only [exec, List.map_append]
    exact List.prefix_append _ _
  case documentUpdate id data =>
    simp only [exec]
    split
    · next d hd =>
      have heq := map_set_of_eq (f := PilgrimDocument.depot) (y := data.apply d) hd rfl
      exact heq ▸ List.prefix_rfl
    · exact List.prefix_rfl
  all_goals first
    | exact List.prefix_rfl
    | simp only [exec]
      split <;> exact List.prefix_rfl

theorem exec_durable (c : Stmt) (e : Env) (s : Db) : s.Durable (exec c e s).2 := by
  refine ⟨?_, exec_agencies c e s, exec_offer c e s, exec_depot c e s⟩
  by_cases hc : NoBooking c
  · exact exec_terms hc e s ▸ List.prefix_rfl
  · cases c
    case bookingCreate =>
      simp only [exec, List.map_append]
      exact List.prefix_append _ _
    all_goals exact absurd rfl hc

/-! ## Who is let in, and what is listed -/

/-- The pilgrim of the booking, or the owner of its agency. -/
def Autorise (s : Db) (requesterId : UserId) (requesterRole : RequesterRole) (bookingId : BookingId) : Prop :=
  ∃ b, s.bookings[bookingId]? = some b ∧ match requesterRole with
    | .pilgrim => b.pilgrimId = requesterId
    | .agency => ∃ agency, s.agencyOf requesterId = some (b.agencyId, agency)

/-- The documents of the booking among the first `n` ones, as they were submitted; those of `s₀` are. -/
def Liste (s₀ s : Db) (bookingId : BookingId) (docs : List PilgrimDocumentShape) : Prop :=
  ∃ n, s₀.documents.length ≤ n ∧ n ≤ s.documents.length ∧
    docs.map (fun d => (d.id, d.depot)) =
      Table.findMany ((s.documents.map PilgrimDocument.depot).take n) (·.bookingId = bookingId)

/-- The trip of the booking ends on this date. -/
def Retour (s : Db) (bookingId : BookingId) (tripEnd : Time) : Prop :=
  ∃ b p, s.bookings[bookingId]? = some b ∧ s.packages[b.packageId]? = some p ∧ p.endDate = tripEnd

/-- The alerts of the documents that are listed, for the trip of the booking: one for each that is not valid. -/
def Alertes (s₀ s : Db) (bookingId : BookingId) (alerts : List DocumentExpiryAlertShape) : Prop :=
  ∃ docs now tripEnd, s₀.Liste s bookingId docs ∧ s.Retour bookingId tripEnd ∧
    alerts = docs.filterMap (DocumentsService.alerte now tripEnd) ∧
    alerts.map (·.id) = (docs.filter fun doc => !DocumentsService.valable now tripEnd doc).map (·.id)

variable {requesterId : UserId} {requesterRole : RequesterRole} {bookingId : BookingId}

theorem Autorise.later (hle : s.Durable s') (h : s.Autorise requesterId requesterRole bookingId) :
    s'.Autorise requesterId requesterRole bookingId := by
  obtain ⟨b, hb, hreader⟩ := h
  obtain ⟨b', hb', hterms⟩ := Table.get_of_map_prefix hle.terms hb
  have hpilgrim : b'.pilgrimId = b.pilgrimId := congrArg Terms.pilgrimId hterms
  have hagency : b'.agencyId = b.agencyId := congrArg Terms.agencyId hterms
  refine ⟨b', hb', ?_⟩
  cases requesterRole with
  | pilgrim => exact hpilgrim.trans hreader
  | agency =>
    obtain ⟨agency, ha⟩ := hreader
    exact ⟨agency, hagency ▸ agencyOf_of_prefix hle.agencies ha⟩

theorem packages_later {id : PackageId} {p : Package} (hle : s.Durable s') (hp : s.packages[id]? = some p) :
    ∃ p', s'.packages[id]? = some p' ∧ p'.offer = p.offer :=
  Table.get_of_map_prefix (hle.offer ▸ List.prefix_rfl) hp

theorem Retour.later {tripEnd : Time} (hle : s.Durable s') (h : s.Retour bookingId tripEnd) :
    s'.Retour bookingId tripEnd := by
  obtain ⟨b, p, hb, hp, hend⟩ := h
  obtain ⟨b', hb', hterms⟩ := Table.get_of_map_prefix hle.terms hb
  obtain ⟨p', hp', hoffer⟩ := packages_later hle hp
  have hpackage : b'.packageId = b.packageId := congrArg Terms.packageId hterms
  have hend' : p'.offer.endDate = p.offer.endDate := by rw [hoffer]
  exact ⟨b', p', hb', hpackage ▸ hp', hend'.trans hend⟩

theorem Liste.later {s₀ : Db} {docs : List PilgrimDocumentShape} (hle : s.Durable s')
    (h : s₀.Liste s bookingId docs) : s₀.Liste s' bookingId docs := by
  obtain ⟨n, hn₀, hn, hdocs⟩ := h
  have hlength := hle.depot.length_le
  rw [List.length_map, List.length_map] at hlength
  refine ⟨n, hn₀, hn.trans hlength, hdocs.trans ?_⟩
  obtain ⟨l, hl⟩ := hle.depot
  rw [← hl, List.take_append_of_le_length (by rw [List.length_map]; exact hn)]

theorem Alertes.later {s₀ : Db} {alerts : List DocumentExpiryAlertShape} (hle : s.Durable s')
    (h : s₀.Alertes s bookingId alerts) : s₀.Alertes s' bookingId alerts := by
  obtain ⟨docs, now, tripEnd, hdocs, hend, halerts⟩ := h
  exact ⟨docs, now, tripEnd, hdocs.later hle, hend.later hle, halerts⟩

/-- What is read at once. -/
theorem liste_read {s₀ : Db} (hle : s₀.Durable s) :
    s₀.Liste s bookingId ((s.documents.findMany (·.bookingId = bookingId)).map fun x =>
      toDocumentShape x.1 x.2) := by
  have hlength := hle.depot.length_le
  rw [List.length_map, List.length_map] at hlength
  refine ⟨s.documents.length, hlength, le_rfl, ?_⟩
  rw [List.take_of_length_le (by rw [List.length_map]), Table.findMany_map, List.map_map]
  rfl

end Db

/-! ## The handlers, among others -/

namespace DocumentsService

/-- The name of the file of a reference. -/
def fichier (storageRef : String) : String :=
  String.ofList (Storage.retirer "local://documents/".toList storageRef.toList)

/-- The link gives the file of the reference until it expires, if this is the name of a file, and nothing else. -/
def Resout (N : Storage.Node) (signingSecret : String) (link : Storage.AccessUrl) (storageRef : String) : Prop :=
  ∃ token, link.url = "/api/v1/documents/files/" ++ token ∧ ∀ instant,
    Storage.LocalDiskStorageProvider.resolveSignedToken N signingSecret token instant =
      .ok (if link.expiresAt < instant then none
        else if Storage.fileNamePattern (fichier storageRef) then some (.str (fichier storageRef)) else none)

theorem resout_getAccessUrl (N : Storage.Node) (signingSecret storageRef : String) (now : Time) :
    Resout N signingSecret (Storage.LocalDiskStorageProvider.getAccessUrl N signingSecret storageRef now)
      storageRef :=
  ⟨_, rfl, Storage.resolve_sign ⟨fichier storageRef, now + Storage.accessUrlTtlMs⟩⟩

/-- What every handler leaves, as a rely. -/
def durable : Rely Db := ⟨fun _ => True, Db.Durable, Db.Durable.refl, fun _ _ _ => Db.Durable.trans⟩

section Keeps

variable {ok : Stmt → Db → Env → Prop} {requesterId : UserId} {requesterRole : RequesterRole}

theorem booking_keeps (id : BookingId) (s : Db) :
    durable.Keeps prisma ok (BookingsService.findByIdOrFail id) s fun r s' => s.Durable s' ∧
      ∀ booking, r = .ok booking → ∃ b, s'.bookings[id]? = some b ∧ booking = toBookingShape id b := by
  refine Rely.Keeps.read (fun _ _ => rfl) fun s' e _ hle => ?_
  rw [prisma_exec, exec]
  rcases hb : s'.bookings[id]? with _ | b
  · exact ⟨hle, by rintro booking ⟨⟩⟩
  · exact ⟨hle, by rintro booking ⟨⟩; exact ⟨b, hb, rfl⟩⟩

theorem document_keeps (id : DocumentId) (s : Db) :
    durable.Keeps prisma ok (findByIdOrFail id) s fun r s' => s.Durable s' ∧
      ∀ doc, r = .ok doc → ∃ d, s'.documents[id]? = some d ∧ doc = toDocumentShape id d := by
  refine Rely.Keeps.read (fun _ _ => rfl) fun s' e _ hle => ?_
  rw [prisma_exec, exec]
  rcases hd : s'.documents[id]? with _ | d
  · exact ⟨hle, by rintro doc ⟨⟩⟩
  · exact ⟨hle, by rintro doc ⟨⟩; exact ⟨d, hd, rfl⟩⟩

/-- Who is let in is allowed. -/
theorem reader_keeps {id : BookingId} {b : Booking} {s : Db} (hb : s.bookings[id]? = some b)
    (refusPelerin refusAgence : String) :
    durable.Keeps prisma ok (assertReader requesterId requesterRole refusPelerin refusAgence (toBookingShape id b)) s
      fun r s' => s.Durable s' ∧ ∀ u, r = .ok u → s'.Autorise requesterId requesterRole id := by
  cases requesterRole with
  | pilgrim =>
    unfold assertReader
    dsimp only
    split
    · exact ⟨.refl s, by rintro u ⟨⟩⟩
    · next h => exact ⟨.refl s, fun _ _ => ⟨b, hb, not_not.mp h⟩⟩
  | agency =>
    refine Rely.Keeps.seq (owner_keeps (fun _ _ h => Db.Durable.agencies h) requesterId s) ?_ fun x s' hle =>
      ⟨hle, by rintro u ⟨⟩⟩
    rintro shape s' hle ⟨agency, ha⟩
    split
    · exact ⟨hle, by rintro u ⟨⟩⟩
    · next h =>
      obtain ⟨b', hb', hterms⟩ := Table.get_of_map_prefix hle.terms hb
      have hagency : b'.agencyId = b.agencyId := congrArg Terms.agencyId hterms
      refine ⟨hle, fun _ _ => ⟨b', hb', agency, ?_⟩⟩
      rw [hagency, ha s' (.refl s')]
      exact congrArg (fun k => some (k, agency)) (not_not.mp h).symm

theorem findByBooking_keeps (id : BookingId) (s : Db) :
    durable.Keeps prisma ok (findByBooking requesterId requesterRole id) s fun r s' => s.Durable s' ∧
      ∀ docs, r = .ok docs → s'.Autorise requesterId requesterRole id ∧ s.Liste s' id docs := by
  refine Rely.Keeps.seq (booking_keeps id s) ?_ fun x s' hle => ⟨hle, by rintro docs ⟨⟩⟩
  rintro _ s₁ hle₁ ⟨b, hb, rfl⟩
  refine Rely.Keeps.seq (reader_keeps hb _ _) ?_ fun x s' hle => ⟨hle₁.trans hle, by rintro docs ⟨⟩⟩
  intro _ s₂ hle₂ hauth
  refine Rely.Keeps.read (fun _ _ => rfl) fun s₃ e _ hle₃ => ?_
  have hle := (hle₁.trans hle₂).trans hle₃
  refine ⟨hle, ?_⟩
  rintro docs ⟨⟩
  exact ⟨hauth.later hle₃, Db.liste_read hle⟩

/-- The documents are read first, the dates of the trip later. -/
theorem getExpiryAlerts_keeps (id : BookingId) (s : Db) :
    durable.Keeps prisma ok (getExpiryAlerts requesterId requesterRole id) s fun r s' => s.Durable s' ∧
      ∀ alerts, r = .ok alerts → s'.Autorise requesterId requesterRole id ∧ s.Alertes s' id alerts := by
  refine Rely.Keeps.seq (findByBooking_keeps id s) ?_ fun x s' hle => ⟨hle, by rintro alerts ⟨⟩⟩
  rintro docs s₁ hle₁ ⟨hauth, hdocs⟩
  refine Rely.Keeps.seq (booking_keeps id s₁) ?_ fun x s' hle => ⟨hle₁.trans hle, by rintro alerts ⟨⟩⟩
  rintro _ s₂ hle₂ ⟨b, hb, rfl⟩
  refine Rely.Keeps.read (fun _ _ => rfl) fun s₃ e _ hle₃ => ?_
  rw [prisma_exec, exec]
  rcases hp : s₃.packages[b.packageId]? with _ | p
  · simp only [toBookingShape, hp]
    exact ⟨(hle₁.trans hle₂).trans hle₃, by rintro alerts ⟨⟩⟩
  simp only [toBookingShape, hp]
  refine Rely.Keeps.read (fun _ _ => rfl) fun s₄ e' _ hle₄ => ?_
  have hle₃₄ := hle₃.trans hle₄
  have hle := (hle₁.trans hle₂).trans hle₃₄
  refine ⟨hle, ?_⟩
  rintro alerts ⟨⟩
  obtain ⟨b', hb', hterms⟩ := Table.get_of_map_prefix hle₃.terms hb
  have hpackage : b'.packageId = b.packageId := congrArg Terms.packageId hterms
  have hend : s₃.Retour id p.endDate := ⟨b', p, hb', hpackage ▸ hp, rfl⟩
  exact ⟨hauth.later (hle₂.trans hle₃₄), docs, e'.now, p.endDate, hdocs.later (hle₂.trans hle₃₄),
    hend.later hle₄, rfl, alertes_ids e'.now p.endDate docs⟩

theorem getAccessUrl_keeps (N : Storage.Node) (signingSecret : String) (id : DocumentId) (s : Db) :
    durable.Keeps prisma ok (getAccessUrl N signingSecret requesterId requesterRole id) s fun r s' =>
      s.Durable s' ∧ ∀ link, r = .ok link → ∃ d, s'.documents[id]? = some d ∧
        s'.Autorise requesterId requesterRole d.bookingId ∧ Resout N signingSecret link d.storageRef := by
  refine Rely.Keeps.seq (document_keeps id s) ?_ fun x s' hle => ⟨hle, by rintro link ⟨⟩⟩
  rintro _ s₁ hle₁ ⟨d, hd, rfl⟩
  refine Rely.Keeps.seq (booking_keeps d.bookingId s₁) ?_ fun x s' hle => ⟨hle₁.trans hle, by rintro link ⟨⟩⟩
  rintro _ s₂ hle₂ ⟨b, hb, rfl⟩
  refine Rely.Keeps.seq (reader_keeps hb _ _) ?_ fun x s' hle =>
    ⟨(hle₁.trans hle₂).trans hle, by rintro link ⟨⟩⟩
  intro _ s₃ hle₃ hauth
  refine Rely.Keeps.read (fun _ _ => rfl) fun s₄ e' _ hle₄ => ?_
  have hle := hle₂.trans (hle₃.trans hle₄)
  refine ⟨hle₁.trans hle, ?_⟩
  rintro link ⟨⟩
  obtain ⟨d', hd', hdepot⟩ := Table.get_of_map_prefix hle.depot hd
  obtain ⟨hbooking, hstorage⟩ := PilgrimDocument.depot_eq hdepot
  refine ⟨d', hd', hbooking ▸ hauth.later hle₄, ?_⟩
  rw [hstorage]
  exact resout_getAccessUrl N signingSecret d.storageRef e'.now

end Keeps

end DocumentsService

/-! ## Requests -/

namespace Documents

inductive Request where
  | app (q : OumraHajj.Request)
  | listByBooking (requesterId : UserId) (requesterRole : RequesterRole) (bookingId : BookingId)
  | getExpiryAlerts (requesterId : UserId) (requesterRole : RequesterRole) (bookingId : BookingId)
  | getAccessUrl (requesterId : UserId) (requesterRole : RequesterRole) (documentId : DocumentId)

inductive Reponse where
  | rien
  | documents (docs : List PilgrimDocumentShape)
  | alertes (alerts : List DocumentExpiryAlertShape)
  | lien (link : Storage.AccessUrl)

variable (N : Storage.Node) (signingSecret : String)

/-- The handler of a request. -/
def handler : Request → Req Reponse
  | .app q => (OumraHajj.handler q).bind fun _ => .ret .rien
  | .listByBooking requesterId requesterRole bookingId =>
    (DocumentsService.findByBooking requesterId requesterRole bookingId).bind fun docs => .ret (.documents docs)
  | .getExpiryAlerts requesterId requesterRole bookingId =>
    (DocumentsService.getExpiryAlerts requesterId requesterRole bookingId).bind fun alerts => .ret (.alertes alerts)
  | .getAccessUrl requesterId requesterRole documentId =>
    (DocumentsService.getAccessUrl N signingSecret requesterId requesterRole documentId).bind fun link =>
      .ret (.lien link)

/-- The requests run at once, from the state `s`. -/
def poolOf {ι : Type} (requests : ι → Request) (s : Db) : Pool prismaSig ι Db Erreur Reponse :=
  ⟨fun t => handler N signingSecret (requests t), s⟩

/-- What is answered to a request is for who is allowed, and it is exact; `s₀` is the state at the start. -/
def Juste (s₀ : Db) : Request → Reponse → Db → Prop
  | .app _, .rien, _ => True
  | .listByBooking requesterId requesterRole bookingId, .documents docs, s =>
    s.Autorise requesterId requesterRole bookingId ∧ s₀.Liste s bookingId docs
  | .getExpiryAlerts requesterId requesterRole bookingId, .alertes alerts, s =>
    s.Autorise requesterId requesterRole bookingId ∧ s₀.Alertes s bookingId alerts
  | .getAccessUrl requesterId requesterRole documentId, .lien link, s =>
    ∃ d, s.documents[documentId]? = some d ∧ s.Autorise requesterId requesterRole d.bookingId ∧
      DocumentsService.Resout N signingSecret link d.storageRef
  | _, _, _ => False

variable {N signingSecret}

theorem Juste.later {s₀ s s' : Db} (hle : s.Durable s') {q : Request} {answer : Reponse}
    (h : Juste N signingSecret s₀ q answer s) : Juste N signingSecret s₀ q answer s' := by
  cases q <;> cases answer
  case app.rien => trivial
  case listByBooking.documents => exact ⟨h.1.later hle, h.2.later hle⟩
  case getExpiryAlerts.alertes => exact ⟨h.1.later hle, h.2.later hle⟩
  case getAccessUrl.lien =>
    obtain ⟨d, hd, hauth, hlink⟩ := h
    obtain ⟨d', hd', hdepot⟩ := Table.get_of_map_prefix hle.depot hd
    obtain ⟨hbooking, hstorage⟩ := PilgrimDocument.depot_eq hdepot
    exact ⟨d', hd', hbooking ▸ hauth.later hle, hstorage ▸ hlink⟩
  all_goals exact h.elim

/-- The answer of a handler, from what it keeps. -/
theorem answer_keeps {α : Type} {ok : Stmt → Db → Env → Prop} {p : Req α} {f : α → Reponse} {s₀ : Db}
    {q : Request} {P : α → Db → Prop}
    (hp : DocumentsService.durable.Keeps prisma ok p s₀ fun r s => s₀.Durable s ∧ ∀ a, r = .ok a → P a s)
    (hP : ∀ a s, P a s → Juste N signingSecret s₀ q (f a) s) :
    DocumentsService.durable.Keeps prisma ok (p.bind fun a => .ret (f a)) s₀ fun r s =>
      ∀ answer, r = .ok answer → Juste N signingSecret s₀ q answer s := by
  refine Rely.Keeps.bind (hp.mono ?_)
  rintro (x | a) s ⟨-, ha⟩
  · rintro answer ⟨⟩
  · rintro answer ⟨⟩
    exact hP a s (ha a rfl)

theorem handler_keeps {ok : Stmt → Db → Env → Prop} (q : Request) (s₀ : Db) :
    DocumentsService.durable.Keeps prisma ok (handler N signingSecret q) s₀ fun r s =>
      ∀ answer, r = .ok answer → Juste N signingSecret s₀ q answer s := by
  cases q with
  | app q =>
    have hstep : ∀ c, DocumentsService.durable.Step prisma ok c := fun c s e _ _ => ⟨trivial, Db.exec_durable c e s⟩
    refine answer_keeps (P := fun _ _ => True) ((Rely.Keeps.of_uses (fun c _ => hstep c) (Prog.uses_true _) s₀).mono
      fun r s hle => ⟨hle, fun _ _ => trivial⟩) fun _ _ _ => trivial
  | listByBooking requesterId requesterRole bookingId =>
    exact answer_keeps (DocumentsService.findByBooking_keeps bookingId s₀) fun _ _ h => h
  | getExpiryAlerts requesterId requesterRole bookingId =>
    exact answer_keeps (DocumentsService.getExpiryAlerts_keeps bookingId s₀) fun _ _ h => h
  | getAccessUrl requesterId requesterRole documentId =>
    exact answer_keeps (DocumentsService.getAccessUrl_keeps N signingSecret documentId s₀) fun _ _ h => h

/-- A booking with a passport. -/
private def depose : Db where
  users := Db.exemple.users
  agencies := Db.exemple.agencies
  packages := Db.exemple.packages
  bookings := [Booking.exemple]
  documents := [{ bookingId := 0, pilgrimId := 0, type := .passport, storageRef := "local://documents/a.pdf"
                  expiresAt := some 5 }]

/-- The owner of the agency reads while the pilgrim submits a visa, and the pilgrim of no booking asks too. -/
private def lectures : Fin 4 → Request
  | 0 => .listByBooking 1 .agency 0
  | 1 => .app (.uploadDocument 0 0 .visa none)
  | 2 => .getExpiryAlerts 0 .pilgrim 0
  | 3 => .listByBooking 1 .pilgrim 0

private def lus : Pool prismaSig (Fin 4) Db Erreur Reponse :=
  Pool.run prisma (turns [0, 1, 2, 3, 0, 2, 2, 1, 1, 2, 2, 0, 3])
    (poolOf .vide "" lectures depose)

end Documents

end OumraHajj
