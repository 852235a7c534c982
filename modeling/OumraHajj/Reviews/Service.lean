import OumraHajj.Common.Iso
import OumraHajj.Common.Money
import OumraHajj.Services.Bookings

/-!
# Reviews

The rows of `reviews` with their statements, and `ReviewsService`
(`src/modules/reviews/reviews.service.ts`): a pilgrim reviews a booking once, and the agency has a score of
trust and a report of its reviews, also as a file. No route changes or deletes a review.
-/

namespace OumraHajj.Reviews

open Async

abbrev ReviewId := Nat

structure Review where
  pilgrimId : UserId
  agencyId : AgencyId
  bookingId : BookingId
  rating : Int
  comment : Option String := none
  createdAt : Time

/-- The database with its reviews. -/
structure Store where
  app : Db := {}
  reviews : Table Review := []

/-- `data` of `review.create`. -/
structure ReviewCreate where
  pilgrimId : UserId
  agencyId : AgencyId
  bookingId : BookingId
  rating : Int
  comment : Option String

def ReviewCreate.row (data : ReviewCreate) (now : Time) : Review :=
  { pilgrimId := data.pilgrimId
    agencyId := data.agencyId
    bookingId := data.bookingId
    rating := data.rating
    comment := data.comment
    createdAt := now }

namespace Store

variable (s : Store)

/-- `orderBy: { createdAt: 'desc' }`. -/
def listeDe (agencyId : AgencyId) : List (ReviewId × Review) :=
  (s.reviews.findMany (·.agencyId = agencyId)).insertionSort fun x y => y.2.createdAt ≤ x.2.createdAt

/-- The ratings of an agency. -/
def notesDe (agencyId : AgencyId) : List Int :=
  (s.reviews.filter (·.agencyId = agencyId)).map (·.rating)

end Store

/-- `_avg` and `_count` of the ratings. -/
structure Agregat where
  avg : Option ℚ
  count : Nat

/-- There is no average of no rating. -/
def agregat (notes : List Int) : Agregat :=
  { avg := if notes = [] then none else some ((notes.map fun r => (r : ℚ)).sum / notes.length)
    count := notes.length }

inductive Stmt where
  | agencyFindUnique (id : AgencyId)
  | bookingCount (agencyId : AgencyId) (status : BookingStatus)
  | reviewFindUnique (bookingId : BookingId)
  | reviewCreate (data : ReviewCreate)
  /-- `where: { agencyId }`, the last ones first. -/
  | reviewFindManyByAgency (agencyId : AgencyId)
  | reviewFindManyByPilgrim (pilgrimId : UserId)
  | reviewAggregate (agencyId : AgencyId)

/-- The answer of each statement; an error is the code of a rejected call. -/
def Resp : Stmt → Type
  | .agencyFindUnique _ => Option Agency
  | .bookingCount _ _ => Nat
  | .reviewFindUnique _ => Option (ReviewId × Review)
  | .reviewCreate _ => Except String (ReviewId × Review)
  | .reviewFindManyByAgency _ => List (ReviewId × Review)
  | .reviewFindManyByPilgrim _ => List (ReviewId × Review)
  | .reviewAggregate _ => Agregat

/-- The statements of the reviews and of the other services. -/
abbrev sig : Sig := prismaSig.sum ⟨Stmt, Resp⟩

/-- A request handler. -/
abbrev Req := Prog sig Erreur

/-- Execute one statement. -/
abbrev await (c : Stmt) : Req (Resp c) := @Prog.exec sig _ (.inr c)

/-- A booking has one review (`bookingId @unique`), and what a review refers to exists. -/
def Store.create (s : Store) (data : ReviewCreate) (now : Time) :
    Except String (ReviewId × Review) × Store :=
  if s.reviews.any (·.bookingId = data.bookingId) then (.error "P2002", s)
  else if (s.app.users[data.pilgrimId]?).isSome ∧ (s.app.agencies[data.agencyId]?).isSome ∧
      (s.app.bookings[data.bookingId]?).isSome then
    (.ok (s.reviews.length, data.row now), { s with reviews := s.reviews ++ [data.row now] })
  else (.error "P2003", s)

/-- What a statement answers, and the store after it. -/
def exec : (c : Stmt) → Env → Store → Resp c × Store
  | .agencyFindUnique id, _, s => (s.app.agencies[id]?, s)
  | .bookingCount agencyId status, _, s =>
    (s.app.bookings.countP fun b => b.agencyId = agencyId ∧ b.status = status, s)
  | .reviewFindUnique bookingId, _, s => (s.reviews.findFirst (·.bookingId = bookingId), s)
  | .reviewCreate data, e, s => s.create data e.now
  | .reviewFindManyByAgency agencyId, _, s => (s.listeDe agencyId, s)
  | .reviewFindManyByPilgrim pilgrimId, _, s => (s.reviews.findMany (·.pilgrimId = pilgrimId), s)
  | .reviewAggregate agencyId, _, s => (agregat (s.notesDe agencyId), s)

/-- The backend of the reviews. -/
def backend : Backend sig Store Env where
  exec
    | .inl c, e, s => ((prisma.exec c e s.app).1, { s with app := (prisma.exec c e s.app).2 })
    | .inr c, e, s => exec c e s

structure ReviewShape where
  id : ReviewId
  pilgrimId : UserId
  agencyId : AgencyId
  bookingId : BookingId
  rating : Int
  comment : Option String
  createdAt : Time

def toReviewShape (id : ReviewId) (review : Review) : ReviewShape :=
  { id
    pilgrimId := review.pilgrimId
    agencyId := review.agencyId
    bookingId := review.bookingId
    rating := review.rating
    comment := review.comment
    createdAt := review.createdAt }

structure CreateReviewDto where
  bookingId : BookingId
  rating : Int
  comment : Option String := none
  /-- `@Min(1)` and `@Max(5)`. -/
  rating_mem : 1 ≤ rating ∧ rating ≤ 5

/-- `REVIEWABLE_STATUSES`. -/
def reviewable : BookingStatus → Bool
  | .confirmed => true
  | .completed => true
  | _ => false

inductive Badge where
  | verified
  | trusted
  deriving DecidableEq, Repr

structure AgencyTrustScoreShape where
  agencyId : AgencyId
  score : Option Int
  reviewAverage : Option ℚ
  reviewCount : Nat
  completionRate : Option ℚ
  concludedBookingsCount : Nat
  badge : Option Badge

structure SatisfactionReportReview where
  rating : Int
  comment : Option String
  createdAt : Time

structure SatisfactionReportShape where
  agencyId : AgencyId
  agencyName : String
  generatedAt : Time
  reviewCount : Nat
  reviewAverage : Option ℚ
  /-- The number of reviews with each rating. -/
  ratingDistribution : List (Int × Nat)
  reviews : List SatisfactionReportReview

namespace ReviewsService

/-- `REVIEW_WEIGHT`. -/
def reviewWeight : ℚ := 6 / 10

/-- `COMPLETION_WEIGHT`. -/
def completionWeight : ℚ := 4 / 10

/-- `TRUSTED_SCORE_THRESHOLD`. -/
def trustedScoreThreshold : Int := 70

/-- `MIN_REVIEWS_FOR_TRUSTED_BADGE`. -/
def minReviewsForTrustedBadge : Nat := 3

def create (pilgrimId : UserId) (dto : CreateReviewDto) : Req ReviewShape := do
  let booking ← Prog.left (BookingsService.findByIdOrFail dto.bookingId)
  if booking.pilgrimId ≠ pilgrimId then
    .fail (.badRequest "Cette réservation ne vous appartient pas")
  else if !reviewable booking.status then
    .fail (.badRequest "Cette réservation n'est pas éligible à un avis")
  else
    match ← await (.reviewFindUnique booking.id) with
    | some _ => .fail (.conflict "Un avis existe déjà pour cette réservation")
    | none =>
      match ← await (.reviewCreate
        { pilgrimId
          agencyId := booking.agencyId
          bookingId := booking.id
          rating := dto.rating
          comment := dto.comment }) with
      | .ok (id, review) => return toReviewShape id review
      | .error code => .fail (.prisma code)

def listByAgency (agencyId : AgencyId) : Req (List ReviewShape) := do
  let reviews ← await (.reviewFindManyByAgency agencyId)
  return reviews.map fun (id, r) => toReviewShape id r

def findMine (pilgrimId : UserId) : Req (List ReviewShape) := do
  let reviews ← await (.reviewFindManyByPilgrim pilgrimId)
  return reviews.map fun (id, r) => toReviewShape id r

def findByBooking (bookingId : BookingId) : Req (Option ReviewShape) := do
  let review ← await (.reviewFindUnique bookingId)
  return review.map fun (id, r) => toReviewShape id r

/-! ### The score of trust -/

/-- The share of the concluded bookings that were completed. -/
def completionRate (completed cancelled : Nat) : Option ℚ :=
  if completed + cancelled > 0 then some (completed / (completed + cancelled)) else none

/-- The score before it is rounded. -/
def score : Option ℚ → Option ℚ → Option ℚ
  | some reviewAverage, some rate =>
    some (reviewAverage / 5 * 100 * reviewWeight + rate * 100 * completionWeight)
  | some reviewAverage, none => some (reviewAverage / 5 * 100)
  | none, some rate => some (rate * 100)
  | none, none => none

def badge (status : AgencyValidationStatus) (roundedScore : Option Int) (reviewCount : Nat) :
    Option Badge :=
  if status = .approved then
    if roundedScore.any (trustedScoreThreshold ≤ ·) ∧ minReviewsForTrustedBadge ≤ reviewCount then
      some .trusted
    else some .verified
  else none

def getTrustScore (agencyId : AgencyId) : Req AgencyTrustScoreShape := do
  match ← await (.agencyFindUnique agencyId) with
  | none => .fail (.notFound "Agence introuvable")
  | some agency =>
    let reviewStats ← await (.reviewAggregate agencyId)
    let completed : Nat ← await (.bookingCount agencyId .completed)
    let cancelled : Nat ← await (.bookingCount agencyId .cancelled)
    let roundedScore := (score reviewStats.avg (completionRate completed cancelled)).map mathRound
    return {
      agencyId
      score := roundedScore
      reviewAverage := reviewStats.avg
      reviewCount := reviewStats.count
      completionRate := completionRate completed cancelled
      concludedBookingsCount := completed + cancelled
      badge := badge agency.validationStatus roundedScore reviewStats.count }

/-! ### The report of satisfaction -/

def getSatisfactionReport (ownerId : UserId) : Req SatisfactionReportShape := do
  let agency ← Prog.left (AgenciesService.findByOwnerOrFail ownerId)
  let reviews ← await (.reviewFindManyByAgency agency.id)
  let generatedAt ← Prog.left (OumraHajj.await .now)
  return {
    agencyId := agency.id
    agencyName := agency.legalName
    generatedAt
    reviewCount := reviews.length
    reviewAverage := (agregat (reviews.map (·.2.rating))).avg
    ratingDistribution := [1, 2, 3, 4, 5].map fun rating =>
      (rating, (reviews.filter (·.2.rating = rating)).length)
    reviews := reviews.map fun (_, r) => ⟨r.rating, r.comment, r.createdAt⟩ }

/-- `escapeCsv`: it doubles the quotes, as `celluleCsv` does, and no more. -/
def escapeCsv (value : String) : String :=
  "\"" ++ String.ofList (value.toList.flatMap fun c => if c = '"' then ['"', '"'] else [c]) ++ "\""

def header : String := "date,note,commentaire"

/-- The cells of a review, as they are written. -/
def cellules (r : SatisfactionReportReview) : List String :=
  [toISOString r.createdAt, toString r.rating, escapeCsv (r.comment.getD "")]

def getSatisfactionReportCsv (ownerId : UserId) : Req String := do
  let report ← getSatisfactionReport ownerId
  return "\n".intercalate (header :: report.reviews.map fun r => ",".intercalate (cellules r))

end ReviewsService

end OumraHajj.Reviews
