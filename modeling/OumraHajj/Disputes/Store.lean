import OumraHajj.Services.Accounts

/-!
# Disputes: rows and statements

The rows of `disputes` and `dispute_messages`, beside the rest of the database, and the statements
of `DisputesService` and `DisputePurgeService`. The messages of a dispute are kept with it, in the
order of their creation. A purged dispute leaves `none` in the table, so identifiers are not used
again.

The store has a clock that never goes back: each statement is executed at the later of the time in
its environment and the time of the last statement, and `new Date()` reads it.
-/

namespace OumraHajj.Disputes

open Async

abbrev DisputeId := Nat

inductive DisputeCategory where
  | payment
  | refund
  | accommodation
  | transport
  | documents
  | service
  | other
  deriving DecidableEq, Repr

inductive DisputeStatus where
  | open
  | agencyResponded
  | escalated
  | resolved
  | closed
  deriving DecidableEq, Repr

structure DisputeMessage where
  authorId : UserId
  authorRole : Role
  content : String
  createdAt : Time
  deriving DecidableEq

structure Dispute where
  bookingId : BookingId
  pilgrimId : UserId
  agencyId : AgencyId
  category : DisputeCategory
  subject : String
  status : DisputeStatus := .open
  decision : Option String := none
  decidedById : Option UserId := none
  escalatedAt : Option Time := none
  closedAt : Option Time := none
  createdAt : Time
  updatedAt : Time
  messages : List DisputeMessage
  deriving DecidableEq

/-- `ACTIFS`. -/
def actif : DisputeStatus → Bool
  | .open => true
  | .agencyResponded => true
  | .escalated => true
  | _ => false

/-- `CLOS` of the purge. -/
def clos : DisputeStatus → Bool
  | .resolved => true
  | .closed => true
  | _ => false

theorem actif_eq_not_clos (st : DisputeStatus) : actif st = !clos st := by cases st <;> rfl

/-- The database with its disputes, and the clock (module doc). -/
structure Store where
  app : Db := {}
  clock : Time := 0
  disputes : Table (Option Dispute) := []

namespace Store

/-- The dispute of an identifier. -/
def dispute (s : Store) (id : DisputeId) : Option Dispute := s.disputes.row id

/-- The time of the next statement. -/
def tick (e : Env) (s : Store) : Store := { s with clock := max s.clock e.now }

end Store

/-- A message of a detail with the name of its author. -/
structure LitigeMessage where
  id : Nat
  message : DisputeMessage
  authorFullName : String

/-- `LitigeDetail`: a dispute with what `DETAIL` includes. -/
structure LitigeDetail where
  id : DisputeId
  dispute : Dispute
  packageTitle : String
  agencyLegalName : String
  agencyOwnerId : UserId
  pilgrimFullName : String
  messages : List LitigeMessage

/-- `data` of `dispute.create`. -/
structure DisputeCreate where
  bookingId : BookingId
  pilgrimId : UserId
  agencyId : AgencyId
  category : DisputeCategory
  subject : String
  message : String

/-- `data` of `dispute.update`; the two flags stand for `escalatedAt: new Date()` and
`closedAt: new Date()`. -/
structure DisputeUpdate where
  status : DisputeStatus
  /-- `messages: { create }`: the author, the role and the content. -/
  message : Option (UserId × Role × String) := none
  escalated : Bool := false
  closed : Bool := false
  /-- `decision` and `decidedById`. -/
  decision : Option (String × UserId) := none

def DisputeCreate.row (data : DisputeCreate) (now : Time) : Dispute :=
  { bookingId := data.bookingId
    pilgrimId := data.pilgrimId
    agencyId := data.agencyId
    category := data.category
    subject := data.subject
    createdAt := now
    updatedAt := now
    messages := [⟨data.pilgrimId, .pilgrim, data.message, now⟩] }

def DisputeUpdate.apply (data : DisputeUpdate) (now : Time) (d : Dispute) : Dispute :=
  { d with
    status := data.status
    decision := (data.decision.map Prod.fst).or d.decision
    decidedById := (data.decision.map Prod.snd).or d.decidedById
    escalatedAt := if data.escalated then some now else d.escalatedAt
    closedAt := if data.closed then some now else d.closedAt
    updatedAt := now
    messages := match data.message with
      | some (authorId, authorRole, content) => d.messages ++ [⟨authorId, authorRole, content, now⟩]
      | none => d.messages }

/-- The users that an update refers to. -/
def DisputeUpdate.userIds (data : DisputeUpdate) : List UserId :=
  (data.message.map Prod.fst).toList ++ (data.decision.map Prod.snd).toList

inductive Stmt where
  /-- `include: { agency: { select: { ownerId } } }`. -/
  | bookingFindUnique (id : BookingId)
  /-- `where: { bookingId, status: { in: ACTIFS } }`. -/
  | disputeFindFirst (bookingId : BookingId)
  | disputeFindUnique (id : DisputeId)
  | disputeCreate (data : DisputeCreate)
  | disputeUpdate (id : DisputeId) (data : DisputeUpdate)
  /-- `where: { status: { in: CLOS }, closedAt: { lt: limite } }`. -/
  | disputeDeleteMany (limite : Time)
  /-- `where: { role: ADMIN, isActive: true }`. -/
  | userFindManyAdmins

/-- The answer of each statement; an error is the code of a rejected call. -/
def Resp : Stmt → Type
  | .bookingFindUnique _ => Option (Booking × UserId)
  | .disputeFindFirst _ => Option Dispute
  | .disputeFindUnique _ => Option LitigeDetail
  | .disputeCreate _ => Except String LitigeDetail
  | .disputeUpdate _ _ => Except String Unit
  | .disputeDeleteMany _ => Nat
  | .userFindManyAdmins => List UserId

/-- The statements of the disputes and of the other services. -/
abbrev sig : Sig := prismaSig.sum ⟨Stmt, Resp⟩

namespace Store

/-- `include: DETAIL`. -/
def detail (s : Store) (id : DisputeId) (d : Dispute) : Option LitigeDetail :=
  (s.app.bookings[d.bookingId]?).bind fun booking =>
  (s.app.packages[booking.packageId]?).bind fun package =>
  (s.app.agencies[d.agencyId]?).bind fun agency =>
  (s.app.users[d.pilgrimId]?).map fun pilgrim =>
    { id, dispute := d
      packageTitle := package.title
      agencyLegalName := agency.legalName
      agencyOwnerId := agency.ownerId
      pilgrimFullName := pilgrim.fullName
      messages := ((Table.withIds d.messages).filterMap fun (i, m) =>
        (s.app.users[m.authorId]?).map fun author => ⟨i, m, author.fullName⟩).insertionSort
          fun x y => x.message.createdAt ≤ y.message.createdAt }

/-- The disputes that `purgeClosedDisputes` deletes. -/
def perime (limite : Time) (d : Dispute) : Bool := clos d.status && d.closedAt.any (· < limite)

end Store

/-- What a statement answers at the time of the clock, and the store after it. -/
def exec : (c : Stmt) → Store → Resp c × Store
  | .bookingFindUnique id, s =>
    ((s.app.bookings[id]?).bind fun b =>
      (s.app.agencies[b.agencyId]?).map fun agency => (b, agency.ownerId), s)
  | .disputeFindFirst bookingId, s =>
    (((s.disputes.findFirst fun row => row.any fun d => d.bookingId = bookingId ∧ actif d.status).map
      Prod.snd).join, s)
  | .disputeFindUnique id, s => ((s.dispute id).bind (s.detail id), s)
  | .disputeCreate data, s =>
    match s.detail s.disputes.length (data.row s.clock) with
    | some litige => (.ok litige, { s with disputes := s.disputes ++ [some (data.row s.clock)] })
    | none => (.error "P2003", s)
  | .disputeUpdate id data, s =>
    match s.dispute id with
    | none => (.error "P2025", s)
    | some d =>
      match data.userIds.all fun u => (s.app.users[u]?).isSome with
      | true => (.ok (), { s with disputes := s.disputes.set id (some (data.apply s.clock d)) })
      | false => (.error "P2003", s)
  | .disputeDeleteMany limite, s =>
    (s.disputes.countP fun row => row.any (Store.perime limite),
      { s with disputes := s.disputes.map fun row => row.filter fun d => !Store.perime limite d })
  | .userFindManyAdmins, s =>
    ((s.app.users.findMany fun u => u.role = .admin ∧ u.isActive).map Prod.fst, s)

/-- The backend of the disputes. -/
def backend : Backend sig Store Env where
  exec
    | .inl c, e, s =>
      let r := prisma.exec c { e with now := (s.tick e).clock } s.app
      (r.1, { s.tick e with app := r.2 })
    | .inr c, e, s => exec c (s.tick e)

/-- A request handler. -/
abbrev Req := Prog sig Erreur

/-- Execute one statement. -/
abbrev await (c : Stmt) : Req (Resp c) := @Prog.exec sig _ (.inr c)

end OumraHajj.Disputes
