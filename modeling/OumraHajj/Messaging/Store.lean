import OumraHajj.Groups.Handlers

/-!
# Conversations: rows and statements

A booking has at most one conversation for each channel: with its agency, and with the guide of its group.
No route deletes a conversation or a message.
-/

namespace OumraHajj.Messaging

open Async

abbrev ConversationId := Nat

inductive MessagingChannel where
  | agency
  | guide
  deriving DecidableEq, Repr

structure Conversation where
  bookingId : BookingId
  channel : MessagingChannel
  createdAt : Time
  deriving DecidableEq

structure Message where
  conversationId : ConversationId
  senderId : UserId
  content : String
  clientSentAt : Time
  readAt : Option Time := none
  createdAt : Time

/-- The database with its conversations. -/
structure Store where
  groups : Groups.Store := {}
  conversations : Table Conversation := []
  messages : Table Message := []

/-- What `listInbox` selects of a booking. -/
structure BookingSelect where
  pilgrimId : UserId
  pilgrimFullName : String
  agencyLegalName : String
  /-- `group?.guide?.fullName`. -/
  guideFullName : Option String
  packageTitle : String

/-- A conversation with what `listInbox` includes. -/
structure InboxRow where
  id : ConversationId
  conversation : Conversation
  booking : BookingSelect
  /-- `orderBy: { createdAt: 'desc' }`, `take: 1`. -/
  messages : List Message
  /-- The messages of others that are not read. -/
  unread : Nat

namespace Store

variable (s : Store)

/-- The messages of a conversation. -/
def messagesOf (id : ConversationId) : List (Nat × Message) := s.messages.findMany (·.conversationId = id)

/-- The guide of the group of a booking. -/
def guideDe (b : Booking) : Option UserId :=
  (b.groupId.bind fun g => s.groups.groups[g]?).bind (·.guideId)

/-- The owner of the agency of a booking. -/
def ownerDe (b : Booking) : Option UserId := (s.groups.app.agencies[b.agencyId]?).map (·.ownerId)

/-- `messages: { some: {} }`. -/
def AUnMessage (id : ConversationId) : Prop := ∃ m ∈ s.messages, m.conversationId = id

instance (id : ConversationId) : Decidable (s.AUnMessage id) :=
  inferInstanceAs (Decidable (∃ m ∈ s.messages, m.conversationId = id))

/-- The `OR` of `listInbox`. -/
def Concerne (userId : UserId) (conversation : Conversation) (b : Booking) : Prop :=
  b.pilgrimId = userId ∨ (conversation.channel = .agency ∧ s.ownerDe b = some userId) ∨
    (conversation.channel = .guide ∧ s.guideDe b = some userId)

instance (userId : UserId) (conversation : Conversation) (b : Booking) :
    Decidable (s.Concerne userId conversation b) :=
  inferInstanceAs (Decidable (_ ∨ _))

/-- What is selected of a booking; its pilgrim, its agency and its package exist. -/
def select (b : Booking) : BookingSelect where
  pilgrimId := b.pilgrimId
  pilgrimFullName := ((s.groups.app.users[b.pilgrimId]?).map (·.fullName)).getD ""
  agencyLegalName := ((s.groups.app.agencies[b.agencyId]?).map (·.legalName)).getD ""
  guideFullName := (s.guideDe b).bind fun u => (s.groups.app.users[u]?).map (·.fullName)
  packageTitle := ((s.groups.app.packages[b.packageId]?).map (·.title)).getD ""

/-- A conversation in the inbox of a user. -/
def inboxRow (userId : UserId) (id : ConversationId) (conversation : Conversation) (b : Booking) :
    InboxRow where
  id := id
  conversation := conversation
  booking := s.select b
  messages := (((s.messagesOf id).map Prod.snd).insertionSort fun x y => y.createdAt ≤ x.createdAt).take 1
  unread := (s.messagesOf id).countP fun x => x.2.readAt.isNone ∧ x.2.senderId ≠ userId

/-- The conversations with messages that concern a user. -/
def inboxRows (userId : UserId) : List InboxRow :=
  s.conversations.withIds.filterMap fun (id, conversation) =>
    (s.groups.app.bookings[conversation.bookingId]?).bind fun b =>
      if s.AUnMessage id ∧ s.Concerne userId conversation b then
        some (s.inboxRow userId id conversation b)
      else none

end Store

inductive Stmt where
  | conversationFindUnique (id : ConversationId)
  /-- `where: { bookingId_channel }`, `update: {}`. -/
  | conversationUpsert (bookingId : BookingId) (channel : MessagingChannel)
  /-- `where: { messages: { some: {} }, OR }`, with what `listInbox` includes. -/
  | conversationFindMany (userId : UserId)
  | messageCreate (conversationId : ConversationId) (senderId : UserId) (content : String)
    (clientSentAt : Time)
  /-- `where: { conversationId }`, `orderBy: { createdAt: 'asc' }`. -/
  | messageFindMany (conversationId : ConversationId)
  /-- `where: { conversationId, senderId: { not }, readAt: null }`, `data: { readAt: new Date() }`. -/
  | messageUpdateMany (conversationId : ConversationId) (userId : UserId)

/-- The answer of each statement; `none` or an error is a rejected call. -/
def Resp : Stmt → Type
  | .conversationFindUnique _ => Option Conversation
  | .conversationUpsert _ _ => Except String (ConversationId × Conversation)
  | .conversationFindMany _ => List InboxRow
  | .messageCreate _ _ _ _ => Except String (Nat × Message)
  | .messageFindMany _ => List (Nat × Message)
  | .messageUpdateMany _ _ => Nat

/-- The statements of the messaging and of the other services. -/
abbrev sig : Sig := Groups.sig.sum ⟨Stmt, Resp⟩

namespace Store

/-- The messages that `markAsRead` marks. -/
def nonLu (conversationId : ConversationId) (userId : UserId) (m : Message) : Bool :=
  m.conversationId = conversationId ∧ m.senderId ≠ userId ∧ m.readAt.isNone

end Store

/-- What a statement answers, and the store after it. -/
def exec : (c : Stmt) → Env → Store → Resp c × Store
  | .conversationFindUnique id, _, s => (s.conversations[id]?, s)
  | .conversationUpsert bookingId channel, e, s =>
    match s.conversations.findFirst fun c => c.bookingId = bookingId ∧ c.channel = channel with
    | some found => (.ok found, s)
    | none =>
      match s.groups.app.bookings[bookingId]? with
      | some _ =>
        (.ok (s.conversations.length, ⟨bookingId, channel, e.now⟩),
          { s with conversations := s.conversations ++ [⟨bookingId, channel, e.now⟩] })
      | none => (.error "P2003", s)
  | .conversationFindMany userId, _, s => (s.inboxRows userId, s)
  | .messageCreate conversationId senderId content clientSentAt, e, s =>
    match s.conversations[conversationId]?, s.groups.app.users[senderId]? with
    | some _, some _ =>
      let message : Message :=
        { conversationId, senderId, content, clientSentAt, createdAt := e.now }
      (.ok (s.messages.length, message), { s with messages := s.messages ++ [message] })
    | _, _ => (.error "P2003", s)
  | .messageFindMany conversationId, _, s =>
    ((s.messagesOf conversationId).insertionSort fun x y => x.2.createdAt ≤ y.2.createdAt, s)
  | .messageUpdateMany conversationId userId, e, s =>
    (s.messages.countP (Store.nonLu conversationId userId),
      { s with
        messages := s.messages.map fun m =>
          if Store.nonLu conversationId userId m then { m with readAt := some e.now } else m })

/-- The backend of the messaging. -/
def backend : Backend sig Store Env where
  exec
    | .inl c, e, s =>
      ((Groups.backend.exec c e s.groups).1, { s with groups := (Groups.backend.exec c e s.groups).2 })
    | .inr c, e, s => exec c e s

/-- A request handler. -/
abbrev Req := Prog sig Erreur

/-- Execute one statement. -/
abbrev await (c : Stmt) : Req (Resp c) := @Prog.exec sig _ (.inr c)

/-- A handler of the services of the groups. -/
abbrev ofGroups {α : Type} (p : Groups.Req α) : Req α := Prog.left p

/-- A handler of the services of the agencies and the packages. -/
abbrev ofCatalogue {α : Type} (p : Catalogue.Req α) : Req α := ofGroups (Prog.left p)

/-- A handler of the services of the bookings, the users and the agencies. -/
abbrev app {α : Type} (p : OumraHajj.Req α) : Req α := ofGroups (Groups.app p)

end OumraHajj.Messaging
