import OumraHajj.Messaging.Store

/-!
# The services of the messaging

`MessagingService` (`src/modules/messaging/messaging.service.ts`) and `MessagingInboxService`
(`messaging-inbox.service.ts`). The rule of access is written twice: as code in `assertParticipant`, and as
a filter of the database in `listInbox`.
-/

namespace OumraHajj.Messaging

open Async

structure Participants where
  pilgrimId : UserId
  otherId : UserId

structure ConversationShape where
  id : ConversationId
  bookingId : BookingId
  channel : MessagingChannel

structure MessageShape where
  id : Nat
  conversationId : ConversationId
  senderId : UserId
  content : String
  clientSentAt : Time
  readAt : Option Time
  createdAt : Time

structure SendMessageDto where
  content : String
  clientSentAt : Time
  /-- `@MinLength(1)`. -/
  content_length : 1 ≤ content.length

def toConversationShape (id : ConversationId) (conversation : Conversation) : ConversationShape where
  id := id
  bookingId := conversation.bookingId
  channel := conversation.channel

def toMessageShape (id : Nat) (message : Message) : MessageShape where
  id := id
  conversationId := message.conversationId
  senderId := message.senderId
  content := message.content
  clientSentAt := message.clientSentAt
  readAt := message.readAt
  createdAt := message.createdAt

namespace MessagingService

def findConversationOrFail (id : ConversationId) : Req Conversation := do
  match ← await (.conversationFindUnique id) with
  | some conversation => return conversation
  | none => .fail (.notFound "Conversation introuvable")

/-- The two participants of a conversation: the pilgrim with the agency, or with the guide. -/
def resolveParticipants (booking : BookingShape) (channel : MessagingChannel) : Req Participants := do
  let aucun : Req Participants :=
    .fail (.conflict "Aucun guide assigné à cette réservation pour le moment")
  if channel = .agency then
    let agency ← ofCatalogue (Catalogue.AgenciesService.findByIdOrFail booking.agencyId)
    return { pilgrimId := booking.pilgrimId, otherId := agency.ownerId }
  else
    match booking.groupId with
    | none => aucun
    | some groupId =>
      let group ← ofGroups (Groups.GroupsService.findByIdOrFail groupId)
      match group.guideId with
      | none => aucun
      | some guideId => return { pilgrimId := booking.pilgrimId, otherId := guideId }

def assertParticipant (booking : BookingShape) (channel : MessagingChannel) (userId : UserId) :
    Req Participants := do
  let participants ← resolveParticipants booking channel
  if userId ≠ participants.pilgrimId ∧ userId ≠ participants.otherId then
    .fail (.forbidden "Cette conversation ne vous appartient pas")
  else return participants

def getOrCreateConversation (bookingId : BookingId) (channel : MessagingChannel)
    (requesterId : UserId) : Req ConversationShape := do
  let booking ← app (BookingsService.findByIdOrFail bookingId)
  let _ ← assertParticipant booking channel requesterId
  match ← await (.conversationUpsert bookingId channel) with
  | .ok (id, conversation) => return toConversationShape id conversation
  | .error code => .fail (.prisma code)

def assertAccessToConversation (conversationId : ConversationId) (userId : UserId) :
    Req Conversation := do
  let conversation ← findConversationOrFail conversationId
  let booking ← app (BookingsService.findByIdOrFail conversation.bookingId)
  let _ ← assertParticipant booking conversation.channel userId
  return conversation

def listMessages (conversationId : ConversationId) (requesterId : UserId) :
    Req (List MessageShape) := do
  let _ ← assertAccessToConversation conversationId requesterId
  let messages ← await (.messageFindMany conversationId)
  return List.map (fun x : Nat × Message => toMessageShape x.1 x.2) messages

def sendMessage (conversationId : ConversationId) (senderId : UserId) (dto : SendMessageDto) :
    Req MessageShape := do
  let conversation ← findConversationOrFail conversationId
  let booking ← app (BookingsService.findByIdOrFail conversation.bookingId)
  let participants ← assertParticipant booking conversation.channel senderId
  match ← await (.messageCreate conversationId senderId dto.content dto.clientSentAt) with
  | .error code => .fail (.prisma code)
  | .ok (id, message) =>
    let recipientId :=
      if senderId = participants.pilgrimId then participants.otherId else participants.pilgrimId
    app (NotificationsService.send
      { recipientIds := [recipientId]
        type := .groupMessage
        title := [.txt "Nouveau message"]
        content := [.txt message.content]
        isCritical := false })
    return toMessageShape id message

end MessagingService

/-! ## The inbox -/

structure LastMessageShape where
  content : String
  senderId : UserId
  createdAt : Time

structure InboxConversationShape where
  id : ConversationId
  bookingId : BookingId
  channel : MessagingChannel
  counterpartName : String
  packageTitle : String
  lastMessage : LastMessageShape
  unreadCount : Nat

namespace MessagingInboxService

/-- A line of the inbox; none for a conversation without a message. -/
def toInboxConversation (userId : UserId) (row : InboxRow) : List InboxConversationShape :=
  match row.messages with
  | [] => []
  | dernier :: _ =>
    let counterpartName :=
      if row.booking.pilgrimId = userId then
        if row.conversation.channel = .agency then row.booking.agencyLegalName
        else row.booking.guideFullName.getD ""
      else row.booking.pilgrimFullName
    [{ id := row.id
       bookingId := row.conversation.bookingId
       channel := row.conversation.channel
       counterpartName
       packageTitle := row.booking.packageTitle
       lastMessage := ⟨dernier.content, dernier.senderId, dernier.createdAt⟩
       unreadCount := row.unread }]

def listInbox (userId : UserId) : Req (List InboxConversationShape) := do
  let conversations ← await (.conversationFindMany userId)
  return (List.flatMap (toInboxConversation userId) conversations).mergeSort
    fun a b => b.lastMessage.createdAt ≤ a.lastMessage.createdAt

def markAsRead (conversationId : ConversationId) (userId : UserId) : Req Unit := do
  let _ ← MessagingService.assertAccessToConversation conversationId userId
  let _ ← await (.messageUpdateMany conversationId userId)
  return ()

end MessagingInboxService

/-! ## Requests -/

inductive Request where
  | groups (q : Groups.Request)
  | getOrCreateConversation (bookingId : BookingId) (channel : MessagingChannel) (requesterId : UserId)
  | joinConversation (conversationId : ConversationId) (userId : UserId)
  | listMessages (conversationId : ConversationId) (requesterId : UserId)
  | sendMessage (conversationId : ConversationId) (senderId : UserId) (dto : SendMessageDto)
  | listInbox (userId : UserId)
  | markAsRead (conversationId : ConversationId) (userId : UserId)

/-- The handler of a request, without the value that it returns. -/
def handler : Request → Req Unit
  | .groups q => ofGroups (Groups.handler q)
  | .getOrCreateConversation bookingId channel requesterId =>
    (MessagingService.getOrCreateConversation bookingId channel requesterId).void
  | .joinConversation conversationId userId =>
    (MessagingService.assertAccessToConversation conversationId userId).void
  | .listMessages conversationId requesterId =>
    (MessagingService.listMessages conversationId requesterId).void
  | .sendMessage conversationId senderId dto =>
    (MessagingService.sendMessage conversationId senderId dto).void
  | .listInbox userId => (MessagingInboxService.listInbox userId).void
  | .markAsRead conversationId userId => MessagingInboxService.markAsRead conversationId userId

/-- The requests run at once, from the store `s`. -/
def poolOf {ι : Type} (requests : ι → Request) (s : Store) : Pool sig ι Store Erreur Unit :=
  ⟨fun t => handler (requests t), s⟩

end OumraHajj.Messaging
