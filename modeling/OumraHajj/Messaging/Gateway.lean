import OumraHajj.Async.Served
import OumraHajj.Auth.Crypto
import OumraHajj.Messaging.Service

/-!
# The gateway of the messaging

`MessagingGateway` (`src/modules/messaging/messaging.gateway.ts`) and `MessagingController.sendMessage`
(`messaging.controller.ts`). A room is a conversation. The rest of `handleConnection` runs when the
authentication is answered, with any answer; a socket is closed at any time, by its client, by its timer or by
a logout (`Realtime`). Until then `client.data.user` is undefined, and `user.sub` is a `TypeError`.

No pipe validates what comes over a socket: `handleSend` passes any content on.
-/

namespace OumraHajj.Messaging

open Async Auth

/-- The messaging with the sockets of its namespace. -/
abbrev LiveStore := Store × Gateway.Hub JwtPayload ConversationId MessageShape

abbrev liveSig : Sig := Gateway.served sig JwtPayload ConversationId MessageShape

abbrev LiveReq := Prog liveSig Erreur

def liveBackend : Backend liveSig LiveStore Env := Gateway.backend backend

/-- `user.sub` of an undefined `user`. -/
def sansUtilisateur : Erreur := .autre "TypeError"

/-- `SendMessagePayload`, which nothing validates. -/
structure SendMessagePayload where
  content : String
  clientSentAt : Time

namespace MessagingService

/-- `sendMessage` of what comes over a socket. -/
def envoyer (conversationId : ConversationId) (senderId : UserId) (content : String)
    (clientSentAt : Time) : Req MessageShape := do
  let conversation ← findConversationOrFail conversationId
  let booking ← app (BookingsService.findByIdOrFail conversation.bookingId)
  let participants ← assertParticipant booking conversation.channel senderId
  match ← await (.messageCreate conversationId senderId content clientSentAt) with
  | .error code => .fail (.prisma code)
  | .ok (id, message) =>
    let recipientId :=
      if senderId = participants.pilgrimId then participants.otherId else participants.pilgrimId
    app (NotificationsService.send
      { recipientIds := [recipientId]
        type := .groupMessage
        title := [.txt "Nouveau message"]
        content := [.txt message.content]
        isCritical := false })
    return toMessageShape id message

/-- A route sends what is validated. -/
theorem sendMessage_eq (conversationId : ConversationId) (senderId : UserId) (dto : SendMessageDto) :
    sendMessage conversationId senderId dto =
      envoyer conversationId senderId dto.content dto.clientSentAt := by
  unfold sendMessage envoyer
  refine congrArg (Prog.bind _) (funext fun conversation => ?_)
  refine congrArg (Prog.bind _) (funext fun booking => ?_)
  refine congrArg (Prog.bind _) (funext fun participants => ?_)
  refine congrArg (Prog.bind _) (funext fun r => ?_)
  rcases r with code | ⟨id, message⟩ <;> rfl

end MessagingService

namespace MessagingGateway

def handleJoin (client : Nat) (conversationId : ConversationId) : LiveReq Unit :=
  Gateway.join sansUtilisateur
    (fun user id => MessagingService.assertAccessToConversation id user.sub) client conversationId

def handleSend (client : Nat) (conversationId : ConversationId) (payload : SendMessagePayload) :
    LiveReq MessageShape :=
  Gateway.send sansUtilisateur
    (fun user id payload => MessagingService.envoyer id user.sub payload.content payload.clientSentAt)
    client conversationId payload

end MessagingGateway

namespace MessagingController

/-- The message is emitted to its conversation (`emitNewMessage`). -/
def sendMessage (userId : UserId) (conversationId : ConversationId) (dto : SendMessageDto) :
    LiveReq MessageShape :=
  Gateway.post (MessagingService.sendMessage conversationId userId dto) (·.conversationId)

end MessagingController

/-! ## Requests -/

inductive LiveRequest where
  | service (q : Request)
  /-- A socket connects. -/
  | connexion
  /-- The answer of `authenticate`. -/
  | authentification (client : Nat) (reponse : Option JwtPayload)
  | join (client : Nat) (conversationId : ConversationId)
  | send (client : Nat) (conversationId : ConversationId) (payload : SendMessagePayload)
  /-- A socket is closed. -/
  | deconnexion (client : Nat)

/-- The handler of a request, without the value that it returns. -/
def liveHandler : LiveRequest → LiveReq Unit
  | .service (.sendMessage conversationId senderId dto) =>
    (MessagingController.sendMessage senderId conversationId dto).void
  | .service q => Prog.left (handler q)
  | .connexion => (Gateway.await .connect).void
  | .authentification client reponse => Gateway.await (.answer client reponse)
  | .join client conversationId => MessagingGateway.handleJoin client conversationId
  | .send client conversationId payload =>
    (MessagingGateway.handleSend client conversationId payload).void
  | .deconnexion client => Gateway.await (.disconnect client)

/-- The requests run at once, from the store `x`. -/
def livePool {ι : Type} (requests : ι → LiveRequest) (x : LiveStore) : Pool liveSig ι LiveStore Erreur Unit :=
  ⟨fun t => liveHandler (requests t), x⟩

end OumraHajj.Messaging
