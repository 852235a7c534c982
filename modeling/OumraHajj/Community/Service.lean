import OumraHajj.Async.Served
import OumraHajj.Auth.Crypto
import OumraHajj.Groups.Handlers

/-!
# The community of a group

`CommunityService` (`src/modules/community/community.service.ts`), `CommunityGateway` (`community.gateway.ts`)
and `CommunityController` (`community.controller.ts`). A room is a group; who may read it is what
`GroupsService.findAuthorizedOrFail` says, of the role that the token has. The sockets are those of the
messaging, in a namespace of their own; no pipe validates what comes over them. No route deletes a message.
-/

namespace OumraHajj.Community

open Async Auth Groups

structure CommunityMessage where
  groupId : GroupId
  senderId : UserId
  content : String
  clientSentAt : Time
  createdAt : Time
  deriving DecidableEq

/-- The database with the messages of the groups. -/
structure Store where
  groups : Groups.Store := {}
  communityMessages : Table CommunityMessage := []

/-- `include: { sender: { select: { fullName: true } } }`; the sender exists. -/
def Store.senderName (s : Store) (senderId : UserId) : String :=
  ((s.groups.app.users[senderId]?).map (·.fullName)).getD ""

inductive Stmt where
  | communityMessageCreate (groupId : GroupId) (senderId : UserId) (content : String) (clientSentAt : Time)
  /-- `where: { groupId }`, `orderBy: { createdAt: 'asc' }`. -/
  | communityMessageFindMany (groupId : GroupId)

/-- The answer of each statement, with the names of the senders. -/
def Resp : Stmt → Type
  | .communityMessageCreate _ _ _ _ => Except String (Nat × CommunityMessage × String)
  | .communityMessageFindMany _ => List (Nat × CommunityMessage × String)

/-- The statements of the community and of the groups. -/
abbrev sig : Sig := Groups.sig.sum ⟨Stmt, Resp⟩

/-- What a statement answers, and the store after it. -/
def exec : (c : Stmt) → Env → Store → Resp c × Store
  | .communityMessageCreate groupId senderId content clientSentAt, e, s =>
    match s.groups.groups[groupId]?, s.groups.app.users[senderId]? with
    | some _, some sender =>
      let message : CommunityMessage := { groupId, senderId, content, clientSentAt, createdAt := e.now }
      (.ok (s.communityMessages.length, message, sender.fullName),
        { s with communityMessages := s.communityMessages ++ [message] })
    | _, _ => (.error "P2003", s)
  | .communityMessageFindMany groupId, _, s =>
    (((s.communityMessages.findMany (·.groupId = groupId)).insertionSort
      fun x y => x.2.createdAt ≤ y.2.createdAt).map fun x => (x.1, x.2, s.senderName x.2.senderId), s)

def backend : Backend sig Store Env where
  exec
    | .inl c, e, s =>
      ((Groups.backend.exec c e s.groups).1, { s with groups := (Groups.backend.exec c e s.groups).2 })
    | .inr c, e, s => exec c e s

/-- A request handler. -/
abbrev Req := Prog sig Erreur

/-- Execute one statement. -/
abbrev await (c : Stmt) : Req (Resp c) := @Prog.exec sig _ (.inr c)

/-- A handler of the services of the groups. -/
abbrev ofGroups {α : Type} (p : Groups.Req α) : Req α := Prog.left p

structure CommunityMessageShape where
  id : Nat
  groupId : GroupId
  senderId : UserId
  senderName : String
  content : String
  clientSentAt : Time
  createdAt : Time

def toShape (id : Nat) (message : CommunityMessage) (senderName : String) : CommunityMessageShape where
  id := id
  groupId := message.groupId
  senderId := message.senderId
  senderName := senderName
  content := message.content
  clientSentAt := message.clientSentAt
  createdAt := message.createdAt

/-- `SendCommunityMessagePayload`, which nothing validates. -/
structure SendCommunityMessagePayload where
  content : String
  clientSentAt : Time

structure SendCommunityMessageDto extends SendCommunityMessagePayload where
  /-- `@MinLength(1)`. -/
  content_length : 1 ≤ content.length

namespace CommunityService

def assertAccessToGroup (groupId : GroupId) (user : JwtPayload) : Req Unit := do
  let _ ← ofGroups (GroupsService.findAuthorizedOrFail user.sub user.role groupId)
  return ()

def listMessages (groupId : GroupId) (user : JwtPayload) : Req (List CommunityMessageShape) := do
  assertAccessToGroup groupId user
  let messages ← await (.communityMessageFindMany groupId)
  return List.map (fun x : Nat × CommunityMessage × String => toShape x.1 x.2.1 x.2.2) messages

def sendMessage (groupId : GroupId) (user : JwtPayload) (dto : SendCommunityMessagePayload) :
    Req CommunityMessageShape := do
  assertAccessToGroup groupId user
  match ← await (.communityMessageCreate groupId user.sub dto.content dto.clientSentAt) with
  | .ok (id, message, senderName) => return toShape id message senderName
  | .error code => .fail (.prisma code)

end CommunityService

/-! ## The gateway -/

abbrev LiveStore := Store × Gateway.Hub JwtPayload GroupId CommunityMessageShape

abbrev liveSig : Sig := Gateway.served sig JwtPayload GroupId CommunityMessageShape

abbrev LiveReq := Prog liveSig Erreur

def liveBackend : Backend liveSig LiveStore Env := Gateway.backend backend

/-- `user.sub` of an undefined `user`. -/
def sansUtilisateur : Erreur := .autre "TypeError"

namespace CommunityGateway

def handleJoin (client : Nat) (groupId : GroupId) : LiveReq Unit :=
  Gateway.join sansUtilisateur (fun user id => CommunityService.assertAccessToGroup id user) client groupId

def handleSend (client : Nat) (groupId : GroupId) (payload : SendCommunityMessagePayload) :
    LiveReq CommunityMessageShape :=
  Gateway.send sansUtilisateur (fun user id payload => CommunityService.sendMessage id user payload)
    client groupId payload

end CommunityGateway

namespace CommunityController

/-- The message is emitted to its group (`emitNewMessage`). -/
def sendMessage (user : JwtPayload) (groupId : GroupId) (dto : SendCommunityMessageDto) :
    LiveReq CommunityMessageShape :=
  Gateway.post (CommunityService.sendMessage groupId user dto.toSendCommunityMessagePayload) (·.groupId)

end CommunityController

/-! ## Requests -/

inductive Request where
  | groups (q : Groups.Request)
  | listMessages (user : JwtPayload) (groupId : GroupId)
  | sendMessage (user : JwtPayload) (groupId : GroupId) (dto : SendCommunityMessageDto)
  /-- A socket connects. -/
  | connexion
  /-- The answer of `authenticate`. -/
  | authentification (client : Nat) (reponse : Option JwtPayload)
  | join (client : Nat) (groupId : GroupId)
  | send (client : Nat) (groupId : GroupId) (payload : SendCommunityMessagePayload)
  /-- A socket is closed. -/
  | deconnexion (client : Nat)

/-- The handler of a request, without the value that it returns. -/
def handler : Request → LiveReq Unit
  | .groups q => Prog.left (ofGroups (Groups.handler q))
  | .listMessages user groupId => Prog.left (CommunityService.listMessages groupId user).void
  | .sendMessage user groupId dto => (CommunityController.sendMessage user groupId dto).void
  | .connexion => (Gateway.await .connect).void
  | .authentification client reponse => Gateway.await (.answer client reponse)
  | .join client groupId => CommunityGateway.handleJoin client groupId
  | .send client groupId payload => (CommunityGateway.handleSend client groupId payload).void
  | .deconnexion client => Gateway.await (.disconnect client)

/-- The requests run at once, from the store `x`. -/
def poolOf {ι : Type} (requests : ι → Request) (x : LiveStore) : Pool liveSig ι LiveStore Erreur Unit :=
  ⟨fun t => handler (requests t), x⟩

end OumraHajj.Community
