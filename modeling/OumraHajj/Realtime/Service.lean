import OumraHajj.Auth.Crypto
import OumraHajj.Common.JsSet

/-!
# The sessions of the sockets

`RealtimeSessionsService` (`src/modules/realtime/realtime-sessions.service.ts`) and
`MessagingGateway.handleConnection` (`src/modules/messaging/messaging.gateway.ts`; `CommunityGateway` has the
same one). The sets, the timers and the sockets are objects that closures capture, so each has a reference:
its place in a table of the state.

`handleConnection` waits for `WsJwtAuthGuard.authenticate`, whose answer is any one: the rest of it runs in a
later event. An event runs to its end before the next one: a socket connects, an authentication is answered, a
socket is disconnected from the other side, a timer fires, or a user logs out (`disconnectUser`).
-/

namespace OumraHajj.Realtime

open Async Auth

abbrev SocketId := Nat
abbrev SetRef := Nat
abbrev TimerId := Nat

/-- What the listener of `disconnect` captures. -/
structure Ecouteur where
  minuterie : TimerId
  sockets : SetRef
  userId : UserId
  deriving DecidableEq

/-- `setTimeout(() => client.disconnect(true), delai)`. -/
structure Minuterie where
  client : SocketId
  delai : Nat
  deriving DecidableEq

structure Socket where
  connected : Bool := true
  /-- `client.data.user`. -/
  user : Option JwtPayload := none
  /-- `once('disconnect')`. -/
  ecouteurs : List Ecouteur := []
  /-- `handleConnection` waits for the authentication. -/
  enAttente : Bool := true
  deriving DecidableEq

structure Etat where
  clients : Table Socket := []
  /-- A timer that has fired, or that is cleared, is `none`. -/
  minuteries : Table (Option Minuterie) := []
  ensembles : Table (JsSet SocketId) := []
  /-- `RealtimeSessionsService.parUtilisateur`. -/
  parUtilisateur : UserId → Option SetRef := fun _ => none

namespace Etat

/-- The set of a reference. -/
def ensemble (s : Etat) (sockets : SetRef) : JsSet SocketId := (s.ensembles[sockets]?).getD ∅

/-- `sockets.add(client)`. -/
def add (sockets : SetRef) (client : SocketId) (s : Etat) : Etat :=
  { s with ensembles := s.ensembles.set sockets ((s.ensemble sockets).add client) }

/-- `sockets.delete(client)`. -/
def delete (sockets : SetRef) (client : SocketId) (s : Etat) : Etat :=
  { s with ensembles := s.ensembles.set sockets ((s.ensemble sockets).delete client) }

def connected (s : Etat) (client : SocketId) : Bool := (s.clients[client]?).any (·.connected)

end Etat

def clearTimeout (minuterie : TimerId) (s : Etat) : Etat :=
  { s with minuteries := s.minuteries.set minuterie none }

namespace RealtimeSessionsService

/-- The listener of `disconnect`. -/
def onDisconnect (client : SocketId) (s : Etat) (e : Ecouteur) : Etat :=
  let s := (clearTimeout e.minuterie s).delete e.sockets client
  if (s.ensemble e.sockets).size = 0 then
    { s with parUtilisateur := Function.update s.parUtilisateur e.userId none }
  else s

end RealtimeSessionsService

/-- The socket is closed, and its listeners are taken: they are called once. -/
def fermer (client : SocketId) (socket : Socket) (s : Etat) : Etat :=
  { s with clients := s.clients.set client { socket with connected := false, ecouteurs := [] } }

/-- `client.disconnect(true)`: nothing happens if the socket is closed. -/
def disconnect (client : SocketId) (s : Etat) : Etat :=
  match s.clients[client]? with
  | some socket =>
    if socket.connected then
      socket.ecouteurs.foldl (RealtimeSessionsService.onDisconnect client) (fermer client socket s)
    else s
  | none => s

namespace RealtimeSessionsService

/-- The set of a user, or a new one. -/
def socketsDe (userId : UserId) (s : Etat) : SetRef × Etat :=
  match s.parUtilisateur userId with
  | some sockets => (sockets, s)
  | none => (s.ensembles.length, { s with ensembles := s.ensembles ++ [∅] })

/-- `client.once('disconnect', …)`. -/
def once (client : SocketId) (e : Ecouteur) (s : Etat) : Etat :=
  match s.clients[client]? with
  | some socket =>
    { s with clients := s.clients.set client { socket with ecouteurs := socket.ecouteurs ++ [e] } }
  | none => s

section Config

variable (sessionMaxMinutes : Nat)

def register (client : SocketId) (userId : UserId) (s : Etat) : Etat :=
  let (sockets, s) := socketsDe userId s
  let s := s.add sockets client
  let s := { s with parUtilisateur := Function.update s.parUtilisateur userId (some sockets) }
  let minuterie := s.minuteries.length
  let s := { s with minuteries := s.minuteries ++ [some ⟨client, sessionMaxMinutes * 60000⟩] }
  once client ⟨minuterie, sockets, userId⟩ s

end Config

/-- The set is read at every turn: the listeners delete from it on the way. -/
def disconnectUser (userId : UserId) (s : Etat) : Etat :=
  match s.parUtilisateur userId with
  | some sockets =>
    JsSet.forOf (·.ensemble sockets) disconnect (s.ensemble sockets).slots.length s
  | none => s

end RealtimeSessionsService

/-- The handshake fails. -/
def refuser (client : SocketId) (socket : Socket) (s : Etat) : Etat :=
  { s with clients := s.clients.set client { socket with enAttente := false } }

/-- The handshake succeeds: `client.data.user = user`. -/
def accepter (client : SocketId) (socket : Socket) (user : JwtPayload) (s : Etat) : Etat :=
  { s with clients := s.clients.set client { socket with enAttente := false, user := some user } }

namespace MessagingGateway

/-- A socket connects: the first part of `handleConnection`. -/
def connexion (s : Etat) : Etat := { s with clients := s.clients ++ [{}] }

/-- The rest of it, with the answer of `authenticate`. -/
def authentification (sessionMaxMinutes : Nat) (client : SocketId) (reponse : Except Erreur JwtPayload)
    (s : Etat) : Etat :=
  match s.clients[client]? with
  | some socket =>
    if socket.enAttente then
      match reponse with
      | .ok user =>
        RealtimeSessionsService.register sessionMaxMinutes client user.sub (accepter client socket user s)
      | .error _ => disconnect client (refuser client socket s)
    else s
  | none => s

end MessagingGateway

/-- The timer fires: its callback runs, and it is over. -/
def expiration (minuterie : TimerId) (s : Etat) : Etat :=
  match s.minuteries[minuterie]? with
  | some (some m) => clearTimeout minuterie (disconnect m.client s)
  | _ => s

/-! ## Events -/

inductive Evenement where
  | connexion
  | authentification (client : SocketId) (reponse : Except Erreur JwtPayload)
  | deconnexion (client : SocketId)
  | expiration (minuterie : TimerId)
  | logout (userId : UserId)

/-- What an event does; nothing happens where it cannot occur. -/
def etape (sessionMaxMinutes : Nat) (s : Etat) : Evenement → Etat
  | .connexion => MessagingGateway.connexion s
  | .authentification client reponse =>
    MessagingGateway.authentification sessionMaxMinutes client reponse s
  | .deconnexion client => disconnect client s
  | .expiration minuterie => expiration minuterie s
  | .logout userId => RealtimeSessionsService.disconnectUser userId s

/-- The state after a run. -/
def suite (sessionMaxMinutes : Nat) (evenements : List Evenement) : Etat :=
  evenements.foldl (etape sessionMaxMinutes) {}

end OumraHajj.Realtime
