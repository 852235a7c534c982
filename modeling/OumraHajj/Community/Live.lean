import OumraHajj.Community.Service
import OumraHajj.Groups.Attaches

/-!
# The community is private, and its messages arrive

`Accede s user id`: the user is an administrator, a member of the group, a guide of its agency or its owner.
What `findAuthorizedOrFail` has read stays true, so whatever requests run at once a socket is in the room of a
group, and was sent a message, only if its user has access to it (`community_private`). A message that is stored
is emitted once: a socket that was in the room before, and stays connected, was sent it once all requests have
ended (`community_delivered`).
-/

namespace OumraHajj.Community

open Async Auth Groups

/-- The user has access to the group (module doc). -/
def Accede (s : Groups.Store) (user : JwtPayload) (id : GroupId) : Prop :=
  ∃ a, s.agenceDe id = some a ∧ (user.role = .admin ∨ ⟨id, user.sub⟩ ∈ s.groupMembers ∨
    s.GuideDe user.sub a ∨ (user.role = .agency ∧ ∃ row, s.app.agencyOf user.sub = some (a, row)))

theorem Accede.constant {s s' : Groups.Store} (h : Constant s s') {user : JwtPayload} {id : GroupId}
    (hu : Accede s user id) : Accede s' user id := by
  obtain ⟨a, ha, hadmin | hmember | hguide | ⟨hrole, row, hrow⟩⟩ := hu
  · exact ⟨a, h.agenceDe ha, .inl hadmin⟩
  · exact ⟨a, h.agenceDe ha, .inr (.inl (h.members hmember))⟩
  · exact ⟨a, h.agenceDe ha, .inr (.inr (.inl (h.guideDe hguide)))⟩
  · exact ⟨a, h.agenceDe ha, .inr (.inr (.inr ⟨hrole, row, h.agencyOf hrow⟩))⟩

/-- Whoever gets the group has access to it. -/
theorem authorized_keeps (user : JwtPayload) (id : GroupId) (s : Groups.Store) :
    Groups.Maintient (GroupsService.findAuthorizedOrFail user.sub user.role id) s fun r s' =>
      Constant s s' ∧ ∀ group, r = .ok group → Accede s' user id := by
  refine .seq (find_keeps id) ?_ fun x s' hle => ⟨hle, by rintro group ⟨⟩⟩
  intro group s₁ hle₁ hlu
  split
  · next hadmin => exact ⟨hle₁, fun _ _ => ⟨_, hlu.agence, .inl hadmin⟩⟩
  split
  · next hin =>
    refine ⟨hle₁, fun _ _ => ⟨_, hlu.agence, ?_⟩⟩
    rcases hin with hmember | hguide
    · exact .inr (.inl (hlu.members _ hmember))
    · exact .inr (.inr (.inl (hlu.guide _ hguide)))
  split
  · next hrole =>
    refine .seq (Groups.owner_keeps user.sub) ?_ fun x s' hle => ⟨hle₁.trans hle, by rintro group ⟨⟩⟩
    rintro agency s₂ hle₂ ⟨row, hrow⟩
    split
    · next hagency =>
      refine ⟨hle₁.trans hle₂, fun _ _ => ⟨_, hle₂.agenceDe hlu.agence, .inr (.inr (.inr ⟨hrole, row, ?_⟩))⟩⟩
      rw [hrow, hagency]
    · exact ⟨hle₁.trans hle₂, by rintro group ⟨⟩⟩
  · exact ⟨hle₁, by rintro group ⟨⟩⟩

/-! ## The service -/

/-- Messages stay, and what stays of the groups. -/
structure Fil (s s' : Store) : Prop where
  groups : Constant s.groups s'.groups
  messages : s.communityMessages <+: s'.communityMessages

theorem Fil.refl (s : Store) : Fil s s := ⟨.refl _, List.prefix_rfl⟩

theorem Fil.trans {s s₁ s' : Store} (h : Fil s s₁) (h' : Fil s₁ s') : Fil s s' :=
  ⟨h.groups.trans h'.groups, h.messages.trans h'.messages⟩

def filRely : Rely Store where
  inv s := Attaches s.groups
  le := Fil
  refl := Fil.refl
  trans _ _ _ := Fil.trans

/-- The message is stored in the group, with the name of its sender. -/
structure Enregistre (s : Store) (id : GroupId) (message : CommunityMessageShape) : Prop where
  group : message.groupId = id
  row : s.communityMessages[message.id]? =
    some ⟨id, message.senderId, message.content, message.clientSentAt, message.createdAt⟩
  name : (s.groups.app.users[message.senderId]?).map (·.fullName) = some message.senderName

theorem Enregistre.fil {s s' : Store} (h : Fil s s') {id : GroupId} {message : CommunityMessageShape}
    (hm : Enregistre s id message) : Enregistre s' id message := by
  refine ⟨hm.group, get_of_grown h.messages hm.row, ?_⟩
  obtain ⟨u, hu, hname⟩ := Option.map_eq_some_iff.mp hm.name
  rw [get_of_grown h.groups.users hu, Option.map_some, hname]

section Handlers

variable {s : Store}

/-- The handler keeps the invariant, whatever its statements are answered. -/
abbrev Conserve {α : Type} (p : Req α) (s : Store) (Q : Except Erreur α → Store → Prop) : Prop :=
  filRely.Keeps backend (fun _ _ _ => True) p s Q

/-- A handler of the groups. -/
theorem groups_conserve {α : Type} {p : Groups.Req α} {Q : Except Erreur α → Groups.Store → Prop}
    (h : Groups.Maintient p s.groups Q) :
    Conserve (ofGroups p) s fun r s' => Fil s s' ∧ Q r s'.groups := by
  have hB : Backend.Extends (fun _ => True) Groups.backend backend Store.groups id := fun _ _ _ _ => rfl
  refine Rely.Keeps.extend hB (fun _ _ _ _ => trivial) (fun _ hi => hi) ?_ ?_ (Prog.uses_true p) h
  · exact fun _ _ hle => hle.groups
  · exact fun _ _ _ _ hattaches hconstant => ⟨hattaches, hconstant, List.prefix_rfl⟩

theorem access_conserve (id : GroupId) (user : JwtPayload) :
    Conserve (CommunityService.assertAccessToGroup id user) s fun r s' => Fil s s' ∧
      ∀ u : Unit, r = .ok u → Accede s'.groups user id := by
  refine .bind ((groups_conserve (authorized_keeps user id s.groups)).mono ?_)
  rintro (x | group) s' ⟨hle, -, haccess⟩
  · exact ⟨hle, by rintro u ⟨⟩⟩
  · exact ⟨hle, fun _ _ => haccess group rfl⟩

/-- A message is stored, with the name of its sender, or not at all. -/
theorem message_exec (groupId : GroupId) (senderId : UserId) (content : String) (clientSentAt : Time)
    (e : Env) (s : Store) :
    (∃ sender, s.groups.app.users[senderId]? = some sender ∧
      exec (.communityMessageCreate groupId senderId content clientSentAt) e s =
        (.ok (s.communityMessages.length, ⟨groupId, senderId, content, clientSentAt, e.now⟩, sender.fullName),
          { s with
            communityMessages :=
              s.communityMessages ++ [⟨groupId, senderId, content, clientSentAt, e.now⟩] })) ∨
      exec (.communityMessageCreate groupId senderId content clientSentAt) e s = (.error "P2003", s) := by
  simp only [exec]
  split
  · next sender _ hsender => exact .inl ⟨_, hsender, rfl⟩
  · exact .inr rfl

theorem sendMessage_conserve (id : GroupId) (user : JwtPayload) (dto : SendCommunityMessagePayload) :
    Conserve (CommunityService.sendMessage id user dto) s fun r s' => Fil s s' ∧
      ∀ message, r = .ok message → Enregistre s' id message := by
  refine .seq (access_conserve id user) ?_ fun x s' hle => ⟨hle, by rintro m ⟨⟩⟩
  rintro _ s₁ hle₁ - s₂ e hi hle₂ -
  have hs₂ : Fil s s₂ := hle₁.trans hle₂
  rcases message_exec id user.sub dto.content dto.clientSentAt e s₂ with ⟨sender, hsender, h⟩ | h
  · have hexec : backend.exec (.inr (.communityMessageCreate id user.sub dto.content dto.clientSentAt))
        e s₂ = _ := h
    rw [hexec]
    have hle : Fil s₂ { s₂ with communityMessages := s₂.communityMessages ++
        [⟨id, user.sub, dto.content, dto.clientSentAt, e.now⟩] } := ⟨.refl _, List.prefix_append _ _⟩
    refine ⟨hi, hle, hs₂.trans hle, ?_⟩
    rintro _ ⟨⟩
    refine ⟨rfl, ?_, congrArg (Option.map (·.fullName)) hsender⟩
    show (s₂.communityMessages ++ [_])[s₂.communityMessages.length]? = _
    rw [Table.get_append, if_pos rfl]
    rfl
  · have hexec : backend.exec (.inr (.communityMessageCreate id user.sub dto.content dto.clientSentAt))
        e s₂ = _ := h
    rw [hexec]
    exact ⟨hi, .refl s₂, hs₂, by rintro m ⟨⟩⟩

theorem listMessages_conserve (id : GroupId) (user : JwtPayload) :
    Conserve (CommunityService.listMessages id user) s fun _ s' => Fil s s' := by
  refine .seq (access_conserve id user) ?_ fun _ _ hle => hle
  rintro _ s₁ hle₁ - s₂ e hi hle₂ -
  exact ⟨hi, .refl s₂, hle₁.trans hle₂⟩

end Handlers

/-! ## Privacy -/

/-- The handler keeps the rooms private, whatever its statements are answered. -/
abbrev Protege {α : Type} (p : LiveReq α) (x : LiveStore) : Prop :=
  Gateway.Keeps filRely (fun s user id => Accede s.groups user id) Enregistre backend p x fun _ _ => True

theorem accede_stable :
    Gateway.Stable filRely (fun s user id => Accede s.groups user id) Enregistre where
  access _ _ _ _ h := Accede.constant h.groups
  created _ _ _ _ h := Enregistre.fil h

theorem handler_protege (q : Request) (x : LiveStore) : Protege (handler q) x := by
  cases q with
  | groups q =>
    exact (Gateway.left_keeps accede_stable (groups_conserve (attaches_keeps q x.1.groups))).mono
      fun _ _ _ => trivial
  | listMessages user groupId =>
    have hlist : Conserve (CommunityService.listMessages groupId user) x.1 fun _ _ => True :=
      (listMessages_conserve groupId user).mono fun _ _ _ => trivial
    exact (Gateway.left_keeps accede_stable hlist.void).mono fun _ _ _ => trivial
  | sendMessage user groupId dto =>
    refine .void (Gateway.post_keeps accede_stable ?_)
    refine (sendMessage_conserve groupId user _).mono ?_
    rintro r s' ⟨-, h⟩ message rfl
    have hm := h message rfl
    exact hm.group.symm ▸ hm
  | connexion =>
    exact Gateway.socket_keeps (c := .connect) rfl (fun _ _ => trivial) fun _ => ()
  | authentification client reponse =>
    exact Gateway.socket_keeps (c := .answer client reponse) rfl (fun _ _ => trivial) fun _ => ()
  | join client groupId =>
    rw [handler, CommunityGateway.handleJoin]
    refine Gateway.join_keeps accede_stable sansUtilisateur fun user s => ?_
    exact (access_conserve groupId user).mono fun _ _ h => h.2
  | send client groupId payload =>
    refine .void (Gateway.send_keeps accede_stable sansUtilisateur fun user s => ?_)
    exact (sendMessage_conserve groupId user payload).mono fun _ _ h => h.2
  | deconnexion client =>
    exact Gateway.socket_keeps (c := .disconnect client) rfl (fun _ _ => trivial) fun _ => ()

theorem prive_reach {ι : Type} [DecidableEq ι] {requests : ι → Request} {s : Store}
    {c : Pool liveSig ι LiveStore Erreur Unit} (hs : Attaches s.groups)
    (hr : Pool.Reach liveBackend Pool.anyStep (poolOf requests (s, {})) c) :
    Gateway.Inv filRely (fun s user id => Accede s.groups user id) Enregistre c.st ∧ Fil s c.st.1 := by
  have hr' : Pool.Reach liveBackend (Rely.cond fun _ _ _ => True) (poolOf requests (s, {})) c :=
    hr.mono fun _ _ _ _ _ _ _ => trivial
  have h₀ : Gateway.Inv filRely (fun s (user : JwtPayload) id => Accede s.groups user id) Enregistre
      (poolOf requests (s, {})).st := ⟨hs, by rintro c ⟨⟩, by rintro y ⟨⟩⟩
  obtain ⟨hinv, hle, -⟩ := Rely.reach (D := Gateway.rely filRely
    (fun s (user : JwtPayload) id => Accede s.groups user id) Enregistre)
    h₀ (fun t => handler_protege (requests t) _) hr'
  exact ⟨hinv, hle⟩

/-- **The community is private.** Whatever requests run at once, a socket is in the room of a group only if its
user is an administrator, a member of the group, a guide of its agency or its owner; it was sent a message only
if its user has access to the group, and the message is stored there under the name of its sender. -/
theorem community_private {ι : Type} [DecidableEq ι] (requests : ι → Request) {s : Store}
    (hs : Attaches s.groups) {c : Pool liveSig ι LiveStore Erreur Unit}
    (hr : Pool.Reach liveBackend Pool.anyStep (poolOf requests (s, {})) c) :
    ∀ client ∈ c.st.2.clients,
      (∀ id ∈ client.rooms, ∃ user, client.user = some user ∧ Accede c.st.1.groups user id) ∧
        ∀ x ∈ client.received, (∃ user, client.user = some user ∧ Accede c.st.1.groups user x.1) ∧
          Enregistre c.st.1 x.1 x.2 := by
  obtain ⟨hinv, -⟩ := prive_reach hs hr
  intro client hclient
  have hp := hinv.rooms client hclient
  exact ⟨hp.rooms, fun x hx => ⟨hp.received x hx, hinv.emitted x (hp.sublist.subset hx)⟩⟩

/-- A group with its member. -/
private def groupeOuvert : Store where
  groups :=
    { app := Db.exemple
      groups := [{ packageId := 0, agencyId := 0, title := "Groupe" }]
      groupMembers := [⟨0, 0⟩] }

private theorem groupeOuvert_attaches : Attaches groupeOuvert.groups := by
  refine ⟨?_, ?_⟩
  · rintro g hg u hu
    obtain rfl := List.mem_singleton.mp hg
    cases hu
  · rintro b ⟨⟩

private theorem paix_length : 1 ≤ "Paix".length := by decide

/-- The member and another user connect and join; then the owner writes. -/
private def reunion : Fin 7 → Request
  | 0 => .connexion
  | 1 => .connexion
  | 2 => .authentification 0 (some { sub := 0, role := .pilgrim })
  | 3 => .authentification 1 (some { sub := 2, role := .pilgrim })
  | 4 => .join 0 0
  | 5 => .join 1 0
  | 6 => .sendMessage { sub := 1, role := .agency } 0 ⟨⟨"Paix", 0⟩, paix_length⟩

/-- Both have asked to join. -/
private def avantEnvoi : Pool liveSig (Fin 7) LiveStore Erreur Unit :=
  Pool.run liveBackend (turns ([0, 1, 2, 3] ++ (List.replicate 3 [4, 5]).flatten))
    (poolOf reunion (groupeOuvert, {}))

/-- The message is sent. -/
private def apresEnvoi : Pool liveSig (Fin 7) LiveStore Erreur Unit :=
  Pool.run liveBackend (turns (List.replicate 4 6)) avantEnvoi

/-- The member is sent the message, the other user is not. -/
theorem community_private_reunion :
    apresEnvoi.st.2.clients.map (fun client => client.received.length) = [1, 0] ∧
      ∀ client ∈ apresEnvoi.st.2.clients,
        (∀ id ∈ client.rooms, ∃ user, client.user = some user ∧ Accede apresEnvoi.st.1.groups user id) ∧
          ∀ x ∈ client.received,
            (∃ user, client.user = some user ∧ Accede apresEnvoi.st.1.groups user x.1) ∧
              Enregistre apresEnvoi.st.1 x.1 x.2 :=
  ⟨by decide +kernel, community_private reunion groupeOuvert_attaches (.run (.run .refl _) _)⟩

/-! ## Delivery -/

section Delivery

/-- The statement stores no message. -/
def SansMessage (c : sig.Stmt) : Prop :=
  ∀ e s, (backend.exec c e s).2.communityMessages.length = s.communityMessages.length

theorem groups_sansMessage {α : Type} (p : Groups.Req α) : (ofGroups p).Uses SansMessage :=
  Prog.uses_left (fun _ _ _ => rfl) p

theorem access_sansMessage (id : GroupId) (user : JwtPayload) :
    (CommunityService.assertAccessToGroup id user).Uses SansMessage :=
  (groups_sansMessage _).bind fun _ => trivial

variable {ι : Type} [DecidableEq ι] {n₀ : Nat} {t : ι} {ok : Pool.Cond liveSig ι LiveStore Env}

/-- The handler emits each message that it stores, and ends with `Q`. -/
abbrev Emet {α : Type} (n₀ : Nat) (ok : Pool.Cond liveSig ι LiveStore Env) (t : ι) (p : LiveReq α)
    (Q : Except Erreur α → Option Nat → Prop) (g : Option Nat) : Prop :=
  Gateway.Safe (fun s : Store => s.communityMessages.length) CommunityMessageShape.id n₀ backend ok t p Q g

theorem sendMessage_emet (id : GroupId) (user : JwtPayload) (dto : SendCommunityMessagePayload) :
    Emet n₀ ok t (Prog.left (CommunityService.sendMessage id user dto))
      (Gateway.Ends CommunityMessageShape.id) none := by
  refine Gateway.left_seq (access_sansMessage id user) (fun _ => ?_) fun _ => rfl
  refine Gateway.left_create fun e s => ?_
  rcases message_exec id user.sub dto.content dto.clientSentAt e s with ⟨sender, -, h⟩ | h
  · have hexec : backend.exec (.inr (.communityMessageCreate id user.sub dto.content dto.clientSentAt))
        e s = _ := h
    rw [hexec]
    exact .inr ⟨List.length_append, rfl⟩
  · have hexec : backend.exec (.inr (.communityMessageCreate id user.sub dto.content dto.clientSentAt))
        e s = _ := h
    rw [hexec]
    exact .inl ⟨rfl, rfl⟩

theorem handler_emet (q : Request) : Emet n₀ ok t (handler q) (fun _ g => g = none) none := by
  cases q with
  | groups q =>
    exact Proto.safe_neutral (Gateway.left_neutral (groups_sansMessage _)) fun _ => rfl
  | listMessages user groupId =>
    refine Proto.safe_neutral (Gateway.left_neutral (Prog.Uses.void ?_)) fun _ => rfl
    exact (access_sansMessage groupId user).bind fun _ => ⟨fun _ _ => rfl, fun _ => trivial⟩
  | sendMessage user groupId dto =>
    exact Gateway.void_safe (Gateway.post_safe (sendMessage_emet groupId user _))
  | connexion => exact Gateway.void_safe (Gateway.step_safe (c := .connect) rfl)
  | authentification client reponse => exact Gateway.step_safe (c := .answer client reponse) rfl
  | join client groupId =>
    rw [handler, CommunityGateway.handleJoin]
    exact Proto.safe_neutral (Gateway.join_neutral sansUtilisateur fun user =>
      access_sansMessage groupId user) fun _ => rfl
  | send client groupId payload =>
    exact Gateway.void_safe (Gateway.send_safe sansUtilisateur fun user => sendMessage_emet groupId user payload)
  | deconnexion client => exact Gateway.step_safe (c := .disconnect client) rfl

end Delivery

/-- **The messages of a group arrive.** A message that is stored after the pool `c₁` is sent to no socket twice;
once all requests have ended, it was sent, after what had been sent before, to every socket that was in the room
of its group in `c₁` and is connected still. -/
theorem community_delivered {ι : Type} [DecidableEq ι] (requests : ι → Request) {s : Store}
    (hs : Attaches s.groups) {c₁ c₂ : Pool liveSig ι LiveStore Erreur Unit}
    (hr₁ : Pool.Reach liveBackend Pool.anyStep (poolOf requests (s, {})) c₁)
    (hr₂ : Pool.Reach liveBackend Pool.anyStep c₁ c₂) (hfin : c₂.Finished) {n : Nat} {m : CommunityMessage}
    (hn : c₁.st.1.communityMessages.length ≤ n) (hm : c₂.st.1.communityMessages[n]? = some m) :
    (∀ client ∈ c₂.st.2.clients, (client.received.map fun x => x.2.id).count n ≤ 1) ∧
      ∀ (k : Nat) (client client' : Gateway.Client JwtPayload GroupId CommunityMessageShape),
        c₁.st.2.clients[k]? = some client → m.groupId ∈ client.rooms →
        c₂.st.2.clients[k]? = some client' → client'.connected = true →
        ∃ l : List CommunityMessageShape, Gateway.ofRoom m.groupId client'.received =
          Gateway.ofRoom m.groupId client.received ++ l ∧ (l.map (·.id)).count n = 1 := by
  obtain ⟨-, hfil₁⟩ := prive_reach hs hr₁
  obtain ⟨hinv, -⟩ := prive_reach hs (hr₁.trans hr₂)
  obtain ⟨honce, hreached⟩ := Gateway.delivered (by rintro y ⟨⟩) (fun t => handler_emet (requests t)) hr₁ hr₂
    (fun client hclient => (hinv.rooms client hclient).sublist) hfin
    (hfil₁.messages.length_le.trans hn) hn (List.getElem?_eq_some_iff.mp hm).1
  refine ⟨honce, fun k client client' hget hroom hget' hconn => ?_⟩
  refine hreached k client client' m.groupId (fun y hy hkey => ?_) hget hroom hget' hconn
  -- what was emitted under this number is the message
  have hrow := (hinv.emitted y hy).row
  rw [hkey, hm] at hrow
  exact (congrArg CommunityMessage.groupId (Option.some.inj hrow)).symm

/-- The socket of the member is in the room when the message is sent. -/
theorem community_delivered_reunion :
    ∃ client ∈ avantEnvoi.st.2.clients[0]?, ∃ client' ∈ apresEnvoi.st.2.clients[0]?, ∃ l,
      Gateway.ofRoom 0 client'.received = Gateway.ofRoom 0 client.received ++ l ∧
        (l.map CommunityMessageShape.id).count 0 = 1 := by
  have hfin : apresEnvoi.Finished := by decide +kernel
  have hm : apresEnvoi.st.1.communityMessages[0]? = some ⟨0, 1, "Paix", 0, 0⟩ := by decide +kernel
  obtain ⟨client, hc⟩ := Option.isSome_iff_exists.mp
    (show (avantEnvoi.st.2.clients[0]?).isSome = true by decide +kernel)
  have hrooms : (avantEnvoi.st.2.clients[0]?).map (·.rooms) = some [0] := by decide +kernel
  obtain ⟨client', hc'⟩ := Option.isSome_iff_exists.mp
    (show (apresEnvoi.st.2.clients[0]?).isSome = true by decide +kernel)
  have hconn : (apresEnvoi.st.2.clients[0]?).map (·.connected) = some true := by decide +kernel
  rw [hc] at hrooms
  rw [hc'] at hconn
  have hr : Pool.Reach liveBackend Pool.anyStep avantEnvoi apresEnvoi := .run .refl _
  have h := (community_delivered reunion groupeOuvert_attaches (.run .refl _) hr hfin (by decide +kernel) hm).2
  refine ⟨client, hc, client', hc', h 0 client client' hc ?_ hc' (Option.some.inj hconn)⟩
  have hrooms : client.rooms = [0] := Option.some.inj hrooms
  rw [hrooms]
  exact List.mem_singleton_self 0

end OumraHajj.Community
