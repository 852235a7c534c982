import OumraHajj.Messaging.Access

/-!
# Conversations are private, and messages arrive

Whatever requests run at once, a socket is in the room of a conversation, and was sent a message, only if its
user opens the conversation, and it was sent what is stored (`conversations_private`). A message that is stored
is emitted once: a socket that was in the room before it was stored, and stays connected, was sent it once all
requests have ended (`messages_delivered`).
-/

namespace OumraHajj.Messaging

open Async Groups

/-! ## Privacy -/

/-- What holds of the messaging and its sockets. -/
abbrev Prive (x : LiveStore) : Prop :=
  Gateway.Inv filRelyOuvre (fun s user id => Ouvre s user.sub id) Enregistre x

/-- The handler keeps it, whatever its statements are answered. -/
abbrev Protege {α : Type} (p : LiveReq α) (x : LiveStore) : Prop :=
  Gateway.Keeps filRelyOuvre (fun s user id => Ouvre s user.sub id) Enregistre backend p x fun _ _ => True

theorem ouvre_stable : Gateway.Stable (U := Auth.JwtPayload) filRelyOuvre
    (fun s user id => Ouvre s user.sub id) Enregistre where
  access _ _ _ _ h := Ouvre.fil h
  created _ _ _ _ h := Enregistre.fil h

theorem live_protege (q : LiveRequest) (x : LiveStore) : Protege (liveHandler q) x := by
  have hservice : ∀ q : Request, Protege (Prog.left (handler q)) x := fun q =>
    (Gateway.left_keeps ouvre_stable (ecrits_conserve q x.1)).mono fun _ _ _ => trivial
  cases q with
  | service q =>
    cases q with
    | sendMessage conversationId senderId dto =>
      refine .void (Gateway.post_keeps ouvre_stable ?_)
      rw [MessagingService.sendMessage_eq]
      refine (envoyer_conserve conversationId senderId _ _).mono ?_
      rintro r s' ⟨-, h⟩ message rfl
      have hm := h message rfl
      exact hm.1.symm ▸ hm
    | _ => exact hservice _
  | connexion =>
    exact Gateway.socket_keeps (c := .connect) rfl (fun _ _ => trivial) fun _ => ()
  | authentification client reponse =>
    exact Gateway.socket_keeps (c := .answer client reponse) rfl (fun _ _ => trivial) fun _ => ()
  | join client conversationId =>
    rw [liveHandler, MessagingGateway.handleJoin]
    refine Gateway.join_keeps ouvre_stable sansUtilisateur fun user s => ?_
    exact (access_conserve conversationId user.sub).mono fun _ _ h c hc => h.2 c hc
  | send client conversationId payload =>
    refine .void (Gateway.send_keeps ouvre_stable sansUtilisateur fun user s => ?_)
    exact (envoyer_conserve conversationId user.sub _ _).mono fun _ _ h => h.2
  | deconnexion client =>
    exact Gateway.socket_keeps (c := .disconnect client) rfl (fun _ _ => trivial) fun _ => ()

section Privacy

variable {ι : Type} [DecidableEq ι] {requests : ι → LiveRequest} {s : Store}
  {c : Pool liveSig ι LiveStore Erreur Unit}

theorem prive_reach (hs : Ecrits s)
    (hr : Pool.Reach liveBackend Pool.anyStep (livePool requests (s, {})) c) :
    Prive c.st ∧ Fil s c.st.1 := by
  have h₀ : Prive (livePool requests (s, {})).st := ⟨hs, by rintro c ⟨⟩, by rintro y ⟨⟩⟩
  have hr' : Pool.Reach liveBackend (Rely.cond fun _ _ _ => True) (livePool requests (s, {})) c :=
    hr.mono fun _ _ _ _ _ _ _ => trivial
  obtain ⟨hinv, hle, -⟩ := Rely.reach (D := Gateway.rely filRelyOuvre
    (fun s (user : Auth.JwtPayload) id => Ouvre s user.sub id) Enregistre) h₀
    (fun t => live_protege (requests t) _) hr'
  exact ⟨hinv, hle⟩

end Privacy

/-- **Conversations are private.** Whatever requests run at once, a socket is in the room of a conversation only
if its user is the pilgrim of the booking, the owner of its agency or, for the channel of the guide, a guide of
its agency; it was sent a message only if its user opens the conversation, and the message is stored there. -/
theorem conversations_private {ι : Type} [DecidableEq ι] (requests : ι → LiveRequest) {s : Store}
    (hs : Ecrits s) {c : Pool liveSig ι LiveStore Erreur Unit}
    (hr : Pool.Reach liveBackend Pool.anyStep (livePool requests (s, {})) c) :
    Ecrits c.st.1 ∧ ∀ client ∈ c.st.2.clients,
      (∀ id ∈ client.rooms, ∃ user, client.user = some user ∧ Ouvre c.st.1 user.sub id) ∧
        ∀ x ∈ client.received, (∃ user, client.user = some user ∧ Ouvre c.st.1 user.sub x.1) ∧
          Enregistre c.st.1 x.1 x.2 := by
  obtain ⟨hinv, -⟩ := prive_reach hs hr
  refine ⟨hinv.service, fun client hclient => ?_⟩
  have hp := hinv.rooms client hclient
  exact ⟨hp.rooms, fun x hx => ⟨hp.received x hx, hinv.emitted x (hp.sublist.subset hx)⟩⟩

/-- A conversation of the pilgrim with the agency. -/
private def filAgence : Store where
  groups := { app := { Db.exemple with bookings := [Booking.exemple] } }
  conversations := [{ bookingId := 0, channel := .agency, createdAt := 0 }]

private theorem filAgence_ecrits : Ecrits filAgence := by
  refine ⟨⟨?_, ?_⟩, ?_⟩
  · rintro g ⟨⟩
  · rintro b hb i hi
    obtain rfl := List.mem_singleton.mp hb
    cases hi
  · rintro m ⟨⟩

private theorem bonjour_length : 1 ≤ "Bonjour".length := by decide

/-- The pilgrim and another user connect and join; then the owner writes. -/
private def ecoute : Fin 7 → LiveRequest
  | 0 => .connexion
  | 1 => .connexion
  | 2 => .authentification 0 (some { sub := 0, role := .pilgrim })
  | 3 => .authentification 1 (some { sub := 2, role := .pilgrim })
  | 4 => .join 0 0
  | 5 => .join 1 0
  | 6 => .service (.sendMessage 0 1 ⟨"Bonjour", 0, bonjour_length⟩)

/-- Both have asked to join. -/
private def avantMessage : Pool liveSig (Fin 7) LiveStore Erreur Unit :=
  Pool.run liveBackend (turns ([0, 1, 2, 3] ++ (List.replicate 5 [4, 5]).flatten))
    (livePool ecoute (filAgence, {}))

/-- The message is sent. -/
private def apresMessage : Pool liveSig (Fin 7) LiveStore Erreur Unit :=
  Pool.run liveBackend (turns (List.replicate 7 6)) avantMessage

private theorem apres_reach :
    Pool.Reach liveBackend Pool.anyStep (livePool ecoute (filAgence, {})) apresMessage :=
  .run (.run .refl _) _

/-- The pilgrim is sent the message, the other user is not. -/
theorem conversations_private_ecoute :
    apresMessage.st.2.clients.map (fun client => client.received.length) = [1, 0] ∧
      Ecrits apresMessage.st.1 ∧ ∀ client ∈ apresMessage.st.2.clients,
        (∀ id ∈ client.rooms, ∃ user, client.user = some user ∧ Ouvre apresMessage.st.1 user.sub id) ∧
          ∀ x ∈ client.received,
            (∃ user, client.user = some user ∧ Ouvre apresMessage.st.1 user.sub x.1) ∧
              Enregistre apresMessage.st.1 x.1 x.2 :=
  ⟨by decide +kernel, conversations_private ecoute filAgence_ecrits apres_reach⟩

/-! ## Delivery -/

/-- The statement stores no message. -/
def SansMessage (c : sig.Stmt) : Prop :=
  ∀ e s, (backend.exec c e s).2.messages.length = s.messages.length

section Delivery

theorem sansMessage_groups (c : Groups.sig.Stmt) : SansMessage (.inl c) := fun _ _ => rfl

theorem sansMessage_own {c : Stmt} (hc : ∀ id u t d, c ≠ .messageCreate id u t d) :
    SansMessage (.inr c) := by
  intro e s
  cases c with
  | messageCreate id u t d => exact absurd rfl (hc id u t d)
  | conversationFindUnique id | conversationFindMany userId | messageFindMany id => rfl
  | conversationUpsert bookingId channel =>
    simp only [backend, exec]
    split
    · rfl
    · split <;> rfl
  | messageUpdateMany conversationId userId => exact List.length_map _

theorem groups_sansMessage {α : Type} (p : Groups.Req α) : (ofGroups p).Uses SansMessage :=
  Prog.uses_left sansMessage_groups p

theorem conversation_sansMessage (id : ConversationId) :
    (MessagingService.findConversationOrFail id).Uses SansMessage := by
  refine ⟨sansMessage_own (by rintro _ _ _ _ ⟨⟩), fun r => ?_⟩
  cases r <;> trivial

theorem participant_sansMessage (booking : BookingShape) (channel : MessagingChannel) (userId : UserId) :
    (MessagingService.assertParticipant booking channel userId).Uses SansMessage := by
  refine Prog.Uses.bind ?_ fun participants => ?_
  · cases channel with
    | agency => exact (groups_sansMessage _).bind fun _ => trivial
    | guide =>
      simp only [MessagingService.resolveParticipants]
      rcases booking.groupId with _ | groupId
      · trivial
      · refine (groups_sansMessage _).bind fun group => ?_
        rcases group.guideId with _ | guideId <;> trivial
  · split <;> trivial

theorem access_sansMessage (id : ConversationId) (userId : UserId) :
    (MessagingService.assertAccessToConversation id userId).Uses SansMessage :=
  (conversation_sansMessage id).bind fun c => (groups_sansMessage _).bind fun booking =>
    (participant_sansMessage booking c.channel userId).bind fun _ => trivial

/-- Every request but `sendMessage`. -/
theorem handler_sansMessage (q : Request) :
    (∃ conversationId senderId dto, q = .sendMessage conversationId senderId dto) ∨
      (handler q).Uses SansMessage := by
  cases q with
  | groups q => exact .inr (groups_sansMessage _)
  | getOrCreateConversation bookingId channel requesterId =>
    refine .inr (Prog.Uses.void ((groups_sansMessage _).bind fun booking =>
      (participant_sansMessage booking channel requesterId).bind fun _ =>
        ⟨sansMessage_own (by rintro _ _ _ _ ⟨⟩), fun r => ?_⟩))
    rcases r with code | ⟨id, conversation⟩ <;> trivial
  | joinConversation conversationId userId => exact .inr (access_sansMessage conversationId userId).void
  | listMessages conversationId requesterId =>
    exact .inr (Prog.Uses.void ((access_sansMessage conversationId requesterId).bind fun _ =>
      ⟨sansMessage_own (by rintro _ _ _ _ ⟨⟩), fun _ => trivial⟩))
  | sendMessage conversationId senderId dto => exact .inl ⟨_, _, _, rfl⟩
  | listInbox userId => exact .inr ⟨sansMessage_own (by rintro _ _ _ _ ⟨⟩), fun _ => trivial⟩
  | markAsRead conversationId userId =>
    exact .inr ((access_sansMessage conversationId userId).bind fun _ =>
      ⟨sansMessage_own (by rintro _ _ _ _ ⟨⟩), fun _ => trivial⟩)

variable {ι : Type} [DecidableEq ι] {n₀ : Nat} {t : ι} {ok : Pool.Cond liveSig ι LiveStore Env}

/-- The handler emits each message that it stores, and ends with `Q`. -/
abbrev Emet {α : Type} (n₀ : Nat) (ok : Pool.Cond liveSig ι LiveStore Env) (t : ι) (p : LiveReq α)
    (Q : Except Erreur α → Option Nat → Prop) (g : Option Nat) : Prop :=
  Gateway.Safe (fun s : Store => s.messages.length) MessageShape.id n₀ backend ok t p Q g

theorem envoyer_emet (id : ConversationId) (senderId : UserId) (content : String) (clientSentAt : Time) :
    Emet n₀ ok t (Prog.left (MessagingService.envoyer id senderId content clientSentAt))
      (Gateway.Ends MessageShape.id) none := by
  refine Gateway.left_seq (conversation_sansMessage id) (fun c => ?_) fun _ => rfl
  refine Gateway.left_seq (groups_sansMessage _) (fun booking => ?_) fun _ => rfl
  refine Gateway.left_seq (participant_sansMessage _ _ _) (fun participants => ?_) fun _ => rfl
  refine Gateway.left_create fun e s => ?_
  rcases message_exec id senderId content clientSentAt e s with h | h
  · have hexec : backend.exec (.inr (.messageCreate id senderId content clientSentAt)) e s = _ := h
    rw [hexec]
    refine .inr ⟨List.length_append, ?_⟩
    exact Gateway.left_call (sansMessage_groups _) fun _ => rfl
  · have hexec : backend.exec (.inr (.messageCreate id senderId content clientSentAt)) e s = _ := h
    rw [hexec]
    exact .inl ⟨rfl, rfl⟩

theorem live_emet (q : LiveRequest) : Emet n₀ ok t (liveHandler q) (fun _ g => g = none) none := by
  have hservice : ∀ q : Request, (handler q).Uses SansMessage →
      Emet n₀ ok t (Prog.left (handler q)) (fun _ g => g = none) none := fun q hq =>
    Proto.safe_neutral (Gateway.left_neutral hq) fun _ => rfl
  cases q with
  | service q =>
    cases q with
    | sendMessage conversationId senderId dto =>
      refine Gateway.void_safe (Gateway.post_safe ?_)
      rw [MessagingService.sendMessage_eq]
      exact envoyer_emet conversationId senderId _ _
    | _ => exact hservice _ ((handler_sansMessage _).resolve_left (by rintro ⟨_, _, _, ⟨⟩⟩))
  | connexion => exact Gateway.void_safe (Gateway.step_safe (c := .connect) rfl)
  | authentification client reponse => exact Gateway.step_safe (c := .answer client reponse) rfl
  | join client conversationId =>
    rw [liveHandler, MessagingGateway.handleJoin]
    exact Proto.safe_neutral (Gateway.join_neutral sansUtilisateur fun user =>
      access_sansMessage conversationId user.sub) fun _ => rfl
  | send client conversationId payload =>
    exact Gateway.void_safe (Gateway.send_safe sansUtilisateur fun user => envoyer_emet conversationId user.sub _ _)
  | deconnexion client => exact Gateway.step_safe (c := .disconnect client) rfl

end Delivery

/-- **Messages arrive.** A message that is stored after the pool `c₁` is sent to no socket twice; once all
requests have ended, it was sent, after what had been sent before, to every socket that was in the room of its
conversation in `c₁` and is connected still. -/
theorem messages_delivered {ι : Type} [DecidableEq ι] (requests : ι → LiveRequest) {s : Store}
    (hs : Ecrits s) {c₁ c₂ : Pool liveSig ι LiveStore Erreur Unit}
    (hr₁ : Pool.Reach liveBackend Pool.anyStep (livePool requests (s, {})) c₁)
    (hr₂ : Pool.Reach liveBackend Pool.anyStep c₁ c₂) (hfin : c₂.Finished) {n : Nat} {m : Message}
    (hn : c₁.st.1.messages.length ≤ n) (hm : c₂.st.1.messages[n]? = some m) :
    (∀ client ∈ c₂.st.2.clients, (client.received.map fun x => x.2.id).count n ≤ 1) ∧
      ∀ (k : Nat) (client client' : Gateway.Client Auth.JwtPayload ConversationId MessageShape),
        c₁.st.2.clients[k]? = some client → m.conversationId ∈ client.rooms →
        c₂.st.2.clients[k]? = some client' → client'.connected = true →
        ∃ l : List MessageShape, Gateway.ofRoom m.conversationId client'.received =
          Gateway.ofRoom m.conversationId client.received ++ l ∧ (l.map (·.id)).count n = 1 := by
  obtain ⟨-, hfil₁⟩ := prive_reach hs hr₁
  obtain ⟨hinv, -⟩ := prive_reach hs (hr₁.trans hr₂)
  have hle : s.messages.length ≤ c₁.st.1.messages.length := by
    simpa only [List.length_map] using hfil₁.messages.length_le
  obtain ⟨honce, hreached⟩ := Gateway.delivered (by rintro y ⟨⟩) (fun t => live_emet (requests t)) hr₁ hr₂
    (fun client hclient => (hinv.rooms client hclient).sublist) hfin (hle.trans hn) hn
    (List.getElem?_eq_some_iff.mp hm).1
  refine ⟨honce, fun k client client' hget hroom hget' hconn => ?_⟩
  refine hreached k client client' m.conversationId (fun y hy hkey => ?_) hget hroom hget' hconn
  -- what was emitted under this number is the message
  have hstored := (hinv.emitted y hy).2
  rw [hkey, hm] at hstored
  exact (congrArg Prod.fst (Option.some.inj hstored)).symm

/-- The socket of the pilgrim is in the room when the message is sent. -/
theorem messages_delivered_ecoute :
    ∃ client ∈ avantMessage.st.2.clients[0]?, ∃ client' ∈ apresMessage.st.2.clients[0]?, ∃ l,
      Gateway.ofRoom 0 client'.received = Gateway.ofRoom 0 client.received ++ l ∧
        (l.map MessageShape.id).count 0 = 1 := by
  have hfin : apresMessage.Finished := by decide +kernel
  obtain ⟨m, hm⟩ := Option.isSome_iff_exists.mp
    (show (apresMessage.st.1.messages[0]?).isSome = true by decide +kernel)
  have hconv : (apresMessage.st.1.messages[0]?).map (·.conversationId) = some 0 := by decide +kernel
  obtain ⟨client, hc⟩ := Option.isSome_iff_exists.mp
    (show (avantMessage.st.2.clients[0]?).isSome = true by decide +kernel)
  have hrooms : (avantMessage.st.2.clients[0]?).map (·.rooms) = some [0] := by decide +kernel
  obtain ⟨client', hc'⟩ := Option.isSome_iff_exists.mp
    (show (apresMessage.st.2.clients[0]?).isSome = true by decide +kernel)
  have hconn : (apresMessage.st.2.clients[0]?).map (·.connected) = some true := by decide +kernel
  rw [hm] at hconv
  rw [hc] at hrooms
  rw [hc'] at hconn
  have hr : Pool.Reach liveBackend Pool.anyStep avantMessage apresMessage := .run .refl _
  obtain ⟨-, h⟩ := messages_delivered ecoute filAgence_ecrits (.run .refl _) hr hfin (by decide +kernel) hm
  have hzero : m.conversationId = 0 := Option.some.inj hconv
  rw [hzero] at h
  refine ⟨client, hc, client', hc', h 0 client client' hc ?_ hc' (Option.some.inj hconn)⟩
  have hrooms : client.rooms = [0] := Option.some.inj hrooms
  rw [hrooms]
  exact List.mem_singleton_self 0

end OumraHajj.Messaging
