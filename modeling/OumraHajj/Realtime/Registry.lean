import OumraHajj.Realtime.Acceptance

/-!
# The registry is exact

`Exacte s`: the registry holds for each user the sockets that were accepted as theirs and are still connected,
and has no other entry. A socket may be closed while its authentication is pending. `register` does not look:
it adds the socket, whose `disconnect` has fired already, and nothing deletes it again (`Fantome`).
`registry_exact`: in every run the registry is exact as long as each handshake that succeeds finds its socket
connected (`Ponctuel`), and only then; whatever the run, `disconnectUser` closes the sockets of the user and
no other one.
-/

namespace OumraHajj.Realtime

open Async Auth RealtimeSessionsService

structure Exacte (s : Etat) : Prop where
  sockets : ∀ userId client,
    s.Inscrit userId client ↔ s.userDe client = some userId ∧ s.connected client = true
  entrees : ∀ userId, s.parUtilisateur userId ≠ none → ∃ client, s.Inscrit userId client

/-- The registry holds a socket that is closed. -/
def Fantome (s : Etat) : Prop := ∃ userId client, s.Inscrit userId client ∧ s.connected client = false

/-- After `disconnectUser`: the sockets of the user are closed, the others are left. -/
structure Ferme (userId : UserId) (s s' : Etat) : Prop where
  fermees : ∀ client, s.userDe client = some userId → s'.connected client = false
  autres : ∀ client, s.userDe client ≠ some userId → s'.clients[client]? = s.clients[client]?
  registre : ∀ userId' client, userId' ≠ userId → (s'.Inscrit userId' client ↔ s.Inscrit userId' client)

/-- A handshake that succeeds finds its socket connected. -/
def Ponctuel (s : Etat) : Evenement → Prop
  | .authentification client (.ok _) =>
    ∀ socket ∈ s.clients[client]?, socket.enAttente = true → socket.connected = true
  | _ => True

/-- Every event of a run is so. -/
def Ponctuels (sessionMaxMinutes : Nat) : Etat → List Evenement → Prop
  | _, [] => True
  | s, e :: evenements =>
    Ponctuel s e ∧ Ponctuels sessionMaxMinutes (etape sessionMaxMinutes s e) evenements

section Events

variable {delai : Nat} {s : Etat}

/-- A socket that is connected and accepted is in the registry. -/
theorem Coherent.inscrit_of_connected (hs : Coherent delai s) {userId : UserId} {client : SocketId}
    (huser : s.userDe client = some userId) (hc : s.connected client = true) : s.Inscrit userId client := by
  obtain ⟨socket, hget, hc⟩ := connected_eq_true.mp hc
  rw [userDe_of_get hget] at huser
  rcases hs.session client socket hget hc with ⟨hu, -⟩ | ⟨e, he⟩
  · rw [hu] at huser
    cases huser
  · rw [he.user] at huser
    obtain rfl := Option.some.inj huser
    exact ⟨e.sockets, he.entree, he.membre⟩

theorem Coherent.exacte_iff (hs : Coherent delai s) : Exacte s ↔ ¬ Fantome s := by
  constructor
  · rintro h ⟨userId, client, hinscrit, hclosed⟩
    rw [((h.sockets userId client).mp hinscrit).2] at hclosed
    cases hclosed
  · refine fun h => ⟨fun userId client => ⟨fun hd => ⟨hs.membre userId client hd, ?_⟩,
      fun hd => hs.inscrit_of_connected hd.1 hd.2⟩, fun userId hne => ?_⟩
    · exact (Bool.not_eq_false _).mp fun hclosed => h ⟨userId, client, hd, hclosed⟩
    · obtain ⟨r, hr⟩ := Option.ne_none_iff_exists'.mp hne
      obtain ⟨-, client, hd⟩ := hs.entree userId r hr
      exact ⟨client, r, hr, hd⟩

/-- A disconnection leaves the sockets that were closed before it. -/
theorem Coherent.disconnect_fantome (hs : Coherent delai s) (client : SocketId) :
    Fantome (disconnect client s) ↔ Fantome s := by
  have hconnected : ∀ d, (disconnect client s).connected d = false ↔
      s.connected d = false ∨ d = client := by
    intro d
    rw [← Bool.not_eq_true, connected_disconnect, not_and_or, not_not, Bool.not_eq_true]
  constructor
  · rintro ⟨userId, d, hd, hclosed⟩
    obtain ⟨hd, hne⟩ := (disconnect_inscrit hs userId d).mp hd
    refine ⟨userId, d, hd, ?_⟩
    rcases (hconnected d).mp hclosed with h | rfl
    · exact h
    · exact Bool.eq_false_of_not_eq_true fun hc => hne ⟨rfl, hc⟩
  · rintro ⟨userId, d, hd, hclosed⟩
    refine ⟨userId, d, (disconnect_inscrit hs userId d).mpr ⟨hd, ?_⟩, (hconnected d).mpr (.inl hclosed)⟩
    rintro ⟨rfl, hc⟩
    rw [hc] at hclosed
    cases hclosed

/-! ## A socket connects -/

theorem Coherent.connected (hs : Coherent delai s) :
    Coherent delai (MessagingGateway.connexion s) ∧
      (Fantome (MessagingGateway.connexion s) ↔ Fantome s) := by
  have hrow : ∀ d, d ≠ s.clients.length →
      (MessagingGateway.connexion s).clients[d]? = s.clients[d]? := fun d hd => by
    rw [MessagingGateway.connexion, Table.get_append, if_neg hd]
  -- the sockets of the registry were there before
  have hne : ∀ userId d, s.Inscrit userId d → d ≠ s.clients.length := by
    rintro userId _ hd rfl
    have huser := hs.membre userId _ hd
    rw [Etat.userDe, List.getElem?_eq_none (Nat.le_refl _)] at huser
    cases huser
  refine ⟨⟨hs.entree, hs.propre, fun userId d hd => ?_, fun d socket hget hc => ?_,
    fun d socket hget hw => ?_⟩, ?_⟩
  · rw [Etat.userDe, hrow d (hne userId d hd)]
    exact hs.membre userId d hd
  · rw [MessagingGateway.connexion, Table.get_append] at hget
    split at hget
    · obtain rfl := Option.some.inj hget
      exact .inl ⟨rfl, rfl⟩
    · rcases hs.session d socket hget hc with h | ⟨e, he⟩
      · exact .inl h
      · exact .inr ⟨e, he.ecouteurs, he.user, he.entree, he.membre, he.minuterie⟩
  · rw [MessagingGateway.connexion, Table.get_append] at hget
    split at hget
    · obtain rfl := Option.some.inj hget
      rfl
    · exact hs.attente d socket hget hw
  · have hconnected : ∀ userId d, s.Inscrit userId d →
        (MessagingGateway.connexion s).connected d = s.connected d := fun userId d hd => by
      rw [Etat.connected, hrow d (hne userId d hd), Etat.connected]
    constructor
    · rintro ⟨userId, d, hd, hclosed⟩
      exact ⟨userId, d, hd, (hconnected userId d hd).symm.trans hclosed⟩
    · rintro ⟨userId, d, hd, hclosed⟩
      exact ⟨userId, d, hd, (hconnected userId d hd).trans hclosed⟩

/-! ## An authentication is answered -/

/-- The handshake succeeds: a closed socket is registered all the same. -/
theorem Coherent.registered (sessionMaxMinutes : Nat) (hs : Coherent (sessionMaxMinutes * 60000) s)
    {client : SocketId} {socket : Socket} (hget : s.clients[client]? = some socket)
    (hnone : socket.user = none) (user : JwtPayload) :
    Coherent (sessionMaxMinutes * 60000)
        (register sessionMaxMinutes client user.sub (accepter client socket user s)) ∧
      (Fantome (register sessionMaxMinutes client user.sub (accepter client socket user s)) ↔
        Fantome s ∨ socket.connected = false) := by
  have hplace : ∀ r, (accepter client socket user s).parUtilisateur user.sub = some r →
      r < (accepter client socket user s).ensembles.length := fun r hr => (hs.entree user.sub r hr).1
  obtain ⟨r, h⟩ := register_spec hplace sessionMaxMinutes client
  refine ⟨h.coherent hs hget hnone, ?_⟩
  have hconnected := connected_set hget (h.rows hget)
  constructor
  · rintro ⟨userId, d, hd, hclosed⟩
    rw [hconnected] at hclosed
    rcases (h.inscrit hs userId d).mp hd with hd | ⟨-, rfl⟩
    · rw [if_neg fun hdc : d = client => hs.not_inscrit hget hnone userId (hdc ▸ hd)] at hclosed
      exact .inl ⟨userId, d, hd, hclosed⟩
    · rw [if_pos rfl] at hclosed
      exact .inr hclosed
  · rintro (⟨userId, d, hd, hclosed⟩ | hclosed)
    · refine ⟨userId, d, (h.inscrit hs userId d).mpr (.inl hd), ?_⟩
      rw [hconnected, if_neg fun hdc : d = client => hs.not_inscrit hget hnone userId (hdc ▸ hd)]
      exact hclosed
    · refine ⟨user.sub, client, (h.inscrit hs user.sub client).mpr (.inr ⟨rfl, rfl⟩), ?_⟩
      rw [hconnected, if_pos rfl]
      exact hclosed

/-- The handshake fails. -/
theorem Coherent.refused (hs : Coherent delai s) {client : SocketId} {socket : Socket}
    (hget : s.clients[client]? = some socket) :
    Coherent delai (disconnect client (refuser client socket s)) ∧
      (Fantome (disconnect client (refuser client socket s)) ↔ Fantome s) := by
  have hs₁ : Coherent delai (refuser client socket s) := hs.setRow hget rfl (fun hc => ⟨hc, rfl⟩) nofun
  refine ⟨hs₁.disconnected client, (hs₁.disconnect_fantome client).trans ?_⟩
  have hconnected : ∀ d, (refuser client socket s).connected d = s.connected d := fun d => by
    rw [connected_set hget rfl]
    split
    · next hd => exact (hd ▸ connected_of_get hget).symm
    · rfl
  unfold Fantome
  simp only [hconnected]
  rfl

/-! ## A timer fires -/

theorem disconnect_minuterie {client : SocketId} {t : TimerId} {m : Minuterie}
    (h : (disconnect client s).minuteries[t]? = some (some m)) : s.minuteries[t]? = some (some m) := by
  refine disconnect_rel (R := fun s s' => s'.minuteries[t]? = some (some m) →
      s.minuteries[t]? = some (some m))
    (fun _ => id) (fun _ _ _ h h' => h ∘ h') (fun _ _ => id) (fun s e h => ?_) s h
  rw [onDisconnect_minuteries] at h
  by_cases ht : e.minuterie = t
  · subst ht
    rw [List.getElem?_set_self'] at h
    rcases hold : s.minuteries[e.minuterie]? with _ | x
    · rw [hold] at h
      cases h
    · rw [hold] at h
      cases h
  · rwa [List.getElem?_set_ne ht] at h

/-- A timer without a session. -/
theorem Coherent.cleared (hs : Coherent delai s) {t : TimerId}
    (ht : ∀ client socket e, s.clients[client]? = some socket → socket.connected = true →
      Session delai s client socket e → e.minuterie ≠ t) : Coherent delai (clearTimeout t s) where
  entree := hs.entree
  propre := hs.propre
  membre := hs.membre
  session client socket hget hc := by
    rcases hs.session client socket hget hc with h | ⟨e, he⟩
    · exact .inl h
    · refine .inr ⟨e, he.ecouteurs, he.user, he.entree, he.membre, ?_⟩
      rw [clearTimeout, List.getElem?_set_ne (ht client socket e hget hc he).symm]
      exact he.minuterie
  attente := hs.attente

theorem Coherent.expired (hs : Coherent delai s) (t : TimerId) :
    Coherent delai (expiration t s) ∧ (Fantome (expiration t s) ↔ Fantome s) := by
  unfold expiration
  split
  · next m hm =>
    refine ⟨(hs.disconnected m.client).cleared ?_, hs.disconnect_fantome m.client⟩
    -- the session of this timer is the one that has just ended
    rintro client socket e hget hc he rfl
    have hminuterie := disconnect_minuterie he.minuterie
    rw [hm] at hminuterie
    obtain rfl := Option.some.inj (Option.some.inj hminuterie)
    exact (connected_disconnect.mp ((connected_of_get hget).trans hc)).2 rfl
  · exact ⟨hs, Iff.rfl⟩

/-! ## A user logs out -/

/-- On the way through the set of the user. -/
structure Parcours (delai : Nat) (userId : UserId) (sockets : SetRef) (s s' : Etat) : Prop where
  coherent : Coherent delai s'
  fantome : Fantome s' ↔ Fantome s
  userDe : ∀ client, s'.userDe client = s.userDe client
  membre : ∀ client, client ∈ s'.ensemble sockets → client ∈ s.ensemble sockets
  entree : ∀ r, s'.parUtilisateur userId = some r → s.parUtilisateur userId = some r
  autres : ∀ client, s.userDe client ≠ some userId → s'.clients[client]? = s.clients[client]?
  registre : ∀ userId' client, userId' ≠ userId → (s'.Inscrit userId' client ↔ s.Inscrit userId' client)

theorem Parcours.disconnect {userId : UserId} {sockets : SetRef} {s' : Etat}
    (h : Parcours delai userId sockets s s') {client : SocketId}
    (huser : s.userDe client = some userId) :
    Parcours delai userId sockets s (disconnect client s') where
  coherent := h.coherent.disconnected client
  fantome := (h.coherent.disconnect_fantome client).trans h.fantome
  userDe d := (userDe_disconnect client s' d).trans (h.userDe d)
  membre d hd := h.membre d ((disconnect_emptied client s' sockets).mem hd)
  entree r hr := h.entree r (disconnect_entree hr)
  autres d hd := by
    rw [disconnect_get fun heq : d = client => hd (heq ▸ huser)]
    exact h.autres d hd
  registre userId' d hne := by
    rw [disconnect_inscrit h.coherent]
    refine (and_iff_left_of_imp fun hinscrit hd => hne ?_).trans (h.registre userId' d hne)
    have huser' := h.coherent.membre userId' d hinscrit
    rw [h.userDe, hd.1, huser] at huser'
    exact (Option.some.inj huser').symm

/-- The user has no set, or all of it has been gone through. -/
theorem Parcours.ferme {userId : UserId} {sockets : SetRef} {s' : Etat}
    (h : Parcours delai userId sockets s s')
    (hentree : ∀ r, s.parUtilisateur userId = some r → r = sockets)
    (hclosed : ∀ client ∈ s'.ensemble sockets, s'.connected client = false) : Ferme userId s s' := by
  refine ⟨fun client huser => Bool.eq_false_of_not_eq_true fun hc => ?_, h.autres, h.registre⟩
  obtain ⟨r, hr, hd⟩ := h.coherent.inscrit_of_connected ((h.userDe client).trans huser) hc
  obtain rfl := hentree r (h.entree r hr)
  rw [hclosed client hd] at hc
  cases hc

/-- **Logout.** The sockets of the user are closed, and no other one. -/
theorem Coherent.loggedOut (hs : Coherent delai s) (userId : UserId) :
    Coherent delai (disconnectUser userId s) ∧ (Fantome (disconnectUser userId s) ↔ Fantome s) ∧
      Ferme userId s (disconnectUser userId s) := by
  have hstart : ∀ sockets, Parcours delai userId sockets s s := fun sockets =>
    ⟨hs, Iff.rfl, fun _ => rfl, fun _ => id, fun _ => id, fun _ _ => rfl, fun _ _ _ => Iff.rfl⟩
  unfold disconnectUser
  rcases hentree : s.parUtilisateur userId with _ | sockets
  · refine ⟨hs, Iff.rfl, ⟨fun client huser => Bool.eq_false_of_not_eq_true fun hc => ?_, fun _ _ => rfl,
      fun _ _ _ => Iff.rfl⟩⟩
    obtain ⟨r, hr, -⟩ := hs.inscrit_of_connected huser hc
    cases hentree.symm.trans hr
  · have hturn : ∀ client s', Parcours delai userId sockets s s' → client ∈ s'.ensemble sockets →
        Parcours delai userId sockets s (disconnect client s') ∧
          (disconnect client s').connected client = false ∧
            ∀ d, s'.connected d = false → (disconnect client s').connected d = false := by
      intro client s' h hd
      have huser : s.userDe client = some userId :=
        hs.membre userId client ⟨sockets, hentree, h.membre client hd⟩
      refine ⟨h.disconnect huser, Bool.eq_false_of_not_eq_true fun hc => (connected_disconnect.mp hc).2 rfl,
        fun d hd => Bool.eq_false_of_not_eq_true fun hc => ?_⟩
      rw [(connected_disconnect.mp hc).1] at hd
      cases hd
    obtain ⟨h, hclosed⟩ := JsSet.forOf_rule (E := fun client s => s.connected client = false)
      (fun client s => disconnect_emptied client s sockets) (hstart sockets) hturn
    exact ⟨h.coherent, h.fantome, h.ferme (fun r hr => Option.some.inj (hr.symm.trans hentree)) hclosed⟩

/-! ## Runs -/

/-- **One event.** A closed socket is registered where a handshake succeeds too late. -/
theorem Coherent.step (sessionMaxMinutes : Nat) (hs : Coherent (sessionMaxMinutes * 60000) s)
    (e : Evenement) : Coherent (sessionMaxMinutes * 60000) (etape sessionMaxMinutes s e) ∧
      (Fantome (etape sessionMaxMinutes s e) ↔ Fantome s ∨ ¬ Ponctuel s e) := by
  have hother : ∀ {P : Prop}, Ponctuel s e → (P ↔ Fantome s) → (P ↔ Fantome s ∨ ¬ Ponctuel s e) :=
    fun hp h => h.trans (or_iff_left (not_not_intro hp)).symm
  cases e with
  | connexion => exact ⟨hs.connected.1, hother trivial hs.connected.2⟩
  | deconnexion client => exact ⟨hs.disconnected client, hother trivial (hs.disconnect_fantome client)⟩
  | expiration t => exact ⟨(hs.expired t).1, hother trivial (hs.expired t).2⟩
  | logout userId => exact ⟨(hs.loggedOut userId).1, hother trivial (hs.loggedOut userId).2.1⟩
  | authentification client reponse =>
    rw [etape, MessagingGateway.authentification]
    rcases hget : s.clients[client]? with _ | socket
    · refine ⟨hs, hother ?_ Iff.rfl⟩
      cases reponse with
      | error x => trivial
      | ok user =>
        intro socket hsocket
        rw [hget] at hsocket
        cases hsocket
    dsimp only
    split
    · next hw =>
      cases reponse with
      | error x => exact ⟨(hs.refused hget).1, hother trivial (hs.refused hget).2⟩
      | ok user =>
        have hnone := hs.attente client socket hget hw
        obtain ⟨hs', hfantome⟩ := hs.registered sessionMaxMinutes hget hnone user
        refine ⟨hs', hfantome.trans (or_congr_right ?_)⟩
        -- it succeeds too late
        rw [Ponctuel, hget, ← Bool.not_eq_true]
        refine not_congr ⟨fun hc x hx _ => Option.some.inj hx ▸ hc, fun h => h socket rfl hw⟩
    · next hw =>
      refine ⟨hs, hother ?_ Iff.rfl⟩
      cases reponse with
      | error x => trivial
      | ok user =>
        intro x hx hw'
        rw [hget] at hx
        obtain rfl := Option.some.inj hx
        exact absurd hw' hw

theorem Coherent.run (sessionMaxMinutes : Nat) (hs : Coherent (sessionMaxMinutes * 60000) s)
    (evenements : List Evenement) :
    Coherent (sessionMaxMinutes * 60000) (evenements.foldl (etape sessionMaxMinutes) s) ∧
      (Fantome (evenements.foldl (etape sessionMaxMinutes) s) ↔
        Fantome s ∨ ¬ Ponctuels sessionMaxMinutes s evenements) := by
  induction evenements generalizing s with
  | nil => exact ⟨hs, (or_iff_left (not_not_intro trivial)).symm⟩
  | cons e evenements ih =>
    obtain ⟨hs', hstep⟩ := hs.step sessionMaxMinutes e
    obtain ⟨hlast, hrun⟩ := ih hs'
    refine ⟨hlast, hrun.trans ?_⟩
    rw [hstep, or_assoc, Ponctuels, not_and_or]

end Events

/-- **The registry.** In every run, of any number of users and sockets, the registry holds for each user
exactly the accepted sockets that are still connected, and no entry for a user without any, if and only if
each handshake that has succeeded found its socket connected. `disconnectUser` closes all the sockets of the
user and leaves those of the others. -/
theorem registry_exact (sessionMaxMinutes : Nat) (evenements : List Evenement) :
    (Exacte (suite sessionMaxMinutes evenements) ↔ Ponctuels sessionMaxMinutes {} evenements) ∧
      ∀ userId, Ferme userId (suite sessionMaxMinutes evenements)
        (disconnectUser userId (suite sessionMaxMinutes evenements)) := by
  obtain ⟨hs, hrun⟩ := (Coherent.init (sessionMaxMinutes * 60000)).run sessionMaxMinutes evenements
  refine ⟨hs.exacte_iff.trans ?_, fun userId => (hs.loggedOut userId).2.2⟩
  have hempty : ¬ Fantome {} := by
    rintro ⟨_, _, ⟨_, h, -⟩, -⟩
    cases h
  rw [hrun, or_iff_right hempty, not_not]

/-- A session ends: the timer of a socket that is accepted and connected is running, with the delay of the
configuration, and closes it. -/
theorem session_expires (sessionMaxMinutes : Nat) (evenements : List Evenement) {client : SocketId}
    (hc : (suite sessionMaxMinutes evenements).connected client = true)
    (huser : (suite sessionMaxMinutes evenements).userDe client ≠ none) :
    ∃ t, (suite sessionMaxMinutes evenements).minuteries[t]? =
        some (some ⟨client, sessionMaxMinutes * 60000⟩) ∧
      (expiration t (suite sessionMaxMinutes evenements)).connected client = false := by
  obtain ⟨hs, -⟩ := (Coherent.init (sessionMaxMinutes * 60000)).run sessionMaxMinutes evenements
  obtain ⟨socket, hget, hsocket⟩ := connected_eq_true.mp hc
  rcases hs.session client socket hget hsocket with ⟨hu, -⟩ | ⟨e, he⟩
  · refine absurd ?_ huser
    rw [userDe_of_get hget, hu]
    rfl
  · refine ⟨e.minuterie, he.minuterie, ?_⟩
    have hfires : expiration e.minuterie (suite sessionMaxMinutes evenements) =
        clearTimeout e.minuterie (disconnect client (suite sessionMaxMinutes evenements)) := by
      have hminuterie : (suite sessionMaxMinutes evenements).minuteries[e.minuterie]? = _ := he.minuterie
      rw [expiration, hminuterie]
    rw [hfires]
    exact Bool.eq_false_of_not_eq_true fun h => (connected_disconnect.mp h).2 rfl

/-- A socket is closed while its authentication is pending. -/
private def tardive (user : JwtPayload) : List Evenement :=
  [.connexion, .deconnexion 0, .authentification 0 (.ok user)]

/-- The registry keeps a closed socket, and no handshake is pending. -/
theorem registry_closed_socket : ¬ ∀ (sessionMaxMinutes : Nat) (evenements : List Evenement),
    (∀ socket ∈ (suite sessionMaxMinutes evenements).clients, socket.enAttente = false) →
      Exacte (suite sessionMaxMinutes evenements) := by
  intro h
  have hex := h 15 (tardive { sub := 0, role := .pilgrim }) (by decide)
  have hinscrit : (suite 15 (tardive { sub := 0, role := .pilgrim })).Inscrit 0 0 := ⟨0, by decide, by decide⟩
  have hconnected := ((hex.sockets 0 0).mp hinscrit).2
  revert hconnected
  decide

end OumraHajj.Realtime
