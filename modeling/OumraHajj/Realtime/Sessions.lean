import OumraHajj.Realtime.Service

/-!
# What the registry of the sessions holds

* `Inscrit`: the registry holds the socket for the user. `userDe`: the user as whom the socket was accepted.
* `Coherent`: what every event keeps. A socket that is connected and accepted is in the set of its user, with
  one listener, which captures this set and the timer of the session.
* `disconnect_inscrit`: what a disconnection does to the registry; it keeps `Coherent`.
-/

namespace OumraHajj.Realtime

open Async Auth RealtimeSessionsService

namespace Etat

variable (s : Etat)

/-- The user as whom the socket was accepted. -/
def userDe (client : SocketId) : Option UserId :=
  (s.clients[client]?).bind fun socket => socket.user.map (·.sub)

/-- The registry holds the socket for the user. -/
def Inscrit (userId : UserId) (client : SocketId) : Prop :=
  ∃ sockets, s.parUtilisateur userId = some sockets ∧ client ∈ s.ensemble sockets

end Etat

/-- The socket has one listener, which captures its timer, the set of its user and the user. -/
structure Session (delai : Nat) (s : Etat) (client : SocketId) (socket : Socket) (e : Ecouteur) : Prop where
  ecouteurs : socket.ecouteurs = [e]
  user : socket.user.map (·.sub) = some e.userId
  entree : s.parUtilisateur e.userId = some e.sockets
  membre : client ∈ s.ensemble e.sockets
  minuterie : s.minuteries[e.minuterie]? = some (some ⟨client, delai⟩)

/-- What every event keeps (module doc). -/
structure Coherent (delai : Nat) (s : Etat) : Prop where
  /-- The set of an entry is not empty. -/
  entree : ∀ userId sockets, s.parUtilisateur userId = some sockets →
    sockets < s.ensembles.length ∧ ∃ client, client ∈ s.ensemble sockets
  /-- Each user has a set of their own. -/
  propre : ∀ userId userId' sockets, s.parUtilisateur userId = some sockets →
    s.parUtilisateur userId' = some sockets → userId = userId'
  membre : ∀ userId client, s.Inscrit userId client → s.userDe client = some userId
  session : ∀ (client : SocketId) (socket : Socket), s.clients[client]? = some socket →
    socket.connected = true →
      (socket.user = none ∧ socket.ecouteurs = []) ∨ ∃ e, Session delai s client socket e
  attente : ∀ (client : SocketId) (socket : Socket), s.clients[client]? = some socket →
    socket.enAttente = true → socket.user = none

/-! ## Rows -/

section Rows

variable {s s' : Etat} {client : SocketId} {socket socket' : Socket}

theorem userDe_of_get (h : s.clients[client]? = some socket) :
    s.userDe client = socket.user.map (·.sub) := by
  rw [Etat.userDe, h]
  rfl

theorem connected_of_get (h : s.clients[client]? = some socket) :
    s.connected client = socket.connected := by
  rw [Etat.connected, h]
  rfl

theorem connected_eq_true : s.connected client = true ↔
    ∃ socket, s.clients[client]? = some socket ∧ socket.connected = true := by
  rw [Etat.connected, Option.any_eq_true]

/-- One row is replaced. -/
theorem userDe_set (h : s.clients[client]? = some socket)
    (hs' : s'.clients = s.clients.set client socket') (d : SocketId) :
    s'.userDe d = if d = client then socket'.user.map (·.sub) else s.userDe d := by
  rw [Etat.userDe, hs', Table.get_set h, Etat.userDe]
  by_cases hd : d = client
  · rw [if_pos hd.symm, if_pos hd]
    rfl
  · rw [if_neg (Ne.symm hd), if_neg hd]

theorem connected_set (h : s.clients[client]? = some socket)
    (hs' : s'.clients = s.clients.set client socket') (d : SocketId) :
    s'.connected d = if d = client then socket'.connected else s.connected d := by
  rw [Etat.connected, hs', Table.get_set h, Etat.connected]
  by_cases hd : d = client
  · rw [if_pos hd.symm, if_pos hd]
    rfl
  · rw [if_neg (Ne.symm hd), if_neg hd]

/-- A deletion, or an addition, in one set. -/
theorem ensemble_set {r : SetRef} {A : JsSet SocketId} (hr : s.ensembles.length ≤ r → A = ∅)
    (hs' : s'.ensembles = s.ensembles.set r A) (r' : SetRef) :
    s'.ensemble r' = if r' = r then A else s.ensemble r' := by
  rw [Etat.ensemble, hs', List.getElem?_set, Etat.ensemble]
  by_cases h : r' = r
  · rw [if_pos h.symm, if_pos h]
    split
    · rfl
    · next hlt => exact (hr (Nat.le_of_not_lt hlt)).symm
  · rw [if_neg (Ne.symm h), if_neg h]

/-- There is no such set. -/
theorem ensemble_of_le {r : SetRef} (h : s.ensembles.length ≤ r) : s.ensemble r = ∅ := by
  rw [Etat.ensemble, List.getElem?_eq_none h]
  rfl

theorem ensemble_delete (r : SetRef) (client : SocketId) (r' : SetRef) :
    (s.delete r client).ensemble r' = if r' = r then (s.ensemble r).delete client else s.ensemble r' :=
  ensemble_set (fun h => by rw [ensemble_of_le h]; rfl) rfl r'

theorem ensemble_add {r : SetRef} (hr : r < s.ensembles.length) (client : SocketId) (r' : SetRef) :
    (s.add r client).ensemble r' = if r' = r then (s.ensemble r).add client else s.ensemble r' :=
  ensemble_set (fun h => absurd hr (Nat.not_lt_of_le h)) rfl r'

end Rows

/-! ## The listener -/

section OnDisconnect

variable {client : SocketId} {s : Etat} {e : Ecouteur}

@[simp] theorem onDisconnect_clients : (onDisconnect client s e).clients = s.clients := by
  unfold onDisconnect
  dsimp only
  split <;> rfl

@[simp] theorem onDisconnect_minuteries :
    (onDisconnect client s e).minuteries = s.minuteries.set e.minuterie none := by
  unfold onDisconnect
  dsimp only
  split <;> rfl

theorem onDisconnect_ensembles :
    (onDisconnect client s e).ensembles = (s.delete e.sockets client).ensembles := by
  unfold onDisconnect
  dsimp only
  split <;> rfl

theorem onDisconnect_ensemble (r : SetRef) : (onDisconnect client s e).ensemble r =
    if r = e.sockets then (s.ensemble e.sockets).delete client else s.ensemble r := by
  rw [← ensemble_delete, Etat.ensemble, onDisconnect_ensembles, Etat.ensemble]

/-- The entry is deleted with the last socket. -/
theorem onDisconnect_entree {userId : UserId} {sockets : SetRef} :
    (onDisconnect client s e).parUtilisateur userId = some sockets ↔
      s.parUtilisateur userId = some sockets ∧
        (userId = e.userId → ∃ d, d ∈ s.ensemble e.sockets ∧ d ≠ client) := by
  have hset : ((clearTimeout e.minuterie s).delete e.sockets client).ensemble e.sockets =
      (s.ensemble e.sockets).delete client := by
    rw [ensemble_delete, if_pos rfl]
    rfl
  unfold onDisconnect
  dsimp only
  rw [hset]
  split
  · next hsize =>
    have hempty : ∀ d, ¬ (d ∈ s.ensemble e.sockets ∧ d ≠ client) := fun d hd =>
      JsSet.size_eq_zero.mp hsize d (JsSet.mem_delete.mpr hd)
    show Function.update s.parUtilisateur e.userId none userId = some sockets ↔ _
    by_cases hu : userId = e.userId
    · subst hu
      rw [Function.update_self]
      exact iff_of_false nofun fun h => (h.2 rfl).elim hempty
    · rw [Function.update_of_ne hu]
      exact (and_iff_left fun h => absurd h hu).symm
  · next hsize =>
    obtain ⟨d, hd⟩ := not_forall_not.mp (mt JsSet.size_eq_zero.mpr hsize)
    exact (and_iff_left fun _ => ⟨d, JsSet.mem_delete.mp hd⟩).symm

end OnDisconnect

/-! ## A socket is disconnected -/

section Disconnect

variable {client : SocketId} {s : Etat} {socket : Socket}

/-- What keeps a reflexive and transitive relation at each turn keeps it: the listeners are called one after
the other. -/
theorem foldl_rel {R : Etat → Etat → Prop} (refl : ∀ s, R s s)
    (trans : ∀ s₁ s₂ s₃, R s₁ s₂ → R s₂ s₃ → R s₁ s₃) (h : ∀ s e, R s (onDisconnect client s e))
    (ecouteurs : List Ecouteur) (s : Etat) : R s (ecouteurs.foldl (onDisconnect client) s) := by
  induction ecouteurs generalizing s with
  | nil => exact refl s
  | cons e ecouteurs ih => exact trans _ _ _ (h s e) (ih _)

/-- The socket is closed already, or it is closed and its listeners are called. -/
theorem disconnect_cases (client : SocketId) (s : Etat) :
    (s.connected client = false ∧ disconnect client s = s) ∨
      ∃ socket, s.clients[client]? = some socket ∧ socket.connected = true ∧
        disconnect client s = socket.ecouteurs.foldl (onDisconnect client) (fermer client socket s) := by
  unfold disconnect
  rcases hget : s.clients[client]? with _ | socket
  · refine .inl ⟨?_, rfl⟩
    rw [Etat.connected, hget]
    rfl
  · dsimp only
    split
    · next hc => exact .inr ⟨socket, rfl, hc, rfl⟩
    · next hc => exact .inl ⟨(connected_of_get hget).trans (Bool.eq_false_of_not_eq_true hc), rfl⟩

/-- The listeners leave the sockets. -/
theorem disconnect_clients (h : s.clients[client]? = some socket) (hc : socket.connected = true) :
    (disconnect client s).clients = (fermer client socket s).clients := by
  unfold disconnect
  rw [h]
  dsimp only
  rw [if_pos hc]
  exact foldl_rel (R := fun s s' => s'.clients = s.clients) (fun _ => rfl)
    (fun _ _ _ h h' => h'.trans h) (fun _ _ => onDisconnect_clients) _ _

/-- The other sockets are left. -/
theorem disconnect_get {d : SocketId} (hd : d ≠ client) :
    (disconnect client s).clients[d]? = s.clients[d]? := by
  rcases disconnect_cases client s with ⟨-, heq⟩ | ⟨socket, hget, hc, -⟩
  · rw [heq]
  · rw [disconnect_clients hget hc, fermer, Table.get_set hget, if_neg (Ne.symm hd)]

@[simp] theorem userDe_disconnect (client : SocketId) (s : Etat) (d : SocketId) :
    (disconnect client s).userDe d = s.userDe d := by
  rcases disconnect_cases client s with ⟨-, heq⟩ | ⟨socket, hget, hc, -⟩
  · rw [heq]
  · rw [userDe_set hget (disconnect_clients hget hc)]
    split
    · next hd => exact (hd ▸ userDe_of_get hget).symm
    · rfl

@[simp] theorem connected_disconnect {d : SocketId} :
    (disconnect client s).connected d = true ↔ s.connected d = true ∧ d ≠ client := by
  rcases disconnect_cases client s with ⟨hnot, heq⟩ | ⟨socket, hget, hc, -⟩
  · rw [heq]
    refine (and_iff_left_of_imp fun hd hne => ?_).symm
    rw [hne, hnot] at hd
    cases hd
  · rw [connected_set hget (disconnect_clients hget hc)]
    split
    · next hd => exact iff_of_false nofun fun h => h.2 hd
    · next hd => exact (and_iff_left hd).symm

/-- A disconnection only deletes, from the sets and from the entries. -/
theorem disconnect_rel {R : Etat → Etat → Prop} (refl : ∀ s, R s s)
    (trans : ∀ s₁ s₂ s₃, R s₁ s₂ → R s₂ s₃ → R s₁ s₃) (hclose : ∀ s socket, R s (fermer client socket s))
    (h : ∀ s e, R s (onDisconnect client s e)) (s : Etat) : R s (disconnect client s) := by
  rcases disconnect_cases client s with ⟨-, heq⟩ | ⟨socket, -, -, heq⟩
  · rw [heq]
    exact refl s
  · rw [heq]
    exact trans _ _ _ (hclose s socket) (foldl_rel refl trans h _ _)

theorem disconnect_emptied (client : SocketId) (s : Etat) (sockets : SetRef) :
    (s.ensemble sockets).Emptied ((disconnect client s).ensemble sockets) := by
  refine disconnect_rel (R := fun s s' => (s.ensemble sockets).Emptied (s'.ensemble sockets))
    (fun _ => .refl _) (fun _ _ _ => .trans) (fun _ _ => .refl _) (fun s e => ?_) s
  rw [onDisconnect_ensemble]
  split
  · next h => exact h ▸ JsSet.emptied_delete _ _
  · exact .refl _

theorem disconnect_entree {userId : UserId} {sockets : SetRef}
    (h : (disconnect client s).parUtilisateur userId = some sockets) :
    s.parUtilisateur userId = some sockets :=
  disconnect_rel (R := fun s s' => s'.parUtilisateur userId = some sockets →
      s.parUtilisateur userId = some sockets)
    (fun _ => id) (fun _ _ _ h h' => h ∘ h') (fun _ _ => id) (fun _ _ h => (onDisconnect_entree.mp h).1) s h

end Disconnect

/-! ## What the events keep -/

section Keeps

variable {delai : Nat} {client : SocketId} {s s' : Etat} {socket : Socket}

theorem Coherent.init (delai : Nat) : Coherent delai {} where
  entree _ _ h := by cases h
  propre _ _ _ h := by cases h
  membre _ _ h := by
    obtain ⟨_, h, -⟩ := h
    cases h
  session _ _ h := by cases h
  attente _ _ h := by cases h

/-- A row is replaced by one of the same session. -/
theorem Coherent.setRow (hs : Coherent delai s) (hget : s.clients[client]? = some socket)
    {socket' : Socket} (huser : socket'.user = socket.user)
    (hconnected : socket'.connected = true → socket.connected = true ∧
      socket'.ecouteurs = socket.ecouteurs)
    (hattente : socket'.enAttente = true → socket.enAttente = true) :
    Coherent delai { s with clients := s.clients.set client socket' } where
  entree := hs.entree
  propre := hs.propre
  membre userId d h := by
    rw [userDe_set hget rfl]
    split
    · next hd =>
      rw [huser, ← userDe_of_get hget, ← hd]
      exact hs.membre userId d h
    · exact hs.membre userId d h
  session d x hx hc := by
    rw [Table.get_set hget] at hx
    split at hx
    · next hd =>
      subst hd
      obtain rfl := Option.some.inj hx
      obtain ⟨hc, hecouteurs⟩ := hconnected hc
      rcases hs.session client socket hget hc with ⟨hu, he⟩ | ⟨e, he⟩
      · exact .inl ⟨huser.trans hu, hecouteurs.trans he⟩
      · exact .inr ⟨e, hecouteurs.trans he.ecouteurs, huser ▸ he.user, he.entree, he.membre, he.minuterie⟩
    · rcases hs.session d x hx hc with h | ⟨e, he⟩
      · exact .inl h
      · exact .inr ⟨e, he.ecouteurs, he.user, he.entree, he.membre, he.minuterie⟩
  attente d x hx hw := by
    rw [Table.get_set hget] at hx
    split at hx
    · obtain rfl := Option.some.inj hx
      exact huser.trans (hs.attente client socket hget (hattente hw))
    · exact hs.attente d x hx hw

/-- The socket is closed already, nobody was accepted on it, or its one listener is called. -/
theorem Coherent.disconnect_cases (hs : Coherent delai s) (client : SocketId) :
    (s.connected client = false ∧ disconnect client s = s) ∨
      ∃ socket, s.clients[client]? = some socket ∧ socket.connected = true ∧
        (socket.user = none ∧ disconnect client s = fermer client socket s ∨
          ∃ e, Session delai s client socket e ∧
            disconnect client s = onDisconnect client (fermer client socket s) e) := by
  rcases Realtime.disconnect_cases client s with h | ⟨socket, hget, hc, heq⟩
  · exact .inl h
  refine .inr ⟨socket, hget, hc, ?_⟩
  rcases hs.session client socket hget hc with ⟨hu, he⟩ | ⟨e, he⟩
  · exact .inl ⟨hu, by rw [heq, he]; rfl⟩
  · exact .inr ⟨e, he, by rw [heq, he.ecouteurs]; rfl⟩

/-- The socket of a session is in the set of its user only. -/
theorem Session.unique (hs : Coherent delai s) {e : Ecouteur} (he : Session delai s client socket e)
    (hget : s.clients[client]? = some socket) {userId : UserId} {r : SetRef}
    (hr : s.parUtilisateur userId = some r) (hmem : client ∈ s.ensemble r) : r = e.sockets := by
  have huser := hs.membre userId client ⟨r, hr, hmem⟩
  rw [userDe_of_get hget, he.user] at huser
  obtain rfl := Option.some.inj huser
  exact Option.some.inj (hr.symm.trans he.entree)

/-- The session of a socket ends: the socket is deleted from the set of its user. -/
theorem Session.onDisconnect_inscrit (hs : Coherent delai s) {e : Ecouteur}
    (he : Session delai s client socket e) (hget : s.clients[client]? = some socket) (userId : UserId)
    (d : SocketId) : (onDisconnect client (fermer client socket s) e).Inscrit userId d ↔
      s.Inscrit userId d ∧ d ≠ client := by
  constructor
  · rintro ⟨r, hr, hd⟩
    obtain ⟨hr, -⟩ := onDisconnect_entree.mp hr
    rw [onDisconnect_ensemble] at hd
    split at hd
    · next h =>
      obtain ⟨hd, hne⟩ := JsSet.mem_delete.mp hd
      exact ⟨⟨r, hr, h ▸ hd⟩, hne⟩
    · next h => exact ⟨⟨r, hr, hd⟩, fun hdc => h (he.unique hs hget hr (hdc ▸ hd))⟩
  · rintro ⟨⟨r, hr, hd⟩, hne⟩
    refine ⟨r, onDisconnect_entree.mpr ⟨hr, fun hu => ⟨d, ?_, hne⟩⟩, ?_⟩
    · rw [hu] at hr
      obtain rfl := Option.some.inj (hr.symm.trans he.entree)
      exact hd
    · rw [onDisconnect_ensemble]
      split
      · next h => exact JsSet.mem_delete.mpr ⟨h ▸ hd, hne⟩
      · exact hd

/-- The other sessions stay. -/
theorem Session.onDisconnect {e : Ecouteur} (he : Session delai s client socket e) {d : SocketId}
    (hd : d ≠ client) {x : Socket} {e' : Ecouteur} (he' : Session delai s d x e') :
    Session delai (onDisconnect client (fermer client socket s) e) d x e' := by
  refine ⟨he'.ecouteurs, he'.user, onDisconnect_entree.mpr ⟨he'.entree, fun hu => ⟨d, ?_, hd⟩⟩, ?_, ?_⟩
  · have hset := he'.entree
    rw [hu] at hset
    obtain heq := Option.some.inj (hset.symm.trans he.entree)
    exact heq ▸ he'.membre
  · rw [onDisconnect_ensemble]
    split
    · next h => exact JsSet.mem_delete.mpr ⟨h ▸ he'.membre, hd⟩
    · exact he'.membre
  · -- each session has its own timer
    have hne : e.minuterie ≠ e'.minuterie := by
      intro h
      have hminuterie := he.minuterie
      rw [h, he'.minuterie] at hminuterie
      exact hd (congrArg Minuterie.client (Option.some.inj (Option.some.inj hminuterie)))
    rw [onDisconnect_minuteries, List.getElem?_set_ne hne]
    exact he'.minuterie

/-- **A disconnection** deletes the socket from the registry, if it was connected. -/
theorem disconnect_inscrit (hs : Coherent delai s) (userId : UserId) (d : SocketId) :
    (disconnect client s).Inscrit userId d ↔
      s.Inscrit userId d ∧ ¬ (d = client ∧ s.connected client = true) := by
  rcases hs.disconnect_cases client with ⟨hc, heq⟩ | ⟨socket, hget, hc, h⟩
  · rw [heq, hc]
    exact (and_iff_left fun h => nomatch h.2).symm
  have hconnected : s.connected client = true := (connected_of_get hget).trans hc
  rw [hconnected, eq_self, and_true]
  rcases h with ⟨hu, heq⟩ | ⟨e, he, heq⟩
  · rw [heq]
    refine (and_iff_left_of_imp fun h hd => ?_).symm
    have huser := hs.membre userId d h
    rw [hd, userDe_of_get hget, hu] at huser
    cases huser
  · rw [heq]
    exact he.onDisconnect_inscrit hs hget userId d

/-- The entries that are left have the sets that they had. -/
theorem Coherent.disconnected (hs : Coherent delai s) (client : SocketId) :
    Coherent delai (disconnect client s) := by
  rcases hs.disconnect_cases client with ⟨-, heq⟩ | ⟨socket, hget, hc, h⟩
  · rwa [heq]
  have hclosed : Coherent delai (fermer client socket s) :=
    hs.setRow hget rfl (fun h => nomatch h) (fun h => h)
  rcases h with ⟨-, heq⟩ | ⟨e, he, heq⟩
  · rwa [heq]
  have hinscrit := he.onDisconnect_inscrit hs hget
  have hclients := disconnect_clients hget hc
  rw [heq] at hclients ⊢
  refine ⟨fun userId r hr => ?_, fun userId userId' r hr hr' => ?_, fun userId d h => ?_,
    fun d x hx hxc => ?_, fun d x hx => ?_⟩
  · obtain ⟨hr', hleft⟩ := onDisconnect_entree.mp hr
    obtain ⟨hlt, d, hd⟩ := hs.entree userId r hr'
    refine ⟨?_, ?_⟩
    · rw [onDisconnect_ensembles, Etat.delete, List.length_set]
      exact hlt
    · rw [onDisconnect_ensemble]
      split
      · next h =>
        have hu : userId = e.userId := hs.propre userId e.userId r hr' (h ▸ he.entree)
        obtain ⟨d, hd⟩ := hleft hu
        exact ⟨d, JsSet.mem_delete.mpr hd⟩
      · exact ⟨d, hd⟩
  · exact hs.propre userId userId' r (onDisconnect_entree.mp hr).1 (onDisconnect_entree.mp hr').1
  · have huser := hs.membre userId d ((hinscrit userId d).mp h).1
    rwa [← heq, userDe_disconnect]
  · rw [hclients] at hx
    rcases hclosed.session d x hx hxc with h | ⟨e', he'⟩
    · exact .inl h
    · have hd : d ≠ client := by
        rintro rfl
        rw [fermer, Table.get_set hget, if_pos rfl] at hx
        obtain rfl := Option.some.inj hx
        cases hxc
      exact .inr ⟨e', he.onDisconnect hd ⟨he'.ecouteurs, he'.user, he'.entree, he'.membre,
        he'.minuterie⟩⟩
  · rw [hclients] at hx
    exact hclosed.attente d x hx

end Keeps

end OumraHajj.Realtime
