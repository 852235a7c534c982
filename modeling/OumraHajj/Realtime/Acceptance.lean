import OumraHajj.Realtime.Sessions

/-!
# A socket is accepted

`register` adds the socket to the set of its user, which is a new one for a user without sockets
(`Inscription`). It looks neither at the socket nor at its other listeners: `Coherent` is kept because nobody
was accepted on the socket before.
-/

namespace OumraHajj.Realtime

open Async Auth RealtimeSessionsService

section Register

variable {delai : Nat} {client : SocketId} {s : Etat} {socket : Socket} {userId : UserId}

/-- What a registration makes of a state in which nothing is registered for the socket. -/
structure Inscription (delai : Nat) (s s' : Etat) (client : SocketId) (userId : UserId) (r : SetRef) :
    Prop where
  place : s.parUtilisateur userId = some r ∨ s.parUtilisateur userId = none ∧ r = s.ensembles.length
  length : r < s'.ensembles.length ∧ s.ensembles.length ≤ s'.ensembles.length
  ensemble : ∀ r', s'.ensemble r' = if r' = r then (s.ensemble r).add client else s.ensemble r'
  entree : s'.parUtilisateur = Function.update s.parUtilisateur userId (some r)
  minuteries : s'.minuteries = s.minuteries ++ [some ⟨client, delai⟩]
  clients : s'.clients = (once client ⟨s.minuteries.length, r, userId⟩ s).clients

@[simp] theorem once_ensembles (e : Ecouteur) : (once client e s).ensembles = s.ensembles := by
  unfold once
  split <;> rfl

@[simp] theorem once_parUtilisateur (e : Ecouteur) :
    (once client e s).parUtilisateur = s.parUtilisateur := by
  unfold once
  split <;> rfl

@[simp] theorem once_minuteries (e : Ecouteur) : (once client e s).minuteries = s.minuteries := by
  unfold once
  split <;> rfl

theorem once_clients {s' : Etat} (h : s'.clients = s.clients) (e : Ecouteur) :
    (once client e s').clients = (once client e s).clients := by
  unfold once
  rw [h]
  split
  · rfl
  · exact h

/-- A set is created, empty. -/
theorem ensemble_cree (s : Etat) (r : SetRef) :
    Etat.ensemble { s with ensembles := s.ensembles ++ [∅] } r = s.ensemble r := by
  rw [Etat.ensemble, Table.get_append]
  split
  · next h =>
    rw [h, ensemble_of_le (Nat.le_refl _)]
    rfl
  · rfl

/-- The user gets a set, which is theirs already or is a new one. -/
theorem socketsDe_spec (hs : ∀ r, s.parUtilisateur userId = some r → r < s.ensembles.length) :
    ∃ r ensembles, socketsDe userId s = (r, { s with ensembles }) ∧ r < ensembles.length ∧
      s.ensembles.length ≤ ensembles.length ∧
        (∀ r', Etat.ensemble { s with ensembles } r' = s.ensemble r') ∧
          (s.parUtilisateur userId = some r ∨
            s.parUtilisateur userId = none ∧ r = s.ensembles.length) := by
  unfold socketsDe
  rcases hentree : s.parUtilisateur userId with _ | r
  · have hlength : List.length (s.ensembles ++ [∅]) = s.ensembles.length + 1 := List.length_append
    exact ⟨_, _, rfl, hlength ▸ Nat.lt_succ_self _, hlength ▸ Nat.le_succ _, ensemble_cree s,
      .inr ⟨rfl, rfl⟩⟩
  · exact ⟨r, s.ensembles, rfl, hs r hentree, Nat.le_refl _, fun _ => rfl, .inl rfl⟩

theorem register_spec (hs : ∀ r, s.parUtilisateur userId = some r → r < s.ensembles.length)
    (sessionMaxMinutes : Nat) (client : SocketId) :
    ∃ r, Inscription (sessionMaxMinutes * 60000) s (register sessionMaxMinutes client userId s) client
      userId r := by
  obtain ⟨r, ensembles, heq, hlt, hle, hensemble, hplace⟩ := socketsDe_spec hs
  unfold register
  rw [heq]
  dsimp only
  refine ⟨r, hplace, ?_, fun r' => ?_, ?_, ?_, ?_⟩
  · rw [once_ensembles]
    exact ⟨Nat.lt_of_lt_of_eq hlt List.length_set.symm, Nat.le_trans hle (Nat.le_of_eq List.length_set.symm)⟩
  · rw [Etat.ensemble, once_ensembles, ← hensemble r, ← hensemble r']
    exact ensemble_add (s := { s with ensembles }) hlt client r'
  · rw [once_parUtilisateur]
    rfl
  · rw [once_minuteries]
    rfl
  · refine once_clients (s := s) ?_ _
    rfl

end Register

section Accept

variable {delai : Nat} {client : SocketId} {s s' : Etat} {socket : Socket} {user : JwtPayload}
  {r : SetRef}

/-- The row of the socket that was registered. -/
def inscrire (socket : Socket) (user : JwtPayload) (e : Ecouteur) : Socket :=
  { socket with enAttente := false, user := some user, ecouteurs := socket.ecouteurs ++ [e] }

theorem Inscription.rows (h : Inscription delai (accepter client socket user s) s' client user.sub r)
    (hget : s.clients[client]? = some socket) :
    s'.clients = s.clients.set client (inscrire socket user ⟨s.minuteries.length, r, user.sub⟩) := by
  have hrow : (accepter client socket user s).clients[client]? =
      some { socket with enAttente := false, user := some user } := by
    rw [accepter, Table.get_set hget, if_pos rfl]
  rw [h.clients, once, hrow]
  dsimp only
  rw [accepter, List.set_set]
  rfl

/-- The users with another entry have another set. -/
theorem Inscription.other (hs : Coherent delai s)
    (h : Inscription delai (accepter client socket user s) s' client user.sub r) {userId : UserId}
    {r' : SetRef} (hr : s.parUtilisateur userId = some r') (hne : userId ≠ user.sub) : r' ≠ r := by
  rintro rfl
  rcases h.place with hplace | ⟨-, hplace⟩
  · exact hne (hs.propre userId user.sub r' hr hplace)
  · exact absurd (hs.entree userId r' hr).1 (Nat.not_lt_of_le (Nat.le_of_eq hplace.symm))

/-- Nobody was accepted on the socket, so no set holds it. -/
theorem Coherent.not_inscrit (hs : Coherent delai s) (hget : s.clients[client]? = some socket)
    (hnone : socket.user = none) (userId : UserId) : ¬ s.Inscrit userId client := by
  intro h
  have huser := hs.membre userId client h
  rw [userDe_of_get hget, hnone] at huser
  cases huser

/-- **A registration** adds the socket to the registry, and nothing else. -/
theorem Inscription.inscrit (hs : Coherent delai s)
    (h : Inscription delai (accepter client socket user s) s' client user.sub r) (userId : UserId)
    (d : SocketId) : s'.Inscrit userId d ↔ s.Inscrit userId d ∨ userId = user.sub ∧ d = client := by
  have hold : ∀ r', (accepter client socket user s).ensemble r' = s.ensemble r' := fun _ => rfl
  unfold Etat.Inscrit
  rw [h.entree]
  by_cases hu : userId = user.sub
  · subst hu
    rw [Function.update_self]
    constructor
    · rintro ⟨r', hr', hd⟩
      obtain rfl := Option.some.inj hr'
      rw [h.ensemble, if_pos rfl, hold, JsSet.mem_add] at hd
      rcases hd with hd | rfl
      · rcases h.place with hplace | ⟨-, rfl⟩
        · exact .inl ⟨r, hplace, hd⟩
        · exact absurd hd (ensemble_of_le (s := s) (Nat.le_refl _) ▸ JsSet.not_mem_empty d)
      · exact .inr ⟨rfl, rfl⟩
    · intro hd
      refine ⟨r, rfl, ?_⟩
      rw [h.ensemble, if_pos rfl, hold, JsSet.mem_add]
      rcases hd with ⟨r', hr', hd⟩ | ⟨-, rfl⟩
      · rcases h.place with hplace | ⟨hplace, -⟩
        · obtain rfl := Option.some.inj (hr'.symm.trans hplace)
          exact .inl hd
        · cases hr'.symm.trans hplace
      · exact .inr rfl
  · rw [Function.update_of_ne hu]
    refine ⟨?_, ?_⟩
    · rintro ⟨r', hr', hd⟩
      rw [h.ensemble, if_neg (h.other hs hr' hu)] at hd
      exact .inl ⟨r', hr', hd⟩
    · rintro (⟨r', hr', hd⟩ | ⟨hu', -⟩)
      · refine ⟨r', hr', ?_⟩
        rw [h.ensemble, if_neg (h.other hs hr' hu)]
        exact hd
      · exact absurd hu' hu

/-- The sessions stay. -/
theorem Inscription.session (hs : Coherent delai s)
    (h : Inscription delai (accepter client socket user s) s' client user.sub r) {d : SocketId}
    {x : Socket} {e : Ecouteur} (he : Session delai s d x e) : Session delai s' d x e := by
  have hmem : ∃ r', s'.parUtilisateur e.userId = some r' ∧ d ∈ s'.ensemble r' :=
    (h.inscrit hs e.userId d).mpr (.inl ⟨e.sockets, he.entree, he.membre⟩)
  have hentree : s'.parUtilisateur e.userId = some e.sockets := by
    rw [h.entree]
    by_cases hu : e.userId = user.sub
    · rw [hu, Function.update_self]
      rcases h.place with hplace | ⟨hplace, -⟩
      · rw [← hplace, ← hu]
        exact he.entree
      · have hnone : s.parUtilisateur e.userId = none := hu ▸ hplace
        cases he.entree.symm.trans hnone
    · rw [Function.update_of_ne hu]
      exact he.entree
  obtain ⟨r', hr', hd⟩ := hmem
  obtain rfl := Option.some.inj (hr'.symm.trans hentree)
  refine ⟨he.ecouteurs, he.user, hentree, hd, ?_⟩
  rw [h.minuteries]
  exact Table.get_append_of_get he.minuterie _

theorem Inscription.coherent (hs : Coherent delai s)
    (h : Inscription delai (accepter client socket user s) s' client user.sub r)
    (hget : s.clients[client]? = some socket) (hnone : socket.user = none) : Coherent delai s' := by
  have hrows := h.rows hget
  have hclient : client ∈ s'.ensemble r := by
    rw [h.ensemble, if_pos rfl]
    exact JsSet.mem_add.mpr (.inr rfl)
  refine ⟨fun userId r' hr' => ?_, fun userId userId' r' hr hr' => ?_, fun userId d hd => ?_,
    fun d x hx hc => ?_, fun d x hx hw => ?_⟩
  · rw [h.entree] at hr'
    by_cases hu : userId = user.sub
    · rw [hu, Function.update_self] at hr'
      obtain rfl := Option.some.inj hr'
      exact ⟨h.length.1, client, hclient⟩
    · rw [Function.update_of_ne hu] at hr'
      obtain ⟨hlt, d, hd⟩ := hs.entree userId r' hr'
      refine ⟨Nat.lt_of_lt_of_le hlt h.length.2, d, ?_⟩
      rw [h.ensemble, if_neg (h.other hs hr' hu)]
      exact hd
  · rw [h.entree] at hr hr'
    by_cases hu : userId = user.sub
    · by_cases hu' : userId' = user.sub
      · rw [hu, hu']
      · rw [hu, Function.update_self] at hr
        rw [Function.update_of_ne hu'] at hr'
        exact absurd (Option.some.inj hr).symm (h.other hs hr' hu')
    · rw [Function.update_of_ne hu] at hr
      by_cases hu' : userId' = user.sub
      · rw [hu', Function.update_self] at hr'
        exact absurd (Option.some.inj hr').symm (h.other hs hr hu)
      · rw [Function.update_of_ne hu'] at hr'
        exact hs.propre userId userId' r' hr hr'
  · rw [userDe_set hget hrows]
    rcases (h.inscrit hs userId d).mp hd with hd | ⟨rfl, rfl⟩
    · rw [if_neg fun hdc : d = client => hs.not_inscrit hget hnone userId (hdc ▸ hd)]
      exact hs.membre userId d hd
    · rw [if_pos rfl]
      rfl
  · rw [hrows, Table.get_set hget] at hx
    split at hx
    · next hd =>
      subst hd
      obtain rfl := Option.some.inj hx
      -- the new session: its listener is the only one
      rcases hs.session client socket hget hc with ⟨-, he⟩ | ⟨e, he⟩
      · refine .inr ⟨⟨s.minuteries.length, r, user.sub⟩, ?_, rfl, ?_, hclient, ?_⟩
        · rw [inscrire, he]
          rfl
        · rw [h.entree, Function.update_self]
        · rw [h.minuteries]
          exact List.getElem?_concat_length
      · have huser := he.user
        rw [hnone] at huser
        cases huser
    · rcases hs.session d x hx hc with hx' | ⟨e, he⟩
      · exact .inl hx'
      · exact .inr ⟨e, h.session hs he⟩
  · rw [hrows, Table.get_set hget] at hx
    split at hx
    · obtain rfl := Option.some.inj hx
      cases hw
    · exact hs.attente d x hx hw

end Accept

end OumraHajj.Realtime
