import OumraHajj.Disputes.Concurrent

/-!
# Concurrent openings of disputes

A creation looks for an active dispute of the booking and inserts in a statement of its own; no
constraint of the schema stands between the two. `Vacant` is the condition under which a booking keeps
one active dispute at most: its disputes are all closed when one is inserted.
-/

namespace OumraHajj.Disputes

open Async Store

/-- The requests that open a dispute or end one. -/
inductive ActiveRequest where
  | create (pilgrimId : UserId) (dto : CreateDisputeDto)
  | resolve (pilgrimId : UserId) (id : DisputeId)
  | decide (adminId : UserId) (id : DisputeId) (decision : String)

def ActiveRequest.toRequest : ActiveRequest → DisputeRequest
  | .create pilgrimId dto => .create pilgrimId dto
  | .resolve pilgrimId id => .resolve pilgrimId id
  | .decide adminId id decision => .decide adminId id decision

/-- The dispute of the booking is active. -/
def activeOn (bookingId : BookingId) (row : Option Dispute) : Bool :=
  row.any fun d => d.bookingId = bookingId ∧ actif d.status

/-- The active disputes of a booking. -/
def Store.actives (s : Store) (bookingId : BookingId) : Finset DisputeId :=
  s.disputes.ids (activeOn bookingId)

theorem Store.mem_actives {s : Store} {bookingId : BookingId} {id : DisputeId} :
    id ∈ s.actives bookingId ↔
      ∃ d, s.dispute id = some d ∧ d.bookingId = bookingId ∧ actif d.status = true := by
  rw [actives, Table.mem_ids]
  constructor
  · rintro ⟨row, hrow, ha⟩
    cases row with
    | none => cases ha
    | some d =>
      obtain ⟨hb, hd⟩ := of_decide_eq_true ha
      exact ⟨d, by rw [dispute, Table.row, hrow]; rfl, hb, hd⟩
  · rintro ⟨d, hd, hb, ha⟩
    exact ⟨some d, Table.get_of_row hd, decide_eq_true ⟨hb, ha⟩⟩

/-- The dispute that a statement inserts. -/
def inserted : sig.Stmt → Option DisputeCreate
  | .inr (.disputeCreate data) => some data
  | _ => none

/-- No dispute of the booking is active when one is inserted (module doc). -/
def Vacant {ι : Type} (bookingId : BookingId) : Pool.Cond sig ι Store Env :=
  fun next s t _ => ∀ data ∈ (next t).bind inserted,
    data.bookingId = bookingId → s.actives bookingId = ∅

instance {ι : Type} (bookingId : BookingId) (next : ι → Option sig.Stmt) (s : Store) (t : ι)
    (e : Env) : Decidable (Vacant bookingId next s t e) :=
  inferInstanceAs (Decidable (∀ _ ∈ _, _ → _))

/-- These requests write no active status over a dispute. -/
theorem mayWrite_closes {q : ActiveRequest} {st : DisputeStatus}
    (h : mayWrite q.toRequest st = true) : actif st = false := by
  cases q with
  | create pilgrimId dto => cases h
  | resolve pilgrimId id =>
    obtain rfl : st = .resolved := of_decide_eq_true h
    rfl
  | decide adminId id decision =>
    obtain rfl : st = .closed := of_decide_eq_true h
    rfl

variable {bookingId : BookingId}

theorem activeOn_eq_false {d : Dispute} (h : actif d.status = false) :
    activeOn bookingId (some d) = false := by
  simp [activeOn, h]

/-- An insertion adds an active dispute to its booking, whatever it has already: on a booking that is
not vacant, it is one too many. -/
theorem actives_append {s s' : Store} {data : DisputeCreate} {now : Time}
    (h : s'.disputes = s.disputes ++ [some (data.row now)]) (bookingId : BookingId) :
    (s'.actives bookingId).card =
      (s.actives bookingId).card + if data.bookingId = bookingId then 1 else 0 := by
  rw [actives, h, Table.ids_append]
  by_cases hb : data.bookingId = bookingId
  · have ha : activeOn bookingId (some (data.row now)) = true := decide_eq_true ⟨hb, rfl⟩
    rw [if_pos ha, if_pos hb, Finset.card_insert_of_notMem (Table.length_not_mem_ids _ _)]
    rfl
  · have ha : activeOn bookingId (some (data.row now)) = false := decide_eq_false fun h => hb h.1
    rw [if_neg (by rw [ha]; decide), if_neg hb]
    rfl

/-- One statement, of a request for which the booking is vacant. -/
theorem exec_actives {ι : Type} {requests : ι → ActiveRequest} {next : ι → Option sig.Stmt}
    {s : Store} {t : ι} {c : sig.Stmt} {e : Env} (hw : WritesOf (requests t).toRequest c)
    (hn : next t = some c) (hok : Vacant bookingId next s t e)
    (hs : (s.actives bookingId).card ≤ 1) :
    ((backend.exec c e s).2.actives bookingId).card ≤ 1 := by
  by_cases hq : quiet c = true
  · rwa [actives, (quiet_exec c hq e s).disputes]
  rcases c with c | c
  · exact absurd rfl hq
  cases c with
  | disputeCreate data =>
    rcases disputeCreate_exec data e s with hc | hc
    · rwa [actives, hc.disputes]
    · rw [actives_append hc]
      by_cases hb : data.bookingId = bookingId
      · have hempty : s.actives bookingId = ∅ := hok data (by rw [hn]; rfl) hb
        rw [hempty, if_pos hb]
        exact Nat.le_of_eq rfl
      · rwa [if_neg hb]
  | disputeUpdate id data =>
    have hm : actif data.status = false := mayWrite_closes (hw (id, data.status) rfl)
    rcases disputeUpdate_exec id data e s with hu | ⟨d, hd, hu⟩
    · rwa [actives, hu.disputes]
    · rw [actives, hu, Table.ids_set_erase (Table.get_of_row hd) (activeOn_eq_false hm)]
      exact le_trans (Finset.card_le_card (Finset.erase_subset ..)) hs
  | disputeDeleteMany limite =>
    have hsub : (backend.exec (.inr (.disputeDeleteMany limite)) e s).2.actives bookingId ⊆
        s.actives bookingId := by
      intro id hid
      obtain ⟨d, hd, hb, ha⟩ := mem_actives.mp hid
      have hrow := (dispute_map rfl id).symm.trans hd
      exact mem_actives.mpr ⟨d, (Option.filter_eq_some_iff.mp hrow).1, hb, ha⟩
    exact le_trans (Finset.card_le_card hsub) hs
  | bookingFindUnique _ => exact absurd rfl hq
  | disputeFindFirst _ => exact absurd rfl hq
  | disputeFindUnique _ => exact absurd rfl hq
  | userFindManyAdmins => exact absurd rfl hq

/-- **One active dispute.** In every interleaving in which disputes are inserted on vacant bookings
only, a booking keeps one active dispute at most. -/
theorem one_active {ι : Type} [DecidableEq ι] {requests : ι → ActiveRequest} {s : Store}
    {c : Pool sig ι Store Erreur Unit}
    (hr : Pool.Reach backend (Vacant bookingId) (poolOf (fun t => (requests t).toRequest) s) c)
    (hs : (s.actives bookingId).card ≤ 1) : (c.st.actives bookingId).card ≤ 1 := by
  have hstep : ∀ next s t c e, WritesOf (requests t).toRequest c → next t = some c →
      Vacant bookingId next s t e → (s.actives bookingId).card ≤ 1 →
        ((backend.exec c e s).2.actives bookingId).card ≤ 1 :=
    fun _ _ _ _ _ hw hn hok => exec_actives hw hn hok
  exact (hr.rel (R := fun s s' => (s.actives bookingId).card ≤ 1 → (s'.actives bookingId).card ≤ 1)
    (fun _ => id) (fun _ _ _ h h' hs => h' (h hs)) hstep
    fun t => handler_writes (requests t).toRequest).1 hs

/-! ## Schedules on fixed inputs -/

/-- The pilgrim opens a dispute on the booking. -/
private def ouvrir : ActiveRequest := .create 0 .exemple

/-- One opens a dispute, and ends it before it is opened again. -/
private def rouvrir : Fin 3 → ActiveRequest
  | 0 => ouvrir
  | 1 => .resolve 0 0
  | 2 => ouvrir

private def tourATour : List (Fin 3 × Env) := turns [0, 0, 0, 1, 1, 2, 2, 2]

theorem one_active_exemple :
    let c := Pool.run backend tourATour (poolOf (fun t => (rouvrir t).toRequest) .exemple)
    c.st.actives 0 = {1} ∧ (c.st.actives 0).card ≤ 1 := by
  have hallowed : Pool.Allowed backend (Vacant 0) (poolOf (fun t => (rouvrir t).toRequest) .exemple)
      tourATour := by decide +kernel
  exact ⟨by decide +kernel, one_active (hallowed.reach .refl) (by decide +kernel)⟩

/-- Both look for an active dispute before one of them inserts: two are active. -/
theorem two_active : ¬ ∀ (requests : Fin 2 → ActiveRequest) (s : Store)
    (c : Pool sig (Fin 2) Store Erreur Unit) (bookingId : BookingId),
    Pool.Reach backend Pool.anyStep (poolOf (fun t => (requests t).toRequest) s) c →
      (s.actives bookingId).card ≤ 1 → (c.st.actives bookingId).card ≤ 1 := by
  intro h
  have hle := h (fun _ => ouvrir) .exemple _ 0 (Pool.Reach.run .refl (turns [0, 1, 0, 1, 0, 1]))
    (by decide +kernel)
  exact absurd hle (by decide +kernel)

end OumraHajj.Disputes
