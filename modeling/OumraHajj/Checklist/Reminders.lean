import OumraHajj.Async.Faults
import OumraHajj.Async.History
import OumraHajj.Services.Requests

/-!
# The reminders of a checklist

`ChecklistSchedulerService.remindChecklistItems` (`src/modules/checklist/checklist-scheduler.service.ts`) and
`ChecklistService.updateStatus` (`checklist.service.ts`). Each statement may fail: the job goes on after an item
that fails.

A reminder and the mark that it was sent are two writes, so an item is reminded again where its mark fails.
`relances` is the job with the reminders that it has sent, which the source does not return (`relances_void`), and
`checklist_reminded` is what they are in every run: once an item is marked it is reminded no more, and it was
reminded once more often than its mark has failed.
-/

namespace OumraHajj.Checklist

open Async

abbrev ItemId := Nat

/-- The database with the items that are marked: `reminderSent` of `ChecklistItem`. -/
structure Store where
  app : Db := {}
  reminderSent : List ItemId := []

/-- `isCompleted: false` and `reminderDate: { lte: now }`. -/
def aFaire (now : Time) (item : ChecklistItem) : Bool :=
  !item.isCompleted && item.reminderDate.any (· ≤ now)

namespace Store

variable (s : Store)

/-- An item with its booking. -/
def item (id : ItemId) : Option (ChecklistItem × Booking) :=
  (s.app.checklistItems[id]?).bind fun item => (s.app.bookings[item.bookingId]?).map fun b => (item, b)

/-- The items to remind, each with its booking. -/
def aRappeler (now : Time) : List (ItemId × ChecklistItem × Booking) :=
  ((Table.findMany s.app.checklistItems (aFaire now)).filter fun x => !s.reminderSent.contains x.1).filterMap
    fun (id, item) => (s.app.bookings[item.bookingId]?).map fun b => (id, item, b)

end Store

inductive Stmt where
  /-- `where: { isCompleted: false, reminderSent: false, reminderDate: { lte: now } }`,
  `include: { booking: true }`. -/
  | checklistItemFindMany (now : Time)
  /-- `include: { booking: true }`. -/
  | checklistItemFindUnique (id : ItemId)
  /-- `data: { isCompleted }`. -/
  | checklistItemUpdate (id : ItemId) (isCompleted : Bool)
  /-- `data: { reminderSent: true }`. -/
  | checklistItemRemind (id : ItemId)

/-- The answer of each statement; `none` is a row that does not exist. -/
def Resp : Stmt → Type
  | .checklistItemFindMany _ => List (ItemId × ChecklistItem × Booking)
  | .checklistItemFindUnique _ => Option (ChecklistItem × Booking)
  | .checklistItemUpdate _ _ => Option ChecklistItem
  | .checklistItemRemind _ => Option ChecklistItem

/-- The statements on the items and of the other services. -/
abbrev sig : Sig := prismaSig.sum ⟨Stmt, Resp⟩

def exec : (c : Stmt) → Store → Resp c × Store
  | .checklistItemFindMany now, s => (s.aRappeler now, s)
  | .checklistItemFindUnique id, s => (s.item id, s)
  | .checklistItemUpdate id isCompleted, s =>
    match s.app.checklistItems[id]? with
    | some item =>
      (some { item with isCompleted },
        { s with
          app := { s.app with checklistItems := s.app.checklistItems.set id { item with isCompleted } } })
    | none => (none, s)
  | .checklistItemRemind id, s =>
    match s.app.checklistItems[id]? with
    | some item => (some item, { s with reminderSent := s.reminderSent ++ [id] })
    | none => (none, s)

def base : Backend sig Store Env where
  exec
    | .inl c, e, s => ((prisma.exec c e s.app).1, { s with app := (prisma.exec c e s.app).2 })
    | .inr c, _, s => exec c s

/-- The backend, where each statement may fail. -/
abbrev backend : Backend sig.faulty Store (Option Env) := base.faulty

/-- A request handler. -/
abbrev Req := Prog sig.faulty Erreur

/-- What is thrown when a statement fails. -/
def panne : Erreur := .prisma "P1001"

/-- Execute one statement. -/
abbrev await (c : Stmt) : Req (Resp c) := (Prog.exec (S := sig) (.inr c)).faulty panne

/-- A handler of the other services. -/
abbrev app {α : Type} (p : OumraHajj.Req α) : Req α := (Prog.left p : Prog sig Erreur α).faulty panne

namespace ChecklistSchedulerService

/-- The reminder of an item. -/
def rappel (item : ChecklistItem) (booking : Booking) : SendNotificationInput where
  recipientIds := [booking.pilgrimId]
  type := .document
  title := [.txt ("Préparation : " ++ item.category)]
  content := [.txt ("N'oubliez pas : " ++ item.title ++ ". Cochez-le dans votre espace dès que c'est fait !")]
  isCritical := false

/-- The mark of a reminder. -/
def marquer (id : ItemId) : Req Unit := do
  match ← await (.checklistItemRemind id) with
  | some _ => return ()
  | none => .fail (.prisma "P2025")

/-- The loop; an error is caught and logged. -/
def rappeler : List (ItemId × ChecklistItem × Booking) → Req Unit
  | [] => return ()
  | (id, item, booking) :: items => do
    ((app (NotificationsService.send (rappel item booking))).bind fun _ => marquer id).tryCatch
      fun _ => return ()
    rappeler items

def remindChecklistItems : Req Unit := do
  let now ← app (OumraHajj.await .now)
  let items ← await (.checklistItemFindMany now)
  rappeler items

end ChecklistSchedulerService

namespace ChecklistService

/-- The pilgrim of the booking checks an item, or unchecks it. -/
def updateStatus (pilgrimId : UserId) (id : ItemId) (isCompleted : Bool) : Req ChecklistItem := do
  match ← await (.checklistItemFindUnique id) with
  | none => .fail (.notFound "Élément de checklist introuvable")
  | some (_, booking) =>
    if booking.pilgrimId ≠ pilgrimId then
      .fail (.forbidden "Vous ne pouvez pas modifier cet élément")
    else
      match ← await (.checklistItemUpdate id isCompleted) with
      | some item => return item
      | none => .fail (.prisma "P2025")

end ChecklistService

inductive Request where
  | app (q : OumraHajj.Request)
  | updateStatus (pilgrimId : UserId) (id : ItemId) (isCompleted : Bool)
  /-- Every day at nine. -/
  | job

/-- The handler of a request, without the value that it returns. -/
def handler : Request → Req Unit
  | .app q => app (OumraHajj.handler q)
  | .updateStatus pilgrimId id isCompleted => (ChecklistService.updateStatus pilgrimId id isCompleted).void
  | .job => ChecklistSchedulerService.remindChecklistItems

/-! ## The reminders that the job sends -/

/-- A reminder that was sent, and whether its mark was. -/
structure Rappel where
  id : ItemId
  avis : Notification
  now : Time
  marque : Bool

/-- The notification of an item. -/
def avisDe (item : ChecklistItem) (booking : Booking) : Notification :=
  let input := ChecklistSchedulerService.rappel item booking
  { recipientId := booking.pilgrimId, type := input.type, title := input.title, content := input.content
    isCritical := input.isCritical }

/-- One turn of the loop, with the reminder that it has sent. -/
def relancer (now : Time) : ItemId × ChecklistItem × Booking → Req (List Rappel)
  | (id, item, booking) =>
    (app (NotificationsService.send (ChecklistSchedulerService.rappel item booking))).attempt.bind fun
      | .ok _ => (ChecklistSchedulerService.marquer id).attempt.bind fun r =>
          .ret [⟨id, avisDe item booking, now, r.isOk⟩]
      | .error _ => .ret []

def relancerTout (now : Time) : List (ItemId × ChecklistItem × Booking) → Req (List Rappel)
  | [] => .ret []
  | x :: l => (relancer now x).bind fun a => (relancerTout now l).bind fun b => .ret (a ++ b)

/-- The job, with the reminders that it has sent (module doc). -/
def relances : Req (List Rappel) :=
  (app (OumraHajj.await .now)).bind fun now =>
    (Checklist.await (.checklistItemFindMany now)).bind (relancerTout now)

theorem relancerTout_void (now : Time) (l : List (ItemId × ChecklistItem × Booking)) :
    (relancerTout now l).void = ChecklistSchedulerService.rappeler l := by
  induction l with
  | nil => rfl
  | cons x l ih =>
    obtain ⟨id, item, booking⟩ := x
    rw [relancerTout, ChecklistSchedulerService.rappeler, Prog.bind_eq, Prog.pure_eq, Prog.bind_tryCatch, ← ih,
      relancer]
    simp only [Prog.void, Prog.bind_assoc, Prog.ret_bind]
    refine congrArg _ (funext fun r => ?_)
    cases r with
    | error x => rfl
    | ok _ =>
      simp only [Prog.tryCatch_ret, Prog.void, Prog.bind_assoc, Prog.ret_bind]

/-- The job is this one without its result. -/
theorem relances_void : relances.void = ChecklistSchedulerService.remindChecklistItems := by
  rw [relances, ChecklistSchedulerService.remindChecklistItems, Prog.void, Prog.bind_assoc, Prog.bind_eq]
  refine congrArg _ (funext fun now => ?_)
  exact (Prog.bind_assoc _ _ _).trans (congrArg _ (funext fun l => relancerTout_void now l))

/-- The handler of a request, with the reminders that it sends. -/
def temoin : Request → Req (List Rappel)
  | .job => relances
  | q => (handler q).bind fun _ => .ret []

/-- Without them it is the handler. -/
theorem temoin_void (q : Request) : (temoin q).void = handler q := by
  cases q with
  | job => exact relances_void
  | app q => exact (Prog.bind_assoc _ _ _).trans (Prog.bind_ret _)
  | updateStatus pilgrimId id isCompleted => exact (Prog.bind_assoc _ _ _).trans (Prog.bind_ret _)

/-- What is noted of a request: the reminders that it has sent. -/
def noter (h : List Rappel) (_ : Store) (_ : Request) (r : Except Erreur (List Rappel)) : List Rappel :=
  h ++ r.toOption.getD []

/-- The store after reminders. -/
def Store.apres (s : Store) (L : List Rappel) : Store where
  app := { s.app with notifications := s.app.notifications ++ L.map (·.avis) }
  reminderSent := s.reminderSent ++ (L.filter (·.marque)).map (·.id)

section Job

variable {ok : sig.Stmt → Store → Option Env → Prop} {s s' : Store} {now : Time}

theorem apres_append (s : Store) (L L' : List Rappel) : (s.apres L).apres L' = s.apres (L ++ L') := by
  simp only [Store.apres, List.map_append, List.filter_append, List.append_assoc]

theorem apres_nil (s : Store) : s.apres [] = s := by
  simp only [Store.apres, List.map_nil, List.filter_nil, List.append_nil]

theorem marquer_runs {id : ItemId} {r : Except Erreur Unit}
    (h : backend.RunsIf ok (ChecklistSchedulerService.marquer id) s r s') :
    s' = { s with reminderSent := s.reminderSent ++ if r.isOk then [id] else [] } := by
  rcases Backend.runsIf_bind.mp h with ⟨y, s₁, hmark, hrest⟩ | ⟨y, hmark, rfl⟩
  · rcases Backend.runsIf_faulty_exec hmark with ⟨e, -, hy, rfl⟩ | ⟨-, hy, -⟩
    · obtain rfl := Except.ok.inj hy
      rcases hitem : s.app.checklistItems[id]? with _ | item
      · simp only [base, exec, hitem] at hrest ⊢
        obtain ⟨rfl, rfl⟩ := hrest
        simp only [Except.isOk, Except.toBool, Bool.false_eq_true, if_false, List.append_nil]
      · simp only [base, exec, hitem] at hrest ⊢
        obtain ⟨rfl, rfl⟩ := hrest
        rfl
    · cases hy
  · rcases Backend.runsIf_faulty_exec hmark with ⟨e, -, hy, -⟩ | ⟨-, -, rfl⟩
    · cases hy
    · simp only [Except.isOk, Except.toBool, Bool.false_eq_true, if_false, List.append_nil]

/-- A turn of the loop: nothing is sent, or the reminder is, and its mark may fail. -/
theorem relancer_runs {x : ItemId × ChecklistItem × Booking} {r : Except Erreur (List Rappel)}
    (h : backend.RunsIf ok (relancer now x) s r s') :
    ∃ L, r = .ok L ∧ s' = s.apres L ∧
      (L = [] ∨ ∃ marque, L = [⟨x.1, avisDe x.2.1 x.2.2, now, marque⟩]) := by
  obtain ⟨id, item, booking⟩ := x
  rcases Backend.runsIf_bind.mp h with ⟨y, s₁, hsend, hrest⟩ | ⟨y, hsend, -⟩
  · obtain ⟨z, hz, hsend⟩ := Backend.runsIf_attempt.mp hsend
    obtain rfl := Except.ok.inj hz
    rcases Backend.runsIf_faulty_exec hsend with ⟨e, -, rfl, rfl⟩ | ⟨-, rfl, rfl⟩
    · rcases Backend.runsIf_bind.mp hrest with ⟨y, s₂, hmark, rfl, rfl⟩ | ⟨y, hmark, -⟩
      · refine ⟨_, rfl, ?_, .inr ⟨_, rfl⟩⟩
        obtain ⟨z, hz, hmark⟩ := Backend.runsIf_attempt.mp hmark
        obtain rfl := Except.ok.inj hz
        rw [marquer_runs hmark]
        cases y <;> rfl
      · obtain ⟨_, hy, -⟩ := Backend.runsIf_attempt.mp hmark
        cases hy
    · obtain ⟨rfl, rfl⟩ := hrest
      exact ⟨[], rfl, (apres_nil _).symm, .inl rfl⟩
  · obtain ⟨_, hy, -⟩ := Backend.runsIf_attempt.mp hsend
    cases hy

/-- What the loop may send: reminders of its items, each once. -/
structure Envois (now : Time) (l : List (ItemId × ChecklistItem × Booking)) (L : List Rappel) : Prop where
  ids : (L.map (·.id)).Sublist (l.map (·.1))
  avis : ∀ r ∈ L, ∃ x ∈ l, x.1 = r.id ∧ r.avis = avisDe x.2.1 x.2.2 ∧ r.now = now

theorem relancerTout_runs {l : List (ItemId × ChecklistItem × Booking)} {r : Except Erreur (List Rappel)}
    (h : backend.RunsIf ok (relancerTout now l) s r s') :
    ∃ L, r = .ok L ∧ s' = s.apres L ∧ Envois now l L := by
  induction l generalizing s r with
  | nil =>
    obtain ⟨rfl, rfl⟩ := h
    exact ⟨[], rfl, (apres_nil _).symm, .refl _, by rintro r ⟨⟩⟩
  | cons x l ih =>
    rcases Backend.runsIf_bind.mp h with ⟨a, s₁, hx, hrest⟩ | ⟨y, hx, -⟩
    · obtain ⟨L, hL, rfl, hone⟩ := relancer_runs hx
      obtain rfl := Except.ok.inj hL
      rcases Backend.runsIf_bind.mp hrest with ⟨b, s₂, hl, rfl, rfl⟩ | ⟨y, hl, -⟩
      · obtain ⟨L', hL', rfl, henvois⟩ := ih hl
        obtain rfl := Except.ok.inj hL'
        refine ⟨_, rfl, apres_append s a b, ?_, fun r hr => ?_⟩
        · rw [List.map_append, List.map_cons]
          rcases hone with rfl | ⟨marque, rfl⟩
          · exact henvois.ids.cons _
          · exact henvois.ids.cons_cons _
        · rcases List.mem_append.mp hr with hr | hr
          · rcases hone with rfl | ⟨marque, rfl⟩
            · cases hr
            · obtain rfl := List.mem_singleton.mp hr
              exact ⟨x, List.mem_cons_self, rfl, rfl, rfl⟩
          · obtain ⟨y, hy, hyr⟩ := henvois.avis r hr
            exact ⟨y, List.mem_cons_of_mem _ hy, hyr⟩
      · obtain ⟨L', hL', -⟩ := ih hl
        cases hL'
    · obtain ⟨L, hL, -⟩ := relancer_runs hx
      cases hL

/-- The reminder is that of an item to do, that is not marked. -/
def Du (s : Store) (r : Rappel) : Prop :=
  ∃ item booking, s.item r.id = some (item, booking) ∧ aFaire r.now item = true ∧ r.id ∉ s.reminderSent ∧
    r.avis = avisDe item booking

theorem mem_aRappeler {id : ItemId} {item : ChecklistItem} {booking : Booking} :
    (id, item, booking) ∈ s.aRappeler now ↔
      s.item id = some (item, booking) ∧ aFaire now item = true ∧ id ∉ s.reminderSent := by
  rw [Store.aRappeler, List.mem_filterMap, Store.item]
  constructor
  · rintro ⟨⟨i, x⟩, hx, hb⟩
    obtain ⟨b, hbooking, heq⟩ := Option.map_eq_some_iff.mp hb
    obtain ⟨rfl, hrest⟩ := Prod.mk.inj heq
    obtain ⟨rfl, rfl⟩ := Prod.mk.inj hrest
    obtain ⟨hx, hmark⟩ := List.mem_filter.mp hx
    obtain ⟨hrow, hdo⟩ := List.mem_filter.mp hx
    refine ⟨?_, hdo, by simpa using hmark⟩
    rw [Table.mem_withIds.mp hrow, Option.bind_some, hbooking]
    rfl
  · rintro ⟨hitem, hdo, hmark⟩
    obtain ⟨x, hrow, hb⟩ := Option.bind_eq_some_iff.mp hitem
    obtain ⟨b, hbooking, heq⟩ := Option.map_eq_some_iff.mp hb
    obtain ⟨rfl, rfl⟩ := Prod.mk.inj heq
    refine ⟨(id, x), List.mem_filter.mpr ⟨List.mem_filter.mpr ⟨Table.mem_withIds.mpr hrow, hdo⟩, ?_⟩, ?_⟩
    · simpa using hmark
    · exact congrArg (Option.map fun b => (id, x, b)) hbooking

theorem aRappeler_ids (s : Store) (now : Time) : ((s.aRappeler now).map (·.1)).Nodup := by
  have hpairwise : (s.aRappeler now).Pairwise fun x y => x.1 ≠ y.1 := by
    refine (((Table.withIds_pairwise _).filter _).filter _).filterMap _ fun x y hne b hb b' hb' => ?_
    obtain ⟨_, -, rfl⟩ := Option.map_eq_some_iff.mp hb
    obtain ⟨_, -, rfl⟩ := Option.map_eq_some_iff.mp hb'
    exact hne
  exact List.pairwise_map.mpr hpairwise

/-- The job. -/
theorem relances_runs {r : Except Erreur (List Rappel)} (h : backend.RunsIf ok relances s r s') :
    s' = s.apres (r.toOption.getD []) ∧ ((r.toOption.getD []).map (·.id)).Nodup ∧
      ∀ x ∈ r.toOption.getD [], Du s x := by
  have hnone : s = s.apres [] ∧ (([] : List Rappel).map (·.id)).Nodup ∧ ∀ x ∈ ([] : List Rappel), Du s x :=
    ⟨(apres_nil s).symm, List.nodup_nil, by rintro x ⟨⟩⟩
  rcases Backend.runsIf_bind.mp h with ⟨now, s₁, hnow, hrest⟩ | ⟨y, hnow, rfl⟩
  · obtain rfl : s₁ = s := by
      rcases Backend.runsIf_faulty_exec hnow with ⟨e, -, -, rfl⟩ | ⟨-, -, rfl⟩ <;> rfl
    rcases Backend.runsIf_bind.mp hrest with ⟨l, s₂, hfind, hloop⟩ | ⟨y, hfind, rfl⟩
    · rcases Backend.runsIf_faulty_exec hfind with ⟨e, -, hl, rfl⟩ | ⟨-, hl, -⟩
      · obtain rfl := Except.ok.inj hl
        obtain ⟨L, rfl, rfl, henvois⟩ := relancerTout_runs hloop
        refine ⟨rfl, henvois.ids.nodup (aRappeler_ids _ now), fun x hx => ?_⟩
        obtain ⟨⟨id, item, booking⟩, hmem, rfl, havis, rfl⟩ := henvois.avis x hx
        obtain ⟨hitem, hdo, hmark⟩ := mem_aRappeler.mp hmem
        exact ⟨item, booking, hitem, hdo, hmark, havis⟩
      · cases hl
    · rcases Backend.runsIf_faulty_exec hfind with ⟨e, -, hl, -⟩ | ⟨-, -, rfl⟩
      · cases hl
      · exact hnone
  · rcases Backend.runsIf_faulty_exec hnow with ⟨e, -, hl, -⟩ | ⟨-, -, rfl⟩
    · cases hl
    · exact hnone

end Job

/-! ## Nothing is forgotten -/

/-- No statement fails, and the time is `now`. -/
def SansPanne (now : Time) : sig.Stmt → Store → Option Env → Prop := fun c _ e =>
  ∃ e', e = some e' ∧ (c = .inl .now → e'.now = now)

section Complete

variable {s s' : Store} {now : Time}

theorem sansPanne_exec {x : Erreur} {c : sig.Stmt} {r : Except Erreur (sig.Resp c)}
    (h : backend.RunsIf (SansPanne now) ((Prog.exec (S := sig) c).faulty x) s r s') :
    ∃ e, (c = .inl .now → e.now = now) ∧ r = .ok (base.exec c e s).1 ∧ s' = (base.exec c e s).2 := by
  rcases Backend.runsIf_faulty_exec h with ⟨e, ⟨e', he, hnow⟩, hr, hs⟩ | ⟨⟨e', he, -⟩, -⟩
  · obtain rfl := Option.some.inj he
    exact ⟨e, hnow, hr, hs⟩
  · cases he

theorem marquer_complet {id : ItemId} {r : Except Erreur Unit}
    (hx : ∃ item, s.app.checklistItems[id]? = some item)
    (h : backend.RunsIf (SansPanne now) (ChecklistSchedulerService.marquer id) s r s') : r = .ok () := by
  obtain ⟨item, hx⟩ := hx
  rcases Backend.runsIf_bind.mp h with ⟨o, s₁, ho, hrest⟩ | ⟨y, ho, -⟩
  · obtain ⟨e, -, heq, rfl⟩ := sansPanne_exec ho
    obtain rfl := Except.ok.inj heq
    simp only [base, exec, hx] at hrest
    exact hrest.1
  · obtain ⟨e, -, heq, -⟩ := sansPanne_exec ho
    cases heq

theorem relancer_complet {x : ItemId × ChecklistItem × Booking} {r : Except Erreur (List Rappel)}
    (hx : s.app.checklistItems[x.1]? = some x.2.1)
    (h : backend.RunsIf (SansPanne now) (relancer now x) s r s') :
    r = .ok [⟨x.1, avisDe x.2.1 x.2.2, now, true⟩] := by
  obtain ⟨id, item, booking⟩ := x
  rcases Backend.runsIf_bind.mp h with ⟨y, s₁, hsend, hrest⟩ | ⟨y, hsend, -⟩
  · obtain ⟨z, hz, hsend⟩ := Backend.runsIf_attempt.mp hsend
    obtain rfl := Except.ok.inj hz
    obtain ⟨e, -, rfl, rfl⟩ := sansPanne_exec hsend
    rcases Backend.runsIf_bind.mp hrest with ⟨y, s₂, hmark, rfl, -⟩ | ⟨y, hmark, -⟩
    · obtain ⟨z, hz, hmark⟩ := Backend.runsIf_attempt.mp hmark
      obtain rfl := Except.ok.inj hz
      have hdone : y = .ok () := marquer_complet (by exact ⟨item, hx⟩) hmark
      rw [hdone]
      rfl
    · obtain ⟨_, hy, -⟩ := Backend.runsIf_attempt.mp hmark
      cases hy
  · obtain ⟨_, hy, -⟩ := Backend.runsIf_attempt.mp hsend
    cases hy

/-- The loop marks every item. -/
theorem relancerTout_complet {l : List (ItemId × ChecklistItem × Booking)} {r : Except Erreur (List Rappel)}
    (hl : ∀ x ∈ l, s.app.checklistItems[x.1]? = some x.2.1)
    (h : backend.RunsIf (SansPanne now) (relancerTout now l) s r s') : ∀ x ∈ l, x.1 ∈ s'.reminderSent := by
  induction l generalizing s r with
  | nil => rintro x ⟨⟩
  | cons x l ih =>
    rcases Backend.runsIf_bind.mp h with ⟨a, s₁, hx, hrest⟩ | ⟨y, hx, -⟩
    · obtain ⟨L, hL, rfl, -⟩ := relancer_runs hx
      obtain rfl := Except.ok.inj hL
      obtain rfl := Except.ok.inj (relancer_complet (hl x List.mem_cons_self) hx)
      rcases Backend.runsIf_bind.mp hrest with ⟨b, s₂, hloop, -, rfl⟩ | ⟨y, hloop, -⟩
      · have hl' : ∀ y ∈ l, (s.apres [⟨x.1, avisDe x.2.1 x.2.2, now, true⟩]).app.checklistItems[y.1]? =
            some y.2.1 := fun y hy => hl y (List.mem_cons_of_mem _ hy)
        have hrec := ih hl' hloop
        obtain ⟨L', -, rfl, -⟩ := relancerTout_runs hloop
        intro y hy
        rcases List.mem_cons.mp hy with rfl | hy
        · exact List.mem_append_left _ (List.mem_append_right _ (List.mem_singleton.mpr rfl))
        · exact hrec y hy
      · obtain ⟨L', hL', -⟩ := relancerTout_runs hloop
        cases hL'
    · obtain ⟨L, hL, -⟩ := relancer_runs hx
      cases hL

/-- After an execution none of whose statements fails, no item to do is left without its reminder. -/
theorem relances_complet {r : Except Erreur (List Rappel)} (h : backend.RunsIf (SansPanne now) relances s r s')
    {id : ItemId} {item : ChecklistItem} {booking : Booking} (hitem : s.item id = some (item, booking))
    (hdo : aFaire now item = true) : id ∈ s'.reminderSent := by
  have hleft : ∀ i ∈ s.reminderSent, i ∈ s'.reminderSent := by
    intro i hi
    rw [(relances_runs h).1]
    exact List.mem_append_left _ hi
  by_cases hmark : id ∈ s.reminderSent
  · exact hleft id hmark
  rcases Backend.runsIf_bind.mp h with ⟨t, s₁, hnow, hrest⟩ | ⟨y, hnow, -⟩
  · obtain ⟨e, he, ht, rfl⟩ := sansPanne_exec hnow
    obtain rfl : t = now := (Except.ok.inj ht).trans (he rfl)
    rcases Backend.runsIf_bind.mp hrest with ⟨l, s₂, hfind, hloop⟩ | ⟨y, hfind, -⟩
    · obtain ⟨e', -, hl, rfl⟩ := sansPanne_exec hfind
      obtain rfl := Except.ok.inj hl
      refine relancerTout_complet (fun x hx => ?_) hloop (id, item, booking)
        (mem_aRappeler.mpr ⟨hitem, hdo, hmark⟩)
      obtain ⟨hx, -, -⟩ := mem_aRappeler.mp hx
      obtain ⟨y, hrow, hb⟩ := Option.bind_eq_some_iff.mp hx
      obtain ⟨b, -, heq⟩ := Option.map_eq_some_iff.mp hb
      exact hrow.trans (congrArg some (Prod.mk.inj heq).1)
    · obtain ⟨e', -, hl, -⟩ := sansPanne_exec hfind
      cases hl
  · obtain ⟨e, -, hl, -⟩ := sansPanne_exec hnow
    cases hl

end Complete

/-! ## Runs -/

/-- The statement marks no item. -/
def Autre : sig.Stmt → Prop
  | .inr (.checklistItemRemind _) => False
  | _ => True

theorem notifications_grow (c : OumraHajj.Stmt) (e : Env) (d : Db) :
    d.notifications <+: (OumraHajj.exec c e d).2.notifications := by
  cases c
  case notificationCreateMany data => exact List.prefix_append _ _
  all_goals first
    | exact List.prefix_rfl
    | simp only [OumraHajj.exec]
      split <;> exact List.prefix_rfl

/-- What a request but the job does to the reminders: nothing. -/
theorem autre_runs {α : Type} {p : Req α} (hp : Prog.Uses (S := sig.faulty) Autre p) {s s' : Store}
    {r : Except Erreur α} (h : backend.Runs p s r s') :
    s'.reminderSent = s.reminderSent ∧ s.app.notifications <+: s'.app.notifications := by
  refine h.frame (R := fun s s' : Store => s'.reminderSent = s.reminderSent ∧
    s.app.notifications <+: s'.app.notifications) (fun _ => ⟨rfl, List.prefix_rfl⟩)
    (fun _ _ _ h h' => ⟨h'.1.trans h.1, h.2.trans h'.2⟩) ?_ hp
  rintro c hc (_ | e) s
  · exact ⟨rfl, List.prefix_rfl⟩
  rcases c with c | c
  · exact ⟨rfl, notifications_grow c e s.app⟩
  · show (exec c s).2.reminderSent = s.reminderSent ∧ s.app.notifications <+: (exec c s).2.app.notifications
    cases c
    case checklistItemRemind => exact hc.elim
    case checklistItemUpdate id isCompleted =>
      simp only [exec]
      split <;> exact ⟨rfl, List.prefix_rfl⟩
    all_goals exact ⟨rfl, List.prefix_rfl⟩

theorem handler_autre {q : Request} (hq : q ≠ .job) : Prog.Uses (S := sig.faulty) Autre (handler q) := by
  cases q with
  | app q => exact (Prog.uses_left (A := Autre) (fun _ => trivial) _).faulty
  | updateStatus pilgrimId id isCompleted =>
    refine Prog.Uses.void (S := sig.faulty) ?_
    refine Prog.Uses.bind (S := sig.faulty) (Prog.Uses.faulty ⟨trivial, fun _ => trivial⟩) fun o => ?_
    rcases o with _ | ⟨item, booking⟩
    · trivial
    show Prog.Uses (S := sig.faulty) Autre (if booking.pilgrimId ≠ pilgrimId then _ else _)
    split
    · trivial
    · refine Prog.Uses.bind (S := sig.faulty) (Prog.Uses.faulty ⟨trivial, fun _ => trivial⟩) fun o => ?_
      cases o <;> trivial
  | job => exact absurd rfl hq

/-- One request: the reminders that it sends, and the rest. -/
theorem temoin_runs {q : Request} {s s' : Store} {r : Except Erreur (List Rappel)}
    (h : backend.Runs (temoin q) s r s') :
    (r.toOption.getD [] = [] ∧ s'.reminderSent = s.reminderSent ∧
      s.app.notifications <+: s'.app.notifications) ∨
      (q = .job ∧ s' = s.apres (r.toOption.getD []) ∧ ((r.toOption.getD []).map (·.id)).Nodup ∧
        ∀ x ∈ r.toOption.getD [], Du s x) := by
  by_cases hq : q = .job
  · subst hq
    exact .inr ⟨rfl, relances_runs (Backend.runsIf_true.mpr h)⟩
  · have htemoin : temoin q = (handler q).bind fun _ => .ret [] := by
      cases q with
      | job => exact absurd rfl hq
      | app q => rfl
      | updateStatus pilgrimId id isCompleted => rfl
    rw [htemoin] at h
    rcases Backend.runs_bind.mp h with ⟨_, s₁, hrun, rfl, rfl⟩ | ⟨x, hrun, rfl⟩
    · exact .inl ⟨rfl, autre_runs (handler_autre hq) hrun⟩
    · exact .inl ⟨rfl, autre_runs (handler_autre hq) hrun⟩

/-- The reminders that were sent since the store `s₀`, and the marks. -/
structure Suivi (s₀ : Store) (x : Store × List Rappel) : Prop where
  marques : ∀ id, id ∈ x.1.reminderSent ↔ id ∈ s₀.reminderSent ∨ ∃ r ∈ x.2, r.id = id ∧ r.marque = true
  libres : ∀ r ∈ x.2, r.id ∉ s₀.reminderSent
  /-- An item is reminded again only where its mark has failed. -/
  ordre : x.2.Pairwise fun r r' => r.id = r'.id → r.marque = false
  envoyes : ∃ l, x.1.app.notifications = s₀.app.notifications ++ l ∧ (x.2.map (·.avis)).Sublist l

section Suivi

variable {s₀ : Store} {x : Store × List Rappel}

theorem Suivi.init (s : Store) : Suivi s (s, []) :=
  ⟨fun _ => ⟨.inl, fun h => h.elim id (by rintro ⟨r, ⟨⟩, -⟩)⟩, by rintro r ⟨⟩, .nil,
    [], (List.append_nil _).symm, .refl _⟩

/-- A request that sends no reminder. -/
theorem Suivi.autre (h : Suivi s₀ x) {s' : Store} (hmarks : s'.reminderSent = x.1.reminderSent)
    (hnotifs : x.1.app.notifications <+: s'.app.notifications) : Suivi s₀ (s', x.2) := by
  refine ⟨fun id => hmarks ▸ h.marques id, h.libres, h.ordre, ?_⟩
  obtain ⟨l, hl, hsub⟩ := h.envoyes
  obtain ⟨l', hl'⟩ := hnotifs
  exact ⟨l ++ l', by rw [← hl', hl, List.append_assoc], hsub.trans (List.sublist_append_left _ _)⟩

/-- An execution of the job. -/
theorem Suivi.job (h : Suivi s₀ x) {L : List Rappel} (hids : (L.map (·.id)).Nodup) (hdu : ∀ r ∈ L, Du x.1 r) :
    Suivi s₀ (x.1.apres L, x.2 ++ L) := by
  have hfree : ∀ r ∈ L, r.id ∉ x.1.reminderSent := fun r hr => by
    obtain ⟨_, _, -, -, hmark, -⟩ := hdu r hr
    exact hmark
  refine ⟨fun id => ?_, fun r hr => ?_, ?_, ?_⟩
  · show id ∈ x.1.reminderSent ++ (L.filter (·.marque)).map (·.id) ↔ _
    rw [List.mem_append, h.marques id, List.mem_map]
    constructor
    · rintro ((h₀ | ⟨r, hr, hid, hm⟩) | ⟨r, hr, hid⟩)
      · exact .inl h₀
      · exact .inr ⟨r, List.mem_append_left _ hr, hid, hm⟩
      · exact .inr ⟨r, List.mem_append_right _ (List.mem_filter.mp hr).1, hid, (List.mem_filter.mp hr).2⟩
    · rintro (h₀ | ⟨r, hr, hid, hm⟩)
      · exact .inl (.inl h₀)
      · rcases List.mem_append.mp hr with hr | hr
        · exact .inl (.inr ⟨r, hr, hid, hm⟩)
        · exact .inr ⟨r, List.mem_filter.mpr ⟨hr, hm⟩, hid⟩
  · rcases List.mem_append.mp hr with hr | hr
    · exact h.libres r hr
    · exact fun h₀ => hfree r hr ((h.marques r.id).mpr (.inl h₀))
  · refine List.pairwise_append.mpr ⟨h.ordre, ?_, fun r hr r' hr' hid => ?_⟩
    · exact (List.pairwise_map.mp hids).imp fun hne hid => absurd hid hne
    · -- the item was not marked when the job has read it
      by_contra hm
      have hmark : r.id ∈ x.1.reminderSent :=
        (h.marques r.id).mpr (.inr ⟨r, hr, rfl, by simpa using hm⟩)
      exact hfree r' hr' (hid ▸ hmark)
  · obtain ⟨l, hl, hsub⟩ := h.envoyes
    refine ⟨l ++ L.map (·.avis), ?_, ?_⟩
    · show x.1.app.notifications ++ L.map (·.avis) = _
      rw [hl, List.append_assoc]
    · rw [List.map_append]
      exact hsub.append (.refl _)

/-- At most the last reminder of an item is marked. -/
theorem countP_marque {h : List Rappel} (hordre : h.Pairwise fun r r' => r.id = r'.id → r.marque = false)
    (id : ItemId) : h.countP (fun r => r.id = id ∧ r.marque = true) =
      if ∃ r ∈ h, r.id = id ∧ r.marque = true then 1 else 0 := by
  induction h with
  | nil => rfl
  | cons r h ih =>
    obtain ⟨hr, hordre⟩ := List.pairwise_cons.mp hordre
    rw [List.countP_cons, ih hordre]
    by_cases hm : r.id = id ∧ r.marque = true
    · have hnone : ¬∃ r' ∈ h, r'.id = id ∧ r'.marque = true := by
        rintro ⟨r', hr', hid, -⟩
        have hfalse := hr r' hr' (hm.1.trans hid.symm)
        rw [hm.2] at hfalse
        cases hfalse
      rw [if_neg hnone, if_pos (by simpa using hm), if_pos ⟨r, List.mem_cons_self, hm⟩]
    · have hiff : (∃ r' ∈ r :: h, r'.id = id ∧ r'.marque = true) ↔
          ∃ r' ∈ h, r'.id = id ∧ r'.marque = true := by
        simp only [List.exists_mem_cons_iff, hm, false_or]
      simp only [hiff, if_neg (show ¬decide (r.id = id ∧ r.marque = true) = true by simpa using hm), Nat.add_zero]

/-- The reminders of an item: one for its mark, and one for each mark that has failed. -/
theorem Suivi.countP (h : Suivi s₀ x) (id : ItemId) :
    x.2.countP (·.id = id) = x.2.countP (fun r => r.id = id ∧ r.marque = false) +
      if id ∈ x.1.reminderSent ∧ id ∉ s₀.reminderSent then 1 else 0 := by
  have hsplit : x.2.countP (·.id = id) = x.2.countP (fun r => r.id = id ∧ r.marque = false) +
      x.2.countP fun r => r.id = id ∧ r.marque = true := by
    clear h
    induction x.2 with
    | nil => rfl
    | cons r l ih =>
      simp only [List.countP_cons, ih]
      by_cases hid : r.id = id <;> cases r.marque <;> simp [hid] <;> omega
  have hiff : (id ∈ x.1.reminderSent ∧ id ∉ s₀.reminderSent) ↔ ∃ r ∈ x.2, r.id = id ∧ r.marque = true := by
    rw [h.marques id]
    constructor
    · rintro ⟨h₀ | hr, hnot⟩
      · exact absurd h₀ hnot
      · exact hr
    · rintro ⟨r, hr, rfl, hm⟩
      exact ⟨.inr ⟨r, hr, rfl, hm⟩, h.libres r hr⟩
  rw [hsplit, countP_marque h.ordre id]
  simp only [hiff]

end Suivi

/-- **The reminders of a checklist.** In every run of requests, where any statement may fail: a reminder is sent by
the job only, of an item that was to do and not marked when the job has read it; once marked, an item is reminded
no more, and it was reminded once for its mark and once for each mark that has failed; each reminder is a
notification; and an execution of the job where nothing fails leaves no item to do without its reminder. -/
theorem checklist_reminded {s : Store} {tr : Trace Request (Store × List Rappel)}
    (hrun : backend.RunWith temoin noter (s, []) tr) :
    Trace.Steps (fun x q y => ∃ L, y.2 = x.2 ++ L ∧ ∀ r ∈ L, q = .job ∧ Du x.1 r) (s, []) tr ∧
      Suivi s (Trace.last (s, []) tr) ∧
      (∀ id, (Trace.last (s, []) tr).2.countP (·.id = id) =
        (Trace.last (s, []) tr).2.countP (fun r => r.id = id ∧ r.marque = false) +
          if id ∈ (Trace.last (s, []) tr).1.reminderSent ∧ id ∉ s.reminderSent then 1 else 0) ∧
      ∀ now r s', backend.RunsIf (SansPanne now) (temoin .job) (Trace.last (s, []) tr).1 r s' →
        ∀ id item booking, (Trace.last (s, []) tr).1.item id = some (item, booking) →
          aFaire now item = true → id ∈ s'.reminderSent := by
  have hsuivi : Suivi s (Trace.last (s, []) tr) := by
    refine hrun.last (I := Suivi s) ?_ (.init s)
    rintro x q ⟨s', h'⟩ hx ⟨r, hr, rfl⟩
    rcases temoin_runs hr with ⟨hnil, hmarks, hnotifs⟩ | ⟨-, rfl, hids, hdu⟩
    · rw [noter, hnil, List.append_nil]
      exact hx.autre hmarks hnotifs
    · exact hx.job hids hdu
  refine ⟨hrun.imp ?_, hsuivi, hsuivi.countP, fun now r s' h id item booking => relances_complet h⟩
  rintro x q y ⟨r, hr, hy⟩
  rcases temoin_runs hr with ⟨hnil, -, -⟩ | ⟨rfl, -, -, hdu⟩
  · exact ⟨[], hnil ▸ hy, by rintro r ⟨⟩⟩
  · exact ⟨_, hy, fun r hr => ⟨rfl, hdu r hr⟩⟩

/-- An item to do and one that is done. -/
private def valise : Store where
  app := { Db.exemple with
    bookings := [Booking.exemple]
    checklistItems :=
      [{ bookingId := 0, title := "Préparer la valise", category := "luggage", reminderDate := some 0 },
        { bookingId := 0, title := "Effectuer le vaccin contre la méningite", category := "vaccine"
          isCompleted := true, reminderDate := some 0 }] }

/-- An execution of the job; `panneDe` are the statements that fail. -/
private def passage (panneDe : sig.Stmt → Bool) (x : Store × List Rappel) : Store × List Rappel :=
  let r := backend.evalBy (fun c => if panneDe c then none else some { now := 0 }) (temoin .job) x.1
  (r.2, noter x.2 x.1 .job r.1)

private def marque : sig.Stmt → Bool
  | .inr (.checklistItemRemind _) => true
  | _ => false

/-- The mark fails on the first day. -/
private def troisJours : Trace Request (Store × List Rappel) :=
  let x₁ := passage marque (valise, [])
  let x₂ := passage (fun _ => false) x₁
  [(.job, x₁), (.job, x₂), (.job, passage (fun _ => false) x₂)]

/-- The item to do is reminded on the first two days, and the other one never. -/
theorem checklist_reminded_trois_jours :
    ((Trace.last (valise, []) troisJours).2.map fun r => (r.id, r.marque)) = [(0, false), (0, true)] ∧
      Suivi valise (Trace.last (valise, []) troisJours) := by
  have hrun : backend.RunWith temoin noter (valise, []) troisJours :=
    ⟨⟨_, Backend.evalBy_runs _ _ _, rfl⟩, ⟨_, Backend.evalBy_runs _ _ _, rfl⟩, ⟨_, Backend.evalBy_runs _ _ _, rfl⟩,
      trivial⟩
  exact ⟨by decide +kernel, (checklist_reminded hrun).2.1⟩

end OumraHajj.Checklist
