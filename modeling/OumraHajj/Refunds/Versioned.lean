import OumraHajj.Async.Versions
import OumraHajj.Catalogue.Handlers
import OumraHajj.Refunds.Schedule

/-!
# The schedules at READ COMMITTED

The requests of the catalogue where `replaceForOwner` replaces the tiers in the transaction that it is:
`deleteMany`, then `createMany`, at READ COMMITTED, so that other requests come in between. The tiers are
in a table of versions (`Async/Versions.lean`); the other tables are as before, and `Store.db` is the
committed database.

`handler_runs`: a request that runs alone does what it does where the transaction is one statement, or
it is the victim of a deadlock.
-/

namespace OumraHajj.Refunds

open Async Catalogue

structure Env extends OumraHajj.Env where
  deadlock : Bool := false

structure Store (ι : Type) where
  /-- The tables other than the tiers. -/
  app : Db
  tiers : Versions ι RefundPolicyTier

/-- The committed database. -/
def Store.db {ι : Type} (s : Store ι) : Db := { s.app with refundPolicyTiers := s.tiers.values }

/-- The database before any transaction. -/
def Store.init {ι : Type} (s : Db) : Store ι := ⟨s, .init s.refundPolicyTiers⟩

/-- The statements of the catalogue, and those on the tiers. -/
abbrev sig (ι : Type) : Sig := Catalogue.sig.sum (rowSig ι RefundPolicyTier)

/-- A request handler. -/
abbrev Req (ι : Type) := Prog (sig ι) Erreur

section Sessions

variable {ι : Type} [DecidableEq ι]

def backend : Backend (sig ι) (Store ι) Env where
  exec
    | .inl c, e, s =>
      ((Catalogue.backend.exec c e.toEnv s.db).1,
        { s with app := (Catalogue.backend.exec c e.toEnv s.db).2 })
    | .inr c, e, s =>
      ((Versions.exec tierKey c e.deadlock s.tiers).1,
        { s with tiers := (Versions.exec tierKey c e.deadlock s.tiers).2 })

/-- The code of Prisma. -/
def code : Refusal → String
  | .unique => "P2002"
  | .deadlock => "P2034"

/-- The transaction of `replaceForOwner`, as the session `t`. -/
def replaceTiers (t : ι) (agencyId : AgencyId) (data : List RefundPolicyTier) :
    Req ι (Except String Unit) :=
  ((Versions.replaceMany t (fun x => decide (x.agencyId = agencyId)) data).via Sig.inr).bind fun
    | .ok _ => .ret (.ok ())
    | .error refusal => .ret (.error (code refusal))

/-- A statement of the catalogue, as the session `t`. -/
def statement (t : ι) : (c : Catalogue.sig.Stmt) → Req ι (Catalogue.sig.Resp c)
  | .inr (.refundPolicyTierReplace agencyId data) => replaceTiers t agencyId data
  | .inr (.agencyFindUnique id) => Prog.exec (S := sig ι) (.inl (.inr (.agencyFindUnique id)))
  | .inr (.packageCreate data) => Prog.exec (S := sig ι) (.inl (.inr (.packageCreate data)))
  | .inr (.packageUpdate id data) => Prog.exec (S := sig ι) (.inl (.inr (.packageUpdate id data)))
  | .inl c => Prog.exec (S := sig ι) (.inl (.inl c))

/-- The handler of a request, as the session `t`. -/
def handler (t : ι) (q : Catalogue.Request) : Req ι Unit := (Catalogue.handler q).expand (statement t)

/-- The requests run at once, each as a session of its own. -/
def poolOf (requests : ι → Catalogue.Request) (s : Db) : Pool (sig ι) ι (Store ι) Erreur Unit :=
  ⟨fun t => handler t (requests t), .init s⟩

/-- The statement waits for no other session. -/
def Ready (s : Store ι) : (sig ι).Stmt → Prop
  | .inl _ => True
  | .inr c => s.tiers.Free tierKey c

instance [Fintype ι] (s : Store ι) : (c : (sig ι).Stmt) → Decidable (Ready s c)
  | .inl _ => isTrue trivial
  | .inr c => inferInstanceAs (Decidable (s.tiers.Free tierKey c))

omit [DecidableEq ι] in
theorem init_db (s : Db) : (Store.init s : Store ι).db = s := by
  have hvalues : (Versions.init s.refundPolicyTiers : Versions ι _).values = s.refundPolicyTiers := by
    rw [Versions.values, Versions.init, List.map_map]
    exact List.zipIdx_map_fst 0 _
  rw [Store.db, Store.init, hvalues]

theorem exec_tiers {c : Catalogue.sig.Stmt} (hc : Single c) (e : OumraHajj.Env) (s : Db) :
    (Catalogue.backend.exec c e s).2.refundPolicyTiers = s.refundPolicyTiers := by
  rcases c with c | c
  · exact exec_refundPolicyTiers c e s
  · cases c with
    | agencyFindUnique id => rfl
    | packageCreate data =>
      simp only [Catalogue.backend, Catalogue.exec]
      split <;> rfl
    | packageUpdate id data =>
      simp only [Catalogue.backend, Catalogue.exec]
      split <;> rfl
    | refundPolicyTierReplace agencyId data => exact hc.elim

/-- The statements of the catalogue act on the committed database. -/
theorem extends_catalogue :
    Backend.Extends Single Catalogue.backend (backend (ι := ι)) Store.db Env.toEnv := by
  intro c hc e s
  refine Prod.ext rfl ?_
  have htiers : (Catalogue.backend.exec c e.toEnv s.db).2.refundPolicyTiers = s.tiers.values :=
    exec_tiers hc e.toEnv s.db
  show _ = { (Catalogue.backend.exec c e.toEnv s.db).2 with refundPolicyTiers := s.tiers.values }
  rw [← htiers]

theorem hosts_tiers :
    Versions.Hosts tierKey (backend (ι := ι)) Store.tiers Env.deadlock := fun _ _ _ => rfl

/-! ## A request that runs alone -/

variable {t : ι} {s s' : Store ι}

/-- The statements on the tiers leave the other tables. -/
theorem app_of_via {α : Type} {p : Prog (rowSig ι RefundPolicyTier) Erreur α} {r : Except Erreur α}
    (h : backend.Runs (p.via Sig.inr) s r s') : s'.app = s.app := by
  have huses : (p.via (Sig.inr (S := Catalogue.sig))).Uses fun c : (sig ι).Stmt => ∃ x, c = Sum.inr x :=
    (Prog.uses_true p).via fun c _ => ⟨c, rfl⟩
  refine h.frame (R := fun s s' : Store ι => s'.app = s.app) (fun _ => rfl)
    (fun _ _ _ h h' => h'.trans h) ?_ huses
  rintro _ ⟨c, rfl⟩ e s
  rfl

/-- The transaction does what it does as one statement. -/
theorem replaceTiers_runs {agencyId : AgencyId} {data : List RefundPolicyTier}
    {r : Except Erreur (Except String Unit)} (hn : (s.db.refundPolicyTiers.map tierKey).Nodup)
    (h : backend.Runs (replaceTiers t agencyId data) s r s') :
    r = .ok (Catalogue.replaceTiers s.db agencyId data).1 ∧
        s'.db = (Catalogue.replaceTiers s.db agencyId data).2 ∨
      r = .ok (.error (code .deadlock)) ∧ s'.db = s.db := by
  rcases Backend.runs_bind.mp h with ⟨a, s₁, hp, h₁⟩ | ⟨x, hp, -⟩
  swap
  · obtain ⟨⟨⟩, -⟩ | ⟨⟨⟩, -⟩ | ⟨⟨⟩, -⟩ := Versions.replaceMany_runs hn (hosts_tiers.runs hp)
  have happ := app_of_via hp
  have hfilter : s.tiers.values.filter (fun x => ¬ decide (x.agencyId = agencyId)) =
      s.db.refundPolicyTiers.filter (·.agencyId ≠ agencyId) :=
    List.filter_congr fun x _ => by simp
  have hdb : ∀ l, s₁.tiers.values = l → s₁.db = { s.db with refundPolicyTiers := l } := by
    rintro l rfl
    rw [Store.db, happ]
    rfl
  have hreplaced := Versions.replaceMany_runs hn (hosts_tiers.runs hp)
  simp only [hfilter] at hreplaced
  obtain ⟨⟨⟩, hvalues, hnodup⟩ | ⟨⟨⟩, hvalues, hnodup⟩ | ⟨⟨⟩, hvalues⟩ := hreplaced
  · obtain ⟨rfl, rfl⟩ := h₁
    refine .inl ?_
    simp only [Catalogue.replaceTiers, if_pos hnodup]
    exact ⟨trivial, hdb _ hvalues⟩
  · obtain ⟨rfl, rfl⟩ := h₁
    refine .inl ?_
    simp only [Catalogue.replaceTiers, if_neg hnodup]
    exact ⟨rfl, hdb _ hvalues⟩
  · obtain ⟨rfl, rfl⟩ := h₁
    exact .inr ⟨rfl, hdb _ hvalues⟩

theorem runs_left {α : Type} {p : Catalogue.Req α} (hp : p.Uses Single) {r : Except Erreur α}
    (h : backend.Runs p.left s r s') : Catalogue.backend.Runs p s.db r s'.db :=
  runs_of_left extends_catalogue hp h

omit [DecidableEq ι] in
/-- A handler that replaces no schedule, among the statements of the session. -/
theorem expand_single (t : ι) {α : Type} {p : Catalogue.Req α} (hp : p.Uses Single) :
    p.expand (statement t) = p.left := by
  refine Prog.expand_eq_left (fun c hc => ?_) hp
  rcases c with c | c
  · rfl
  · cases c with
    | refundPolicyTierReplace agencyId data => exact hc.elim
    | _ => rfl

theorem single_owner (ownerId : UserId) :
    (Prog.left (AgenciesService.findByOwnerOrFail ownerId) : Catalogue.Req AgencyShape).Uses Single :=
  Prog.uses_left (fun _ => trivial) _

theorem single_getForAgency (agencyId : AgencyId) :
    (RefundPolicyService.getForAgency agencyId).Uses Single := ⟨trivial, fun _ => trivial⟩

theorem replaceForOwner_runs {ownerId : UserId} {dto : ReplaceRefundPolicyDto}
    {r : Except Erreur RefundPolicyShape} (hn : (s.db.refundPolicyTiers.map tierKey).Nodup)
    (h : backend.Runs ((RefundPolicyService.replaceForOwner ownerId dto).expand (statement t)) s r s') :
    Catalogue.backend.Runs (RefundPolicyService.replaceForOwner ownerId dto) s.db r s'.db ∨
      r = .error (.prisma (code .deadlock)) ∧ s'.db = s.db := by
  rw [RefundPolicyService.replaceForOwner] at h ⊢
  simp only [Prog.bind_eq, Prog.expand_bind] at h ⊢
  rw [expand_single t (single_owner ownerId)] at h
  rcases Backend.runs_bind.mp h with ⟨agence, s₁, ho, h₁⟩ | ⟨x, ho, rfl⟩
  swap
  · exact .inl (Backend.runs_bind.mpr (.inr ⟨x, runs_left (single_owner ownerId) ho, rfl⟩))
  have ho := runs_left (single_owner ownerId) ho
  have hs₁ : s₁.db = s.db := (owner_runs (runs_of_left extends_prisma (Prog.uses_true _) ho)).1
  suffices hrest : Catalogue.backend.Runs _ s₁.db r s'.db ∨
      r = .error (.prisma (code .deadlock)) ∧ s'.db = s₁.db from
    hrest.imp (fun hr => Backend.runs_bind.mpr (.inl ⟨agence, _, ho, hr⟩)) fun hr =>
      ⟨hr.1, hr.2.trans hs₁⟩
  have hn₁ : (s₁.db.refundPolicyTiers.map tierKey).Nodup := hs₁ ▸ hn
  cases hv : verifierPaliers dto.tiers with
  | error erreur =>
    rw [hv] at h₁
    obtain ⟨rfl, rfl⟩ := h₁
    exact .inl ⟨rfl, rfl⟩
  | ok paliers =>
    rw [hv] at h₁
    rcases Backend.runs_bind.mp h₁ with ⟨a, s₂, hrep, h₂⟩ | ⟨x, hrep, -⟩
    swap
    · obtain ⟨⟨⟩, -⟩ | ⟨⟨⟩, -⟩ := replaceTiers_runs hn₁ hrep
    obtain ⟨ha, hs₂⟩ | ⟨⟨⟩, hs₂⟩ := replaceTiers_runs hn₁ hrep
    · obtain rfl := Except.ok.inj ha
      rcases hx : Catalogue.replaceTiers s₁.db agence.id
        (paliers.map (RefundPolicyTierDto.row agence.id)) with ⟨a, d⟩
      have hexec : Catalogue.backend.exec (.inr (.refundPolicyTierReplace agence.id
        (paliers.map (RefundPolicyTierDto.row agence.id)))) {} s₁.db = (a, d) := hx
      rw [hx] at h₂ hs₂
      refine .inl ⟨{}, ?_⟩
      rw [hexec]
      cases a with
      | error x =>
        obtain ⟨rfl, rfl⟩ := h₂
        exact ⟨rfl, hs₂⟩
      | ok u =>
        have hread : backend.Runs
            ((RefundPolicyService.getForAgency agence.id).expand (statement t)) s₂ r s' := h₂
        rw [expand_single t (single_getForAgency agence.id)] at hread
        exact hs₂ ▸ runs_left (single_getForAgency agence.id) hread
    · obtain ⟨rfl, rfl⟩ := h₂
      exact .inr ⟨rfl, hs₂⟩

/-- **A request that runs alone** (module doc). -/
theorem handler_runs {q : Catalogue.Request} {r : Except Erreur Unit}
    (hn : (s.db.refundPolicyTiers.map tierKey).Nodup) (h : backend.Runs (handler t q) s r s') :
    Catalogue.backend.Runs (Catalogue.handler q) s.db r s'.db ∨
      r = .error (.prisma (code .deadlock)) ∧ s'.db = s.db := by
  rcases handler_single q with ⟨ownerId, dto, rfl⟩ | hq
  swap
  · rw [handler, expand_single t hq] at h
    exact .inl (runs_left hq h)
  rw [handler, Catalogue.handler, Prog.void, Prog.expand_bind] at h
  rcases Backend.runs_bind.mp h with ⟨shape, s₁, hr, rfl, rfl⟩ | ⟨x, hr, rfl⟩
  · obtain hr | ⟨⟨⟩, -⟩ := replaceForOwner_runs hn hr
    exact .inl (Backend.runs_bind.mpr (.inl ⟨shape, _, hr, rfl, rfl⟩))
  · obtain hr | ⟨hx, hs⟩ := replaceForOwner_runs hn hr
    · exact .inl (Backend.runs_bind.mpr (.inr ⟨x, hr, rfl⟩))
    · cases hx
      exact .inr ⟨rfl, hs⟩

end Sessions

end OumraHajj.Refunds
