import Mathlib.Data.Fintype.Basic
import Mathlib.Data.List.Nodup
import OumraHajj.Async.Embed

/-!
# The rows of a table at READ COMMITTED

Several sessions replace rows of one table, each in a transaction: it deletes the rows that satisfy a
predicate (`deleteMany`) and creates new ones (`createMany`).

A row has an identity besides its value: a row that is deleted and one with the same value that is
created later are two rows. `Versions` is the table: the committed rows, and what the open transaction
of each session has deleted and created. A `deleteMany` sees the rows that are committed when it starts
(`scan`) and then deletes them one at a time, those that are still there; it does not see the rows that
another session commits in between. A row that another open transaction has deleted, or the value of a
unique key that another one has created or deleted, is waited for (`Free`). A statement may also fail
because its session is the victim of a deadlock.

* `filter_commit`, `filter_commit_other`: what a commit makes of the rows of a class, where the
  transaction has deleted all of them, and of the other rows.
* `replaceMany_keeps`: a replacement keeps an invariant in every interleaving if its commit does, where it
  has deleted rows of its class only and created exactly the new ones.
* `replaceMany_runs`: a replacement that runs alone replaces the rows of its class, or does nothing.
-/

namespace Async

/-- What an open transaction has deleted and created. -/
structure Work (ρ : Type) where
  deleted : List (Nat × ρ) := []
  created : List (Nat × ρ) := []

/-- A table at READ COMMITTED (module doc). -/
structure Versions (ι ρ : Type) where
  rows : List (Nat × ρ)
  fresh : Nat
  work : ι → Option (Work ρ) := fun _ => none

/-- Why a statement is refused. -/
inductive Refusal where
  | unique
  | deadlock

inductive RowStmt (ι ρ : Type) where
  | begin (t : ι)
  | scan (t : ι) (p : ρ → Bool)
  | delete (t : ι) (x : Nat × ρ)
  | create (t : ι) (r : ρ)
  | commit (t : ι)
  | rollback (t : ι)

def RowStmt.Resp {ι ρ : Type} : RowStmt ι ρ → Type
  | .begin _ => Unit
  | .scan _ _ => List (Nat × ρ)
  | .delete _ _ => Except Refusal Unit
  | .create _ _ => Except Refusal Unit
  | .commit _ => Unit
  | .rollback _ => Unit

/-- The session that executes a statement. -/
def RowStmt.session {ι ρ : Type} : RowStmt ι ρ → ι
  | .begin t | .scan t _ | .delete t _ | .create t _ | .commit t | .rollback t => t

/-- The signature of a table. -/
abbrev rowSig (ι ρ : Type) : Sig := ⟨RowStmt ι ρ, RowStmt.Resp⟩

namespace Versions

variable {ι ρ κ : Type} [DecidableEq ι] [DecidableEq ρ] [DecidableEq κ] (key : ρ → κ)

/-- The table with the rows `l` and no open transaction. -/
def init (l : List ρ) : Versions ι ρ := ⟨l.zipIdx.map Prod.swap, l.length, fun _ => none⟩

/-- The committed values. -/
def values (v : Versions ι ρ) : List ρ := v.rows.map Prod.snd

def setWork (t : ι) (w : Option (Work ρ)) (v : Versions ι ρ) : Versions ι ρ :=
  { v with work := Function.update v.work t w }

/-- The rows as a transaction has left them. -/
def applied (v : Versions ι ρ) (w : Work ρ) : List (Nat × ρ) :=
  v.rows.filter (· ∉ w.deleted) ++ w.created

/-- The rows that session `t` sees. -/
def visible (t : ι) (v : Versions ι ρ) : List (Nat × ρ) :=
  match v.work t with
  | some w => v.applied w
  | none => v.rows

/-- A row that is no longer there is skipped. -/
def delete (t : ι) (x : Nat × ρ) (v : Versions ι ρ) : Versions ι ρ :=
  match v.work t with
  | some w => if x ∈ v.rows then v.setWork t (some { w with deleted := x :: w.deleted }) else v
  | none => v

def create (t : ι) (r : ρ) (v : Versions ι ρ) : Except Refusal Unit × Versions ι ρ :=
  match v.work t with
  | some w =>
    if (v.visible t).any fun x => key x.2 = key r then (.error .unique, v)
    else (.ok (),
      { v.setWork t (some { w with created := w.created ++ [(v.fresh, r)] }) with
        fresh := v.fresh + 1 })
  | none => (.error .unique, v)

def commit (t : ι) (v : Versions ι ρ) : Versions ι ρ :=
  { v.setWork t none with rows := v.visible t }

/-- What a statement answers, and the table after it; the flag makes its session the victim of a
deadlock. -/
def exec : (c : RowStmt ι ρ) → Bool → Versions ι ρ → RowStmt.Resp c × Versions ι ρ
  | .begin t, _, v => ((), v.setWork t (some {}))
  | .scan t p, _, v => ((v.visible t).filter fun x => p x.2, v)
  | .delete _ _, true, v => (.error .deadlock, v)
  | .delete t x, false, v => (.ok (), v.delete t x)
  | .create _ _, true, v => (.error .deadlock, v)
  | .create t r, false, v => v.create key t r
  | .commit t, _, v => ((), v.commit t)
  | .rollback t, _, v => ((), v.setWork t none)

/-- The statement waits for no other session (module doc). -/
def Free (v : Versions ι ρ) : RowStmt ι ρ → Prop
  | .delete t x => ∀ u, u ≠ t → ∀ w ∈ v.work u, x ∉ w.deleted
  | .create t r => ∀ u, u ≠ t → ∀ w ∈ v.work u, ∀ x ∈ w.deleted ++ w.created, key x.2 ≠ key r
  | _ => True

instance [Fintype ι] (v : Versions ι ρ) : (c : RowStmt ι ρ) → Decidable (Free key v c)
  | .delete t x => inferInstanceAs (Decidable (∀ u, u ≠ t → ∀ w ∈ v.work u, x ∉ w.deleted))
  | .create t r => inferInstanceAs (Decidable
      (∀ u, u ≠ t → ∀ w ∈ v.work u, ∀ x ∈ w.deleted ++ w.created, key x.2 ≠ key r))
  | .begin _ | .scan _ _ | .commit _ | .rollback _ => isTrue trivial

/-! ## The replacement of the rows of a class -/

/-- The rows that a `deleteMany` has seen, one at a time. -/
def deleteAll {ε : Type} (t : ι) : List (Nat × ρ) → Prog (rowSig ι ρ) ε (Except Refusal Unit)
  | [] => .ret (.ok ())
  | x :: l => do
    match ← (Prog.exec (S := rowSig ι ρ) (.delete t x)) with
    | .ok _ => deleteAll t l
    | .error e => return .error e

/-- The rows of a `createMany`, one at a time. -/
def createAll {ε : Type} (t : ι) : List ρ → Prog (rowSig ι ρ) ε (Except Refusal Unit)
  | [] => .ret (.ok ())
  | r :: l => do
    match ← (Prog.exec (S := rowSig ι ρ) (.create t r)) with
    | .ok _ => createAll t l
    | .error e => return .error e

/-- The end of a transaction. -/
def finish {ε : Type} (t : ι) :
    Except Refusal Unit → Prog (rowSig ι ρ) ε (Except Refusal Unit)
  | .ok _ => do
    Prog.exec (S := rowSig ι ρ) (.commit t)
    return .ok ()
  | .error e => do
    Prog.exec (S := rowSig ι ρ) (.rollback t)
    return .error e

/-- `deleteMany` of the rows that satisfy `p` and `createMany` of `data`, in one transaction. -/
def replaceMany {ε : Type} (t : ι) (p : ρ → Bool) (data : List ρ) :
    Prog (rowSig ι ρ) ε (Except Refusal Unit) := do
  Prog.exec (S := rowSig ι ρ) (.begin t)
  let seen ← Prog.exec (S := rowSig ι ρ) (.scan t p)
  match ← deleteAll t seen with
  | .error e => finish t (.error e)
  | .ok _ => createAll t data >>= finish t

/-! ## What each operation leaves -/

variable {key} {v : Versions ι ρ} {t u : ι} {w : Work ρ}

omit [DecidableEq ρ] in
@[simp] theorem setWork_rows (o : Option (Work ρ)) : (v.setWork t o).rows = v.rows := rfl

omit [DecidableEq ρ] in
@[simp] theorem setWork_work_self (o : Option (Work ρ)) : (v.setWork t o).work t = o :=
  Function.update_self ..

omit [DecidableEq ρ] in
theorem setWork_work_of_ne (o : Option (Work ρ)) (hu : u ≠ t) : (v.setWork t o).work u = v.work u :=
  Function.update_of_ne hu ..

omit [DecidableEq ι] in
theorem visible_eq (hw : v.work t = some w) : v.visible t = v.applied w := by
  rw [visible, hw]

theorem delete_work_of_ne (x : Nat × ρ) (hu : u ≠ t) : (v.delete t x).work u = v.work u := by
  unfold delete
  split
  · split
    · exact setWork_work_of_ne _ hu
    · rfl
  · rfl

theorem create_work_of_ne (r : ρ) (hu : u ≠ t) : (v.create key t r).2.work u = v.work u := by
  unfold create
  split
  · split
    · rfl
    · exact setWork_work_of_ne _ hu
  · rfl

theorem commit_rows (hw : v.work t = some w) : (v.commit t).rows = v.applied w := visible_eq hw

theorem commit_work_of_ne (hu : u ≠ t) : (v.commit t).work u = v.work u :=
  setWork_work_of_ne none hu

/-- What a session has done is changed by its own statements only. -/
theorem exec_work_of_ne (deadlock : Bool) {c : RowStmt ι ρ} (hu : u ≠ c.session) :
    (exec key c deadlock v).2.work u = v.work u := by
  cases c with
  | begin t => exact setWork_work_of_ne _ hu
  | scan t p => rfl
  | delete t x =>
    cases deadlock with
    | true => rfl
    | false => exact delete_work_of_ne x hu
  | create t r =>
    cases deadlock with
    | true => rfl
    | false => exact create_work_of_ne r hu
  | commit t => exact commit_work_of_ne hu
  | rollback t => exact setWork_work_of_ne _ hu

/-- Only a commit changes the committed rows. -/
theorem exec_rows (deadlock : Bool) {c : RowStmt ι ρ} (hc : ∀ u, c ≠ .commit u) :
    (exec key c deadlock v).2.rows = v.rows := by
  cases c with
  | begin t => rfl
  | scan t p => rfl
  | delete t x =>
    cases deadlock with
    | true => rfl
    | false =>
      simp only [exec, delete]
      split
      · split <;> rfl
      · rfl
  | create t r =>
    cases deadlock with
    | true => rfl
    | false =>
      simp only [exec, create]
      split
      · split <;> rfl
      · rfl
  | commit t => exact absurd rfl (hc t)
  | rollback t => rfl

variable {v' : Versions ι ρ} {deadlock : Bool}

/-- A row is deleted, or it was no longer there. -/
theorem exec_delete {x : Nat × ρ} {a : Except Refusal Unit} (hw : v.work t = some w)
    (h : exec key (.delete t x) deadlock v = (a, v')) :
    v'.rows = v.rows ∧
      ((a = .ok () ∧ x ∈ v.rows ∧ v'.work t = some { w with deleted := x :: w.deleted }) ∨
        (a = .ok () ∧ x ∉ v.rows ∧ v' = v) ∨ (a = .error .deadlock ∧ v' = v)) := by
  cases deadlock with
  | true =>
    cases h
    exact ⟨rfl, .inr (.inr ⟨rfl, rfl⟩)⟩
  | false =>
    cases h
    simp only [delete, hw]
    split
    · rename_i hx
      exact ⟨rfl, .inl ⟨trivial, hx, setWork_work_self _⟩⟩
    · rename_i hx
      exact ⟨rfl, .inr (.inl ⟨trivial, hx, rfl⟩)⟩

/-- A row is created, if its key is free. -/
theorem exec_create {r : ρ} {a : Except Refusal Unit} (hw : v.work t = some w)
    (h : exec key (.create t r) deadlock v = (a, v')) :
    v'.rows = v.rows ∧
      ((a = .ok () ∧ (∀ x ∈ v.applied w, key x.2 ≠ key r) ∧
          v'.work t = some { w with created := w.created ++ [(v.fresh, r)] }) ∨
        (a = .error .unique ∧ ¬ (∀ x ∈ v.applied w, key x.2 ≠ key r) ∧ v' = v) ∨
        (a = .error .deadlock ∧ v' = v)) := by
  cases deadlock with
  | true =>
    cases h
    exact ⟨rfl, .inr (.inr ⟨rfl, rfl⟩)⟩
  | false =>
    have hv : v.create key t r = (a, v') := h
    simp only [create, hw, visible_eq hw] at hv
    split at hv
    · rename_i hx
      cases hv
      rw [List.any_eq_true] at hx
      obtain ⟨x, hx, heq⟩ := hx
      exact ⟨rfl, .inr (.inl ⟨rfl, fun h => h x hx (of_decide_eq_true heq), rfl⟩)⟩
    · rename_i hx
      cases hv
      refine ⟨rfl, .inl ⟨rfl, fun x hm heq => hx ?_, setWork_work_self _⟩⟩
      exact List.any_eq_true.mpr ⟨x, hm, decide_eq_true heq⟩

/-! ## What a commit makes of the rows -/

theorem values_commit (hw : v.work t = some w) :
    (v.commit t).values = (v.rows.filter (· ∉ w.deleted)).map Prod.snd ++ w.created.map Prod.snd := by
  rw [values, commit_rows hw, applied, List.map_append]

/-- The rows of a class that the transaction has deleted entirely are those that it has created. -/
theorem filter_commit {p : ρ → Bool} (hw : v.work t = some w)
    (hd : ∀ x ∈ v.rows, p x.2 → x ∈ w.deleted) (hc : ∀ r ∈ w.created.map Prod.snd, p r) :
    (v.commit t).values.filter p = w.created.map Prod.snd := by
  rw [values_commit hw, List.filter_append, List.filter_eq_self.mpr hc, List.filter_eq_nil_iff.mpr,
    List.nil_append]
  intro r hr hp
  obtain ⟨x, hx, rfl⟩ := List.mem_map.mp hr
  obtain ⟨hmem, hnot⟩ := List.mem_filter.mp hx
  exact of_decide_eq_true hnot (hd x hmem hp)

/-- The rows outside of the class of the transaction are left. -/
theorem filter_commit_other {q : ρ → Bool} (hw : v.work t = some w)
    (hd : ∀ x ∈ w.deleted, ¬ q x.2) (hc : ∀ r ∈ w.created.map Prod.snd, ¬ q r) :
    (v.commit t).values.filter q = v.values.filter q := by
  rw [values_commit hw, List.filter_append, List.filter_eq_nil_iff.mpr hc, List.append_nil, values,
    List.filter_map, List.filter_map, List.filter_filter]
  refine congrArg _ (List.filter_congr fun x _ => ?_)
  by_cases hq : q x.2
  · have hx : x ∉ w.deleted := fun hx => hd x hx hq
    simp [hq, hx]
  · simp [hq]

/-- A transaction that has done nothing leaves the table. -/
theorem values_commit_nil (hw : v.work t = some w) (hd : w.deleted = []) (hc : w.created = []) :
    (v.commit t).values = v.values := by
  rw [values_commit hw, hd, hc]
  simp [values]

/-! ## A replacement that runs alone -/

section Alone

/-- The backend of a table; the environment says whether the session is the victim of a deadlock. -/
def backend (ι : Type) [DecidableEq ι] (key : ρ → κ) : Backend (rowSig ι ρ) (Versions ι ρ) Bool where
  exec := exec key

variable {ε : Type} {r : Except ε (Except Refusal Unit)}

theorem deleteAll_runs {l : List (Nat × ρ)} (hl : ∀ x ∈ l, x ∈ v.rows) (hw : v.work t = some w)
    (h : (backend ι key).Runs (deleteAll t l) v r v') :
    v'.rows = v.rows ∧ ((r = .ok (.ok ()) ∧ ∃ w', v'.work t = some w' ∧ w'.created = w.created ∧
      ∀ x, x ∈ w'.deleted ↔ x ∈ w.deleted ∨ x ∈ l) ∨ r = .ok (.error .deadlock)) := by
  induction l generalizing v w with
  | nil =>
    obtain ⟨rfl, rfl⟩ := h
    exact ⟨rfl, .inl ⟨rfl, w, hw, rfl, fun x => by simp⟩⟩
  | cons x l ih =>
    obtain ⟨deadlock, h⟩ := h
    rcases hx : exec key (.delete t x) deadlock v with ⟨a, v₁⟩
    have hk : (backend ι key).exec (.delete t x) deadlock v = (a, v₁) := hx
    rw [hk] at h
    obtain ⟨hrows, ⟨rfl, -, hw₁⟩ | ⟨-, hnot, -⟩ | ⟨rfl, rfl⟩⟩ := exec_delete hw hx
    · obtain ⟨hrows', hres⟩ := ih (fun y hy => hrows ▸ hl y (List.mem_cons_of_mem _ hy)) hw₁ h
      refine ⟨hrows'.trans hrows, hres.imp (fun hok => ?_) id⟩
      obtain ⟨hr, w', hw', hc', hd'⟩ := hok
      refine ⟨hr, w', hw', hc', fun y => (hd' y).trans ?_⟩
      simp only [List.mem_cons]
      tauto
    · exact absurd (hl x List.mem_cons_self) hnot
    · obtain ⟨rfl, rfl⟩ := h
      exact ⟨rfl, .inr rfl⟩

/-- The keys of the rows as a transaction has left them. -/
def keys (key : ρ → κ) (v : Versions ι ρ) (w : Work ρ) : List κ :=
  (v.applied w).map fun x => key x.2

theorem createAll_runs {l : List ρ} (hw : v.work t = some w) (hn : (keys key v w).Nodup)
    (h : (backend ι key).Runs (createAll t l) v r v') :
    v'.rows = v.rows ∧ ((r = .ok (.ok ()) ∧ (keys key v w ++ l.map key).Nodup ∧
        ∃ w', v'.work t = some w' ∧ w'.deleted = w.deleted ∧
          w'.created.map Prod.snd = w.created.map Prod.snd ++ l) ∨
      (r = .ok (.error .unique) ∧ ¬ (keys key v w ++ l.map key).Nodup) ∨
      r = .ok (.error .deadlock)) := by
  induction l generalizing v w with
  | nil =>
    obtain ⟨rfl, rfl⟩ := h
    exact ⟨rfl, .inl ⟨rfl, by simpa using hn, w, hw, rfl, by simp⟩⟩
  | cons y l ih =>
    obtain ⟨deadlock, h⟩ := h
    rcases hy : exec key (.create t y) deadlock v with ⟨a, v₁⟩
    have hk : (backend ι key).exec (.create t y) deadlock v = (a, v₁) := hy
    rw [hk] at h
    obtain ⟨hrows, ⟨rfl, hfree, hw₁⟩ | ⟨rfl, htaken, rfl⟩ | ⟨rfl, rfl⟩⟩ := exec_create hw hy
    · have hkeys : keys key v₁ { w with created := w.created ++ [(v.fresh, y)] } =
          keys key v w ++ [key y] := by
        simp only [keys, applied, hrows, List.map_append, List.map_cons, List.map_nil,
          List.append_assoc]
      have hnot : key y ∉ keys key v w := fun hmem => by
        obtain ⟨x, hx, heq⟩ := List.mem_map.mp hmem
        exact hfree x hx heq
      have hn₁ : (keys key v w ++ [key y]).Nodup :=
        List.nodup_append.mpr ⟨hn, List.nodup_singleton _, by
          rintro a ha b hb rfl
          exact hnot (List.mem_singleton.mp hb ▸ ha)⟩
      obtain ⟨hrows', hres⟩ := ih hw₁ (hkeys ▸ hn₁) h
      rw [hkeys, List.append_assoc, List.singleton_append] at hres
      refine ⟨hrows'.trans hrows, hres.imp_left fun hok => ?_⟩
      obtain ⟨hr, hnodup, w', hw', hd', hc'⟩ := hok
      refine ⟨hr, hnodup, w', hw', hd', hc'.trans ?_⟩
      rw [List.map_append, List.map_cons, List.map_nil, List.append_assoc, List.singleton_append]
    · obtain ⟨rfl, rfl⟩ := h
      refine ⟨rfl, .inr (.inl ⟨rfl, fun hnodup => htaken fun x hx heq => ?_⟩)⟩
      have hmem : key y ∈ keys key _ w := List.mem_map.mpr ⟨x, hx, heq⟩
      exact (List.nodup_append.mp hnodup).2.2 _ hmem _ (by simp) rfl
    · obtain ⟨rfl, rfl⟩ := h
      exact ⟨rfl, .inr (.inr rfl)⟩

theorem finish_runs {a : Except Refusal Unit} (h : (backend ι key).Runs (finish t a) v r v') :
    r = .ok a ∧ ((a = .ok () ∧ v' = v.commit t) ∨ ((∃ x, a = .error x) ∧ v'.rows = v.rows)) := by
  rcases a with x | u
  · obtain ⟨deadlock, rfl, rfl⟩ := h
    exact ⟨rfl, .inr ⟨⟨x, rfl⟩, rfl⟩⟩
  · obtain ⟨deadlock, rfl, rfl⟩ := h
    exact ⟨rfl, .inl ⟨rfl, rfl⟩⟩

omit [DecidableEq ι] in
/-- The rows that are left when those of a class are deleted. -/
theorem applied_of_class {p : ρ → Bool} (hd : ∀ x, x ∈ w.deleted ↔ x ∈ v.rows.filter fun x => p x.2) :
    (v.applied w).map Prod.snd = v.values.filter (fun x => ¬ p x) ++ w.created.map Prod.snd := by
  rw [applied, List.map_append, values, List.filter_map]
  refine congrArg (· ++ _) (congrArg _ (List.filter_congr fun x hx => ?_))
  simp [hd, hx]

/-- **A replacement alone** replaces the rows of its class, or leaves the table: because of a unique
key, or of a deadlock. -/
theorem replaceMany_runs {p : ρ → Bool} {data : List ρ} (hn : (v.values.map key).Nodup)
    (h : (backend ι key).Runs (replaceMany t p data) v r v') :
    (r = .ok (.ok ()) ∧ v'.values = v.values.filter (fun x => ¬ p x) ++ data ∧
        ((v.values.filter (fun x => ¬ p x) ++ data).map key).Nodup) ∨
      (r = .ok (.error .unique) ∧ v'.values = v.values ∧
        ¬ ((v.values.filter (fun x => ¬ p x) ++ data).map key).Nodup) ∨
      (r = .ok (.error .deadlock) ∧ v'.values = v.values) := by
  obtain ⟨e, e', h⟩ := h
  change (backend ι key).Runs ((deleteAll t (((v.setWork t (some {})).visible t).filter
    fun x => p x.2)).bind _) (v.setWork t (some {})) r v' at h
  have hseen : ((v.setWork t (some {})).visible t).filter (fun x => p x.2) =
      v.rows.filter fun x => p x.2 := by
    rw [visible_eq (setWork_work_self _), applied]
    simp
  rw [hseen] at h
  have hopen : (v.setWork t (some {})).work t = some {} := setWork_work_self _
  have hsub : ((v.values.filter fun x => ¬ p x).map key).Nodup := hn.sublist (List.filter_sublist.map _)
  rcases Backend.runs_bind.mp h with ⟨a, v₁, hd, h₁⟩ | ⟨x, hd, -⟩
  swap
  · obtain ⟨-, ⟨⟨⟩, -⟩ | ⟨⟨⟩⟩⟩ := deleteAll_runs (fun x hx => (List.mem_filter.mp hx).1) hopen hd
  obtain ⟨hrows, ⟨⟨⟩, w, hw, hc, hdel⟩ | ⟨⟨⟩⟩⟩ :=
    deleteAll_runs (fun x hx => (List.mem_filter.mp hx).1) hopen hd
  swap
  · obtain ⟨rfl, ⟨⟨⟩, -⟩ | ⟨-, hrows'⟩⟩ := finish_runs h₁
    exact .inr (.inr ⟨rfl, congrArg (List.map Prod.snd) (hrows'.trans hrows)⟩)
  have hclass : ∀ x, x ∈ w.deleted ↔ x ∈ v₁.rows.filter fun x => p x.2 := fun x => by
    rw [hdel x, hrows]
    simp
  have hvalues : v₁.values = v.values := congrArg (List.map Prod.snd) hrows
  have hkeys : keys key v₁ w = (v.values.filter fun x => ¬ p x).map key := by
    have happ := applied_of_class hclass
    rw [hc, List.map_nil, List.append_nil, hvalues] at happ
    rw [← happ, List.map_map]
    rfl
  rcases Backend.runs_bind.mp h₁ with ⟨a, v₂, hcr, h₂⟩ | ⟨x, hcr, -⟩
  swap
  · obtain ⟨-, ⟨⟨⟩, -⟩ | ⟨⟨⟩, -⟩ | ⟨⟨⟩⟩⟩ := createAll_runs hw (hkeys ▸ hsub) hcr
  obtain ⟨hrows₂, hres⟩ := createAll_runs hw (hkeys ▸ hsub) hcr
  have hvalues₂ : v₂.values = v.values := congrArg (List.map Prod.snd) (hrows₂.trans hrows)
  rw [hkeys, ← List.map_append] at hres
  obtain ⟨rfl, hend⟩ := finish_runs h₂
  rcases hres with ⟨⟨⟩, hnodup, w', hw', hd', hc'⟩ | ⟨⟨⟩, hnodup⟩ | ⟨⟨⟩⟩
  · obtain ⟨-, rfl⟩ | ⟨⟨x, ⟨⟩⟩, -⟩ := hend
    refine .inl ⟨rfl, ?_, hnodup⟩
    have hclass' : ∀ x, x ∈ w'.deleted ↔ x ∈ v₂.rows.filter fun x => p x.2 := fun x => by
      rw [hd', hrows₂]
      exact hclass x
    rw [values, commit_rows hw', applied_of_class hclass', hc', hc, hvalues₂]
    rfl
  · obtain ⟨⟨⟩, -⟩ | ⟨-, hrows'⟩ := hend
    exact .inr (.inl ⟨rfl, (congrArg (List.map Prod.snd) hrows').trans hvalues₂, hnodup⟩)
  · obtain ⟨⟨⟩, -⟩ | ⟨-, hrows'⟩ := hend
    exact .inr (.inr ⟨rfl, (congrArg (List.map Prod.snd) hrows').trans hvalues₂⟩)

end Alone

/-! ## A replacement among other handlers -/

section Keeps

variable {S : Sig} {St Env ε : Type} {B : Backend (S.sum (rowSig ι ρ)) St Env}
  {tab : St → Versions ι ρ} {dead : Env → Bool}

/-- The statements of the table act on a part of the state. -/
def Hosts (key : ρ → κ) (B : Backend (S.sum (rowSig ι ρ)) St Env) (tab : St → Versions ι ρ)
    (dead : Env → Bool) : Prop :=
  ∀ c e s, exec key c (dead e) (tab s) = ((B.exec (.inr c) e s).1, tab (B.exec (.inr c) e s).2)

/-- What session `t` has done. -/
def own (tab : St → Versions ι ρ) (t : ι) (s : St) : Option (Work ρ) := (tab s).work t

/-- The transaction of session `t` is open, has deleted rows of the class only, and created `data`. -/
def Held (tab : St → Versions ι ρ) (t : ι) (p : ρ → Bool) (data : List ρ) (s : St) : Prop :=
  ∃ w, (tab s).work t = some w ∧ (∀ x ∈ w.deleted, p x.2) ∧ w.created.map Prod.snd = data

variable {D : Rely St} {okOf : ι → (S.sum (rowSig ι ρ)).Stmt → St → Env → Prop} {t : ι} {s s₀ : St}
  {p : ρ → Bool} {data : List ρ}

omit [DecidableEq ι] [DecidableEq ρ] in
theorem Held.of_own {s s' : St} (h : Held tab t p data s) (hown : own tab t s' = own tab t s) :
    Held tab t p data s' := by
  obtain ⟨w, hw, hd, hc⟩ := h
  exact ⟨w, hown.trans hw, hd, hc⟩

theorem Hosts.work_of_ne (hB : Hosts key B tab dead) {c : RowStmt ι ρ} (hc : c.session = t) (e : Env)
    (s : St) {u : ι} (hu : u ≠ t) : own tab u (B.exec (.inr c) e s).2 = own tab u s := by
  have htab : (exec key c (dead e) (tab s)).2 = tab (B.exec (.inr c) e s).2 :=
    congrArg Prod.snd (hB c e s)
  rw [own, ← htab]
  exact exec_work_of_ne (dead e) (hc ▸ hu)

/-- A handler on the table that runs among other statements runs as it does alone. -/
theorem Hosts.runs (hB : Hosts key B tab dead) {α : Type} {q : Prog (rowSig ι ρ) ε α} {r : Except ε α}
    {s s' : St} (h : B.Runs (q.via Sig.inr) s r s') : (backend ι key).Runs q (tab s) r (tab s') := by
  induction q generalizing s with
  | ret a =>
    obtain ⟨rfl, rfl⟩ := h
    exact ⟨rfl, rfl⟩
  | fail x =>
    obtain ⟨rfl, rfl⟩ := h
    exact ⟨rfl, rfl⟩
  | call c k ih =>
    obtain ⟨e, h⟩ := h
    have hk := ih _ h
    have hexec : (backend ι key).exec c (dead e) (tab s) = _ := hB c e s
    refine ⟨dead e, ?_⟩
    rw [hexec]
    exact hk

/-- A statement of session `t` that keeps the invariant. -/
theorem keepsOwn_row {α : Type} (hB : Hosts key B tab dead) {c : RowStmt ι ρ} (hc : c.session = t)
    (hstep : D.Step B (okOf t) (.inr c)) {k : RowStmt.Resp c → Prog (S.sum (rowSig ι ρ)) ε α}
    {Q : Except ε α → St → Prop}
    (hk : ∀ s₁ s₂ e r, D.le s s₂ → own tab t s₁ = own tab t s →
      exec key c (dead e) (tab s₁) = (r, tab s₂) →
      D.KeepsOwn B okOf (own tab) t (k r) s₂ Q) :
    D.KeepsOwn B okOf (own tab) t (.call (.inr c) k) s Q := by
  intro s' e hi hle hown ho
  obtain ⟨hi', hle'⟩ := hstep s' e hi ho
  exact ⟨hi', hle', fun u hu => hB.work_of_ne hc e s' hu,
    hk s' _ e _ (D.trans _ _ _ hle hle') hown (hB c e s')⟩

variable (hB : Hosts key B tab dead)
  (hquiet : ∀ c : RowStmt ι ρ, c.session = t → (∀ u, c ≠ .commit u) → D.Step B (okOf t) (.inr c))

include hB hquiet

theorem deleteAll_keeps {l : List (Nat × ρ)} (hl : ∀ x ∈ l, p x.2) (h : Held tab t p [] s) :
    D.KeepsOwn B okOf (own tab) t ((deleteAll t l : Prog _ ε _).via (Sig.inr (S := S))) s
      fun _ s' => D.le s s' ∧ Held tab t p [] s' := by
  suffices hs : ∀ s₀, D.le s₀ s → D.KeepsOwn B okOf (own tab) t
      ((deleteAll t l : Prog _ ε _).via (Sig.inr (S := S))) s
      fun _ s' => D.le s₀ s' ∧ Held tab t p [] s' from hs s (D.refl s)
  induction l generalizing s with
  | nil => exact fun s₀ hle => ⟨hle, h⟩
  | cons x l ih =>
    intro s₀ hle
    refine keepsOwn_row hB rfl (hquiet (.delete t x) rfl (by rintro u ⟨⟩))
      fun s₁ s₂ e r hle₂ hown hexec => ?_
    have hle₂ := D.trans _ _ _ hle hle₂
    obtain ⟨w, hw, hd, hc⟩ := h.of_own hown
    have hheld : Held tab t p [] s₂ := by
      obtain ⟨-, ⟨-, -, hx⟩ | ⟨-, -, hx⟩ | ⟨-, hx⟩⟩ := exec_delete hw hexec
      · refine ⟨_, hx, fun y hy => ?_, hc⟩
        rcases List.mem_cons.mp hy with rfl | hy
        · exact hl y List.mem_cons_self
        · exact hd y hy
      · exact ⟨w, hx ▸ hw, hd, hc⟩
      · exact ⟨w, hx ▸ hw, hd, hc⟩
    rcases r with x | u
    · exact ⟨hle₂, hheld⟩
    · exact ih (fun y hy => hl y (List.mem_cons_of_mem _ hy)) hheld s₀ hle₂

theorem createAll_keeps {l done : List ρ} (h : Held tab t p done s) :
    D.KeepsOwn B okOf (own tab) t ((createAll t l : Prog _ ε _).via (Sig.inr (S := S))) s
      fun r s' => D.le s s' ∧ (r = .ok (.ok ()) → Held tab t p (done ++ l) s') := by
  suffices hs : ∀ s₀, D.le s₀ s → D.KeepsOwn B okOf (own tab) t
      ((createAll t l : Prog _ ε _).via (Sig.inr (S := S))) s
      fun r s' => D.le s₀ s' ∧ (r = .ok (.ok ()) → Held tab t p (done ++ l) s') from hs s (D.refl s)
  induction l generalizing s done with
  | nil => exact fun s₀ hle => ⟨hle, fun _ => by rwa [List.append_nil]⟩
  | cons y l ih =>
    intro s₀ hle
    refine keepsOwn_row hB rfl (hquiet (.create t y) rfl (by rintro u ⟨⟩))
      fun s₁ s₂ e r hle₂ hown hexec => ?_
    have hle₂ := D.trans _ _ _ hle hle₂
    obtain ⟨w, hw, hd, hc⟩ := h.of_own hown
    rcases r with x | u
    · exact ⟨hle₂, by rintro ⟨⟩⟩
    · obtain ⟨-, ⟨-, -, hy⟩ | ⟨⟨⟩, -⟩ | ⟨⟨⟩, -⟩⟩ := exec_create hw hexec
      rw [List.append_cons]
      exact ih ⟨_, hy, hd, by rw [List.map_append, hc]; rfl⟩ s₀ hle₂

variable (hcommit : ∀ s₁ e, D.inv s₁ → D.le s s₁ → Held tab t p data s₁ →
  okOf t (.inr (.commit t)) s₁ e → D.inv (B.exec (.inr (.commit t)) e s₁).2 ∧
    D.le s₁ (B.exec (.inr (.commit t)) e s₁).2)

include hcommit

theorem finish_keeps {r : Except Refusal Unit} (hle : D.le s s₀) (h : r = .ok () → Held tab t p data s₀) :
    D.KeepsOwn B okOf (own tab) t ((finish t r : Prog _ ε _).via (Sig.inr (S := S))) s₀
      fun _ s' => D.le s s' := by
  cases r with
  | error x =>
    exact keepsOwn_row hB rfl (hquiet (.rollback t) rfl (by rintro u ⟨⟩)) fun _ _ _ _ hle' _ _ =>
      D.trans _ _ _ hle hle'
  | ok u =>
    intro s₁ e hi hle₁ hown ho
    obtain ⟨hi', hle'⟩ := hcommit s₁ e hi (D.trans _ _ _ hle hle₁) ((h rfl).of_own hown) ho
    exact ⟨hi', hle', fun v hv => hB.work_of_ne rfl e s₁ hv,
      D.trans _ _ _ hle (D.trans _ _ _ hle₁ hle')⟩

/-- **A replacement among other handlers.** -/
theorem replaceMany_keeps :
    D.KeepsOwn B okOf (own tab) t ((replaceMany t p data : Prog _ ε _).via (Sig.inr (S := S))) s
      fun _ s' => D.le s s' := by
  refine keepsOwn_row hB rfl (hquiet (.begin t) rfl (by rintro u ⟨⟩))
    fun s₁ s₂ e r hle₂ _ hexec₂ => ?_
  have htab₂ : (tab s₁).setWork t (some {}) = tab s₂ := congrArg Prod.snd hexec₂
  refine keepsOwn_row hB rfl (hquiet (.scan t p) rfl (by rintro u ⟨⟩))
    fun s₃ s₄ e' seen hle₄ hown hexec₄ => ?_
  have hseen : ((tab s₃).visible t).filter (fun x => p x.2) = seen := congrArg Prod.fst hexec₄
  have htab₄ : tab s₃ = tab s₄ := congrArg Prod.snd hexec₄
  have hheld : Held tab t p [] s₄ := by
    refine ⟨{}, ?_, fun x hx => absurd hx List.not_mem_nil, rfl⟩
    calc (tab s₄).work t = (tab s₃).work t := by rw [htab₄]
      _ = (tab s₂).work t := hown
      _ = some {} := by rw [← htab₂, setWork_work_self]
  subst hseen
  have hclass : ∀ x ∈ ((tab s₃).visible t).filter (fun x => p x.2), p x.2 := fun x hx =>
    (List.mem_filter.mp hx).2
  have hle := D.trans _ _ _ hle₂ hle₄
  change D.KeepsOwn B okOf (own tab) t (Prog.via Sig.inr ((deleteAll t _).bind _)) s₄ _
  rw [Prog.via_bind]
  refine .bind ((deleteAll_keeps hB hquiet hclass hheld).mono ?_)
  rintro (x | r) s₅ ⟨hle₅, h₅⟩
  · exact D.trans _ _ _ hle hle₅
  have hle := D.trans _ _ _ hle hle₅
  cases r with
  | error x => exact finish_keeps hB hquiet hcommit hle (by rintro ⟨⟩)
  | ok u =>
    simp only [Prog.bind_eq, Prog.via_bind]
    refine .bind ((createAll_keeps hB hquiet h₅).mono ?_)
    rintro (x | r) s₆ ⟨hle₆, h₆⟩
    · exact D.trans _ _ _ hle hle₆
    · exact finish_keeps hB hquiet hcommit (D.trans _ _ _ hle hle₆) (by rintro rfl; exact h₆ rfl)

omit hB hquiet hcommit

end Keeps

end Versions

end Async
