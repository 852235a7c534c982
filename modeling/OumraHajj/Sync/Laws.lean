import OumraHajj.Common.Merge
import OumraHajj.Sync.Service

/-!
# What a sync does to the records

`records s`: the columns and the time of the row of each pilgrim and key, the registers that
`Merge` speaks about. A sync of an item whose key is `Known` (it has a row or may get one) merges it
(`syncItem_spec`), and a batch stops at the first item whose key is not (`syncBatch_spec`).
-/

namespace OumraHajj.Sync

open Async Merge

variable {I K C D α : Type} [DecidableEq K]

/-- The record of a pilgrim and a key. -/
def records (s : Store K C) (k : UserId × K) : Option (C × Time) :=
  (s.find k.1 k.2).map fun x => (x.2.columns, x.2.clientUpdatedAt)

/-- There is a row for the key, or the rows that it would refer to exist. -/
def Known (s : Store K C) (k : UserId × K) : Prop :=
  s.references k.1 k.2 = true ∨ (s.find k.1 k.2).isSome = true

instance (s : Store K C) (k : UserId × K) : Decidable (Known s k) :=
  inferInstanceAs (Decidable (_ ∨ _))

/-- An item as a partial update of the record of its key. -/
def Model.item (m : Model I K C D) (u : UserId) (i : I) : Merge.Item (UserId × K) D Time :=
  ⟨(u, m.key i), m.data i, m.clientUpdatedAt i⟩

/-- `create` is an update of the columns `c₀`. -/
def Model.Lawful (m : Model I K C D) (A : Patches D C) (c₀ : C) : Prop :=
  ∀ i, m.create i = A.apply (m.data i) c₀

/-- The items of a batch before the first one whose key is not known. -/
def processed (m : Model I K C D) (u : UserId) (s : Store K C) (items : List I) : List I :=
  items.takeWhile fun i => Known s (u, m.key i)

/-! ## The table -/

theorem Progress.isOf_iff {u : UserId} {k : K} {p : Progress K C} :
    p.isOf u k = true ↔ p.pilgrimId = u ∧ p.key = k := by
  simp [Progress.isOf]

theorem Progress.isOf_ne {u u' : UserId} {k k' : K} {p : Progress K C} (hp : p.isOf u k = true)
    (hne : (u', k') ≠ (u, k)) : p.isOf u' k' = false := by
  rw [isOf_iff] at hp
  obtain ⟨rfl, rfl⟩ := hp
  by_contra h
  rw [Bool.not_eq_false, isOf_iff] at h
  exact hne (Prod.ext h.1.symm h.2.symm)

theorem Store.find_some {s : Store K C} {u : UserId} {k : K} {id : Nat} {p : Progress K C}
    (h : s.find u k = some (id, p)) : s.progress[id]? = some p ∧ p.isOf u k = true :=
  Table.findFirst_some h

/-- What an upsert of the columns `create` or `update` does. -/
structure Written (A : Patches D C) (c₀ : C) (s s' : Store K C) (k : UserId × K) (update : D)
    (t : Time) (x : Nat × Progress K C) : Prop where
  find : s'.find k.1 k.2 = some x
  columns : x.2.columns = A.apply update (base c₀ (records s k))
  time : x.2.clientUpdatedAt = t
  references : s'.references = s.references
  other : ∀ k', k' ≠ k → s'.find k'.1 k'.2 = s.find k'.1 k'.2

variable {A : Patches D C} {c₀ : C} {m : Model I K C D}

variable (A) in
theorem exec_upsert (s : Store K C) (u : UserId) (k : K) {create : C} {update : D} (t now : Time)
    (hc : create = A.apply update c₀) :
    (Known s (u, k) ∧ ∃ x,
      (exec A.apply (.progressUpsert u k create update t) now s).1 = .ok x ∧
      Written A c₀ s (exec A.apply (.progressUpsert u k create update t) now s).2 (u, k) update t x) ∨
    (¬ Known s (u, k) ∧
      exec A.apply (.progressUpsert u k create update t) now s = (.error "P2003", s)) := by
  cases hf : s.find u k with
  | some y =>
    obtain ⟨id, p⟩ := y
    obtain ⟨hp, hof⟩ := Store.find_some hf
    refine .inl ⟨.inr (by simp [hf]), (id, ⟨p.pilgrimId, p.key, A.apply update p.columns, t⟩),
      by simp only [exec, hf]; rfl, ?_⟩
    simp only [exec, hf]
    refine ⟨Table.findFirst_set hf hof, ?_, rfl, rfl, fun k' hk' => ?_⟩
    · simp only [base, records, hf, Option.map_some, Option.getD_some]
    · exact Table.findFirst_set_neg hp (Progress.isOf_ne hof hk') (Progress.isOf_ne hof hk')
  | none =>
    by_cases hr : s.references u k = true
    · have hof : (⟨u, k, create, t⟩ : Progress K C).isOf u k = true := Progress.isOf_iff.mpr ⟨rfl, rfl⟩
      refine .inl ⟨.inl hr, (s.progress.length, ⟨u, k, create, t⟩),
        by simp only [exec, hf, if_pos hr]; rfl, ?_⟩
      simp only [exec, hf, if_pos hr]
      refine ⟨Table.findFirst_append hf hof, ?_, rfl, rfl, fun k' hk' => ?_⟩
      · simp only [base, records, hf, hc, Option.map_none, Option.getD_none]
      · exact Table.findFirst_append_neg _ (Progress.isOf_ne hof hk')
    · refine .inr ⟨?_, by simp only [exec, hf, if_neg hr]⟩
      rintro (h | h)
      · exact hr h
      · rw [hf] at h; cases h

theorem Written.records {s s' : Store K C} {u : UserId} {i : I} {x : Nat × Progress K C}
    (h : Written A c₀ s s' (u, m.key i) (m.data i) (m.clientUpdatedAt i) x)
    (hn : Newer (Sync.records s (u, m.key i)) (m.clientUpdatedAt i)) :
    Sync.records s' = merge A c₀ (Sync.records s) (m.item u i) := by
  funext k'
  by_cases hk : k' = (u, m.key i)
  · subst hk
    rw [merge, Model.item, Function.update_self, step_newer hn, Sync.records, h.find, Option.map_some,
      h.columns, h.time]
  · rw [merge, Model.item, Function.update_of_ne hk, Sync.records, h.other k' hk, Sync.records]

/-- A key that has a row keeps it. -/
theorem Written.known {s s' : Store K C} {k k' : UserId × K} {d : D} {t : Time}
    {x : Nat × Progress K C} (h : Written A c₀ s s' k d t x) (hk : Known s k) :
    Known s' k' ↔ Known s k' := by
  by_cases hkk : k' = k
  · subst hkk
    exact iff_of_true (.inr (by rw [h.find]; rfl)) hk
  · rw [Known, Known, h.references, h.other k' hkk]

/-! ## Items and batches -/

/-- What a sync of a known item leaves. -/
structure Synced (m : Model I K C D) (A : Patches D C) (c₀ : C) (s s' : Store K C) (u : UserId)
    (i : I) (x : Nat × Progress K C) : Prop where
  find : s'.find u (m.key i) = some x
  records : Sync.records s' = merge A c₀ (Sync.records s) (m.item u i)
  known : ∀ k, Known s' k ↔ Known s k
  unchanged : Done (Sync.records s) (m.item u i) → s' = s

theorem upsert_spec {u : UserId} {k : K} {create : C} {update : D} {t : Time} {s s' : Store K C}
    {r : Except Erreur (Nat × Progress K C)} (hc : create = A.apply update c₀)
    (h : (backend A.apply).Runs (upsert u k create update t) s r s') :
    (Known s (u, k) ∧ ∃ x, r = .ok x ∧ Written A c₀ s s' (u, k) update t x) ∨
    (¬ Known s (u, k) ∧ r = .error (.prisma "P2003") ∧ s' = s) := by
  obtain ⟨now, h⟩ := h
  rcases exec_upsert A s u k t now hc with
    ⟨hk, x, hx, hw⟩ | ⟨hk, hx⟩
  · simp only [backend, hx] at h
    obtain ⟨rfl, rfl⟩ := h
    exact .inl ⟨hk, x, rfl, hw⟩
  · simp only [backend, hx] at h
    obtain ⟨rfl, rfl⟩ := h
    exact .inr ⟨hk, rfl, rfl⟩

theorem Synced.of_written {u : UserId} {i : I} {s s' : Store K C} {x : Nat × Progress K C}
    (hn : Newer (Sync.records s (u, m.key i)) (m.clientUpdatedAt i)) (hk : Known s (u, m.key i))
    (h : Written A c₀ s s' (u, m.key i) (m.data i) (m.clientUpdatedAt i) x) :
    Synced m A c₀ s s' u i x where
  find := h.find
  records := h.records hn
  known _ := h.known hk
  unchanged hd := by
    obtain ⟨y, hy, hle⟩ := hd
    exact absurd (hn y hy) (not_lt.mpr hle)

theorem syncItem_spec (hm : m.Lawful A c₀) {u : UserId} {i : I} {s s' : Store K C}
    {r : Except Erreur (Nat × Progress K C)}
    (h : (backend A.apply).Runs (syncItem m u i) s r s') :
    (Known s (u, m.key i) ∧ ∃ x, r = .ok x ∧ Synced m A c₀ s s' u i x) ∨
    (¬ Known s (u, m.key i) ∧ r = .error (.prisma "P2003") ∧ s' = s) := by
  have hwrite : Newer (records s (u, m.key i)) (m.clientUpdatedAt i) →
      (backend A.apply).Runs
        (upsert u (m.key i) (m.create i) (m.data i) (m.clientUpdatedAt i)) s r s' →
      (Known s (u, m.key i) ∧ ∃ x, r = .ok x ∧ Synced m A c₀ s s' u i x) ∨
      (¬ Known s (u, m.key i) ∧ r = .error (.prisma "P2003") ∧ s' = s) := by
    intro hn h
    rcases upsert_spec (hm i) h with ⟨hk, x, hx, hw⟩ | hbad
    · exact .inl ⟨hk, x, hx, .of_written hn hk hw⟩
    · exact .inr hbad
  obtain ⟨now, h⟩ := h
  cases hf : s.find u (m.key i) with
  | some y =>
    obtain ⟨id, p⟩ := y
    have hrec : records s (u, m.key i) = some (p.columns, p.clientUpdatedAt) := by
      simp only [records, hf, Option.map_some]
    simp only [backend, exec, hf] at h
    change (backend A.apply).Runs (if p.clientUpdatedAt ≥ m.clientUpdatedAt i then .ret (id, p)
      else upsert u (m.key i) (m.create i) (m.data i) (m.clientUpdatedAt i)) s r s' at h
    split at h
    · rename_i hle
      obtain ⟨rfl, rfl⟩ := h
      have hnot : ¬ Newer (records s' (u, m.key i)) (m.clientUpdatedAt i) := fun hn =>
        absurd (hn _ hrec) (not_lt.mpr hle)
      refine .inl ⟨.inr (by rw [hf]; rfl), _, rfl, hf, ?_, fun _ => Iff.rfl, fun _ => rfl⟩
      exact (merge_of_done ⟨_, hrec, hle⟩).symm
    · rename_i hlt
      refine hwrite (fun y hy => ?_) h
      obtain rfl : (p.columns, p.clientUpdatedAt) = y := Option.some.inj (hrec.symm.trans hy)
      exact lt_of_not_ge hlt
  | none =>
    simp only [backend, exec, hf] at h
    refine hwrite (fun y hy => ?_) h
    simp only [records, hf, Option.map_none] at hy
    cases hy

/-- What is processed depends on the keys that are known. -/
theorem processed_congr {s s' : Store K C} (h : ∀ k, Known s' k ↔ Known s k) (u : UserId)
    (items : List I) : processed m u s' items = processed m u s items := by
  simp only [processed, h]

@[simp] theorem processed_nil (m : Model I K C D) (u : UserId) (s : Store K C) :
    processed m u s [] = [] := rfl

theorem processed_cons (m : Model I K C D) (u : UserId) (s : Store K C) (i : I) (items : List I) :
    processed m u s (i :: items) =
      if Known s (u, m.key i) then i :: processed m u s items else [] := by
  rw [processed, List.takeWhile_cons]
  by_cases hk : Known s (u, m.key i) <;> simp [hk, processed]

/-- What a sync of the items of a batch does to the records. -/
theorem syncBatch_spec (hm : m.Lawful A c₀) {u : UserId} {items : List I} {s s' : Store K C}
    {r : Except Erreur (List (Nat × Progress K C))}
    (h : (backend A.apply).Runs (syncBatch m u items) s r s') :
    records s' = mergeAll A c₀ (records s) ((processed m u s items).map (m.item u)) ∧
      (∀ k, Known s' k ↔ Known s k) ∧
      ((∃ xs, r = .ok xs) ↔ processed m u s items = items) := by
  induction items generalizing s r with
  | nil =>
    obtain ⟨rfl, rfl⟩ := h
    exact ⟨rfl, fun _ => Iff.rfl, iff_of_true ⟨_, rfl⟩ rfl⟩
  | cons i items ih =>
    rcases Backend.runs_bind.mp h with ⟨x, s₁, hi, h⟩ | ⟨e, hi, rfl⟩
    · rcases syncItem_spec hm hi with ⟨hk, y, -, hs⟩ | ⟨-, he, -⟩
      swap
      · cases he
      have hproc : processed m u s₁ items = processed m u s items := processed_congr hs.known u items
      rw [processed_cons, if_pos hk, List.map_cons, mergeAll, List.foldl_cons, ← mergeAll, ← hs.records]
      rcases Backend.runs_bind.mp h with ⟨xs, s₂, hb, rfl, rfl⟩ | ⟨e, hb, rfl⟩
      · obtain ⟨hrec, hknown, hok⟩ := ih hb
        rw [hproc] at hrec hok
        exact ⟨hrec, fun k => (hknown k).trans (hs.known k),
          iff_of_true ⟨_, rfl⟩ (congrArg _ (hok.mp ⟨_, rfl⟩))⟩
      · obtain ⟨hrec, hknown, hok⟩ := ih hb
        rw [hproc] at hrec hok
        refine ⟨hrec, fun k => (hknown k).trans (hs.known k), iff_of_false ?_ fun hp => ?_⟩
        · rintro ⟨_, ⟨⟩⟩
        · obtain ⟨_, ⟨⟩⟩ := hok.mpr (List.cons.inj hp).2
    · rcases syncItem_spec hm hi with ⟨-, y, he, -⟩ | ⟨hk, -, rfl⟩
      · cases he
      rw [processed_cons, if_neg hk]
      refine ⟨rfl, fun _ => Iff.rfl, iff_of_false ?_ fun hp => ?_⟩
      · rintro ⟨_, ⟨⟩⟩
      · cases hp

/-- A batch of items that are done changes nothing, and answers the rows of their keys. -/
theorem syncBatch_done (hm : m.Lawful A c₀) {u : UserId} {items : List I} {s s' : Store K C}
    {r : Except Erreur (List (Nat × Progress K C))}
    (h : (backend A.apply).Runs (syncBatch m u items) s r s')
    (hd : ∀ i ∈ items, Done (records s) (m.item u i)) :
    s' = s ∧ ∃ xs, r = .ok xs ∧ xs.map some = items.map fun i => s.find u (m.key i) := by
  induction items generalizing s r with
  | nil =>
    obtain ⟨rfl, rfl⟩ := h
    exact ⟨rfl, [], rfl, rfl⟩
  | cons i items ih =>
    have hi := hd i List.mem_cons_self
    have hknown : Known s (u, m.key i) := by
      obtain ⟨y, hy, -⟩ := hi
      refine .inr ?_
      cases hf : s.find u (m.key i) with
      | some _ => rfl
      | none =>
        simp only [Model.item, records, hf, Option.map_none] at hy
        cases hy
    rcases Backend.runs_bind.mp h with ⟨x, s₁, hx, hrest⟩ | ⟨e, hx, rfl⟩
    · rcases syncItem_spec hm hx with ⟨-, y, hy, hs⟩ | ⟨hk, -⟩
      swap
      · exact absurd hknown hk
      cases hy
      obtain rfl := hs.unchanged hi
      rcases Backend.runs_bind.mp hrest with ⟨xs, s₂, hb, rfl, rfl⟩ | ⟨e, hb, rfl⟩
      · obtain ⟨rfl, _, ⟨⟩, hxs⟩ := ih hb fun j hj => hd j (List.mem_cons_of_mem _ hj)
        exact ⟨rfl, _, rfl, by rw [List.map_cons, List.map_cons, hxs, hs.find]⟩
      · obtain ⟨-, _, ⟨⟩, -⟩ := ih hb fun j hj => hd j (List.mem_cons_of_mem _ hj)
    · rcases syncItem_spec hm hx with ⟨-, y, ⟨⟩, -⟩ | ⟨hk, -⟩
      exact absurd hknown hk

/-! ## The two services -/

/-- A request to sync: the pilgrim and the batch. -/
def handler (m : Model I K C D) (toShape : Nat × Progress K C → α) (q : UserId × List I) :
    Req K C D (List α) := do
  let results ← syncBatch m q.1 q.2
  return results.map toShape

omit [DecidableEq K] in
theorem handler_runs {toShape : Nat × Progress K C → α} {q : UserId × List I} {s s' : Store K C}
    {r : Except Erreur (List α)} {B : Backend (sig K C D) (Store K C) Time}
    (h : B.Runs (handler m toShape q) s r s') :
    ∃ r₀, B.Runs (syncBatch m q.1 q.2) s r₀ s' ∧ r = r₀.map (List.map toShape) := by
  rcases Backend.runs_bind.mp h with ⟨xs, s₁, hb, rfl, rfl⟩ | ⟨e, hb, rfl⟩
  · exact ⟨_, hb, rfl⟩
  · exact ⟨_, hb, rfl⟩

theorem getD_congr {β : Type} (p q : Option β) (x y : β) (h : p.getD x = p.getD y) :
    p.getD (q.getD x) = p.getD (q.getD y) := by
  cases p with
  | some a => rfl
  | none =>
    cases q with
    | some b => rfl
    | none => exact h

/-- The updates of `rite_progress`. -/
def ritePatches : Patches RiteData RiteColumns where
  apply := RiteData.apply
  congr p q r r' h := by
    simp only [RiteData.apply, RiteColumns.mk.injEq] at h ⊢
    obtain ⟨h₁, h₂, h₃⟩ := h
    exact ⟨getD_congr _ _ _ _ h₁, getD_congr _ _ _ _ h₂, getD_congr _ _ _ _ h₃⟩

/-- The updates of `micro_course_progress`. -/
def coursePatches : Patches CourseData CourseColumns where
  apply := CourseData.apply
  congr p q r r' h := by
    simp only [CourseData.apply, CourseColumns.mk.injEq] at h ⊢
    exact getD_congr _ _ _ _ h

theorem rite_lawful : RiteProgressService.model.Lawful ritePatches {} := fun _ => rfl

theorem course_lawful : MicroCoursesService.model.Lawful coursePatches {} := fun _ => rfl

end OumraHajj.Sync
