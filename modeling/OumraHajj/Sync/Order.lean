import Mathlib.Data.List.TakeWhile
import OumraHajj.Async.History
import OumraHajj.Sync.Laws

/-!
# The order of the items of a sync

The items of a pilgrim are delivered in batches, one after the other. The records do not depend on
the order and the batches exactly if the items are `Settled`: the newest items of each key decide its
record (`Decided`), and no batch may stop at a key that is not known before an item that would change
a record (`sync_order_iff`). An update that leaves out a field keeps it for an older item only if the
older one comes first.
-/

namespace OumraHajj.Sync

open Async Merge

variable {I K C D α : Type} [DecidableEq K]

/-- Every order of the items `l`, in every batches, leads from `s` to the same records. -/
def OrderIndependent (B : Backend (sig K C D) (Store K C) Time)
    (syncBatch : List I → Req K C D (List α)) (s : Store K C) (l : List I) : Prop :=
  ∀ tr₁ tr₂ : Trace (List I) (Store K C), B.Run syncBatch s tr₁ → B.Run syncBatch s tr₂ →
    (tr₁.map Prod.fst).flatten.Perm l → (tr₂.map Prod.fst).flatten.Perm l →
    records (Trace.last s tr₁) = records (Trace.last s tr₂)

/-- The items of each key decide its record, and either every key is known or nothing is to be
done. -/
def Settled (m : Model I K C D) (A : Patches D C) (c₀ : C) (u : UserId) (s : Store K C)
    (l : List I) : Prop :=
  (∀ i ∈ l, Known s (u, m.key i)) ∧
      (∀ k, Decided A c₀ (records s k) ((l.map (m.item u)).filter (·.key = k))) ∨
    ∀ i ∈ l, Known s (u, m.key i) → ¬ Newer (records s (u, m.key i)) (m.clientUpdatedAt i)

variable {A : Patches D C} {c₀ : C} {m : Model I K C D} {u : UserId}
  {toShape : Nat × Progress K C → α}

/-- What is processed of the batches. -/
def processedAll (m : Model I K C D) (u : UserId) (s : Store K C) (bs : List (List I)) : List I :=
  (bs.map (processed m u s)).flatten

theorem processedAll_cons (m : Model I K C D) (u : UserId) (s : Store K C) (b : List I)
    (bs : List (List I)) :
    processedAll m u s (b :: bs) = processed m u s b ++ processedAll m u s bs := rfl

theorem processedAll_known {s s' : Store K C} (h : ∀ k, Known s' k ↔ Known s k)
    (bs : List (List I)) : processedAll m u s' bs = processedAll m u s bs :=
  congrArg List.flatten (List.map_congr_left fun b _ => processed_congr h u b)

theorem run_records (hm : m.Lawful A c₀) {s : Store K C} {tr : Trace (List I) (Store K C)}
    (hr : (backend A.apply).Run (fun l => handler m toShape (u, l)) s tr) :
    records (Trace.last s tr) =
      mergeAll A c₀ (records s) ((processedAll m u s (tr.map Prod.fst)).map (m.item u)) := by
  induction tr generalizing s with
  | nil => rfl
  | cons x tr ih =>
    obtain ⟨⟨r, hx⟩, hr⟩ := hr
    obtain ⟨r₀, hb, -⟩ := handler_runs hx
    obtain ⟨hrec, hknown, -⟩ := syncBatch_spec hm hb
    rw [List.map_cons, processedAll_cons, List.map_append, mergeAll_append, ← hrec,
      ← processedAll_known hknown]
    exact ih hr

theorem processedAll_all {s : Store K C} {bs : List (List I)}
    (h : ∀ i ∈ bs.flatten, Known s (u, m.key i)) : processedAll m u s bs = bs.flatten := by
  induction bs with
  | nil => rfl
  | cons b bs ih =>
    rw [List.flatten_cons] at h ⊢
    rw [processedAll_cons, ih fun i hi => h i (List.mem_append_right _ hi), processed,
      List.takeWhile_eq_self_iff.mpr fun i hi => by simpa using h i (List.mem_append_left _ hi)]

theorem mem_processedAll {s : Store K C} {bs : List (List I)} {i : I}
    (h : i ∈ processedAll m u s bs) : i ∈ bs.flatten ∧ Known s (u, m.key i) := by
  obtain ⟨b', hb', hi⟩ := List.mem_flatten.mp h
  obtain ⟨b, hb, rfl⟩ := List.mem_map.mp hb'
  exact ⟨List.mem_flatten.mpr ⟨b, hb, List.takeWhile_subset _ hi⟩,
    by simpa using List.mem_takeWhile_imp hi⟩

variable (A m u toShape) in
/-- A run of the batches `bs`. -/
theorem exists_run (s : Store K C) (bs : List (List I)) :
    ∃ tr : Trace (List I) (Store K C),
      (backend A.apply).Run (fun l => handler m toShape (u, l)) s tr ∧ tr.map Prod.fst = bs :=
  ⟨_, Backend.evalAll_run 0 s bs, Backend.evalAll_requests 0 s bs⟩

theorem OrderIndependent.batches {B : Backend (sig K C D) (Store K C) Time}
    {syncBatch : List I → Req K C D (List α)} {s : Store K C} {l : List I}
    (h : OrderIndependent B syncBatch s l) (bs₁ bs₂ : List (List I)) (h₁ : bs₁.flatten.Perm l)
    (h₂ : bs₂.flatten.Perm l) :
    records (Trace.last s (B.evalAll syncBatch 0 s bs₁)) =
      records (Trace.last s (B.evalAll syncBatch 0 s bs₂)) :=
  h _ _ (Backend.evalAll_run 0 s bs₁) (Backend.evalAll_run 0 s bs₂)
    (by rwa [Backend.evalAll_requests]) (by rwa [Backend.evalAll_requests])

/-- Where every key is known, the records are those of the items in their order. -/
theorem run_records_known (hm : m.Lawful A c₀) {s : Store K C} {l : List I}
    (hk : ∀ i ∈ l, Known s (u, m.key i)) {tr : Trace (List I) (Store K C)}
    (hr : (backend A.apply).Run (fun l => handler m toShape (u, l)) s tr)
    (hp : (tr.map Prod.fst).flatten.Perm l) :
    records (Trace.last s tr) =
      mergeAll A c₀ (records s) ((tr.map Prod.fst).flatten.map (m.item u)) := by
  rw [run_records hm hr, processedAll_all fun i hi => hk i (hp.mem_iff.mp hi)]

theorem orderIndependent_of_settled (hm : m.Lawful A c₀) {s : Store K C} {l : List I}
    (h : Settled m A c₀ u s l) :
    OrderIndependent (backend A.apply) (fun l => handler m toShape (u, l)) s l := by
  intro tr₁ tr₂ hr₁ hr₂ hp₁ hp₂
  rcases h with ⟨hk, hd⟩ | hold
  · rw [run_records_known hm hk hr₁ hp₁, run_records_known hm hk hr₂ hp₂]
    exact mergeAll_perm_iff.mpr hd _ _ (hp₁.map _) (hp₂.map _)
  · have hsame : ∀ {tr : Trace (List I) (Store K C)},
        (backend A.apply).Run (fun l => handler m toShape (u, l)) s tr →
        (tr.map Prod.fst).flatten.Perm l → records (Trace.last s tr) = records s := by
      intro tr hr hp
      rw [run_records hm hr]
      refine mergeAll_of_done fun j hj => ?_
      obtain ⟨i, hi, rfl⟩ := List.mem_map.mp hj
      obtain ⟨hi, hk⟩ := mem_processedAll hi
      exact recent_of_not_newer (hold i (hp.mem_iff.mp hi) hk)
    rw [hsame hr₁ hp₁, hsame hr₂ hp₂]

theorem settled_of_orderIndependent (hm : m.Lawful A c₀) {s : Store K C} {l : List I}
    (h : OrderIndependent (backend A.apply) (fun l => handler m toShape (u, l)) s l) :
    Settled m A c₀ u s l := by
  by_cases hk : ∀ i ∈ l, Known s (u, m.key i)
  · refine .inl ⟨hk, mergeAll_perm_iff.mp fun l₁ l₂ h₁ h₂ => ?_⟩
    -- an order of the updates is one of the items
    have hitems : ∀ l' : List (Merge.Item (UserId × K) D Time), l'.Perm (l.map (m.item u)) →
        ∃ tr : Trace (List I) (Store K C),
          (backend A.apply).Run (fun l => handler m toShape (u, l)) s tr ∧
          (tr.map Prod.fst).flatten.Perm l ∧
          records (Trace.last s tr) = mergeAll A c₀ (records s) l' := by
      intro l' hp
      obtain ⟨b, rfl, hb⟩ : ∃ b : List I, l' = b.map (m.item u) ∧ b.Perm l := by
        have hcomp := congrFun (congrFun (List.eq_map_comp_perm (m.item u)) l') l
        exact hcomp.mpr hp
      obtain ⟨tr, hr, htr⟩ := exists_run A m u toShape s [b]
      have hflat : (tr.map Prod.fst).flatten = b := by rw [htr, List.flatten_singleton]
      refine ⟨tr, hr, hflat ▸ hb, ?_⟩
      rw [run_records_known hm hk hr (hflat ▸ hb), hflat]
    obtain ⟨tr₁, hr₁, hp₁, hrec₁⟩ := hitems l₁ h₁
    obtain ⟨tr₂, hr₂, hp₂, hrec₂⟩ := hitems l₂ h₂
    rw [← hrec₁, ← hrec₂]
    exact h tr₁ tr₂ hr₁ hr₂ hp₁ hp₂
  · obtain ⟨a, ha, hka⟩ : ∃ a ∈ l, ¬ Known s (u, m.key a) := by
      by_contra hall
      exact hk fun a ha => by_contra fun hka => hall ⟨a, ha, hka⟩
    refine .inr fun i hi hki hn => ?_
    have hne : i ≠ a := by
      rintro rfl
      exact hka hki
    obtain ⟨l₁, hl₁⟩ := exists_front ha
    obtain ⟨l₂, hl₂⟩ := exists_front ((List.mem_cons.mp (hl₁.mem_iff.mpr hi)).resolve_left hne)
    have hfirst : (a :: i :: l₂).Perm l := (hl₂.cons a).trans hl₁
    -- a batch that starts with `a` does nothing, so what comes before it decides
    obtain ⟨tr₁, hr₁, htr₁⟩ := exists_run A m u toShape s
      [[i], a :: l₂]
    obtain ⟨tr₂, hr₂, htr₂⟩ := exists_run A m u toShape s
      [a :: i :: l₂]
    have hsame := h tr₁ tr₂ hr₁ hr₂
      (by rw [htr₁]; simpa using (List.Perm.swap a i l₂).trans hfirst)
      (by rw [htr₂]; simpa using hfirst)
    have hproc₁ : processedAll m u s (tr₁.map Prod.fst) = [i] := by
      simp [htr₁, processedAll, processed_cons, hki, hka]
    have hproc₂ : processedAll m u s (tr₂.map Prod.fst) = [] := by
      simp [htr₂, processedAll, processed_cons, hka]
    rw [run_records hm hr₁, run_records hm hr₂, hproc₁, hproc₂] at hsame
    have hreg := congrFun hsame (u, m.key i)
    have hmerged : mergeAll A c₀ (records s) ([i].map (m.item u)) (u, m.key i) =
        some (A.apply (m.data i) (base c₀ (records s (u, m.key i))), m.clientUpdatedAt i) := by
      rw [List.map_singleton, mergeAll, List.foldl_cons, List.foldl_nil, merge]
      exact (Function.update_self ..).trans (step_newer (i := m.item u i) hn)
    rw [hmerged] at hreg
    exact lt_irrefl _ (hn _ hreg.symm)

theorem orderIndependent_iff (hm : m.Lawful A c₀) (s : Store K C) (l : List I) :
    OrderIndependent (backend A.apply) (fun l => handler m toShape (u, l)) s l ↔
      Settled m A c₀ u s l :=
  ⟨settled_of_orderIndependent hm, orderIndependent_of_settled hm⟩

/-- **When the order of the items does not matter.** -/
theorem sync_order_iff :
    (∀ u s l, OrderIndependent RiteProgressService.backend (RiteProgressService.syncBatch u) s l ↔
      Settled RiteProgressService.model ritePatches {} u s l) ∧
    (∀ u s l, OrderIndependent MicroCoursesService.backend (MicroCoursesService.syncBatch u) s l ↔
      Settled MicroCoursesService.model coursePatches {} u s l) :=
  ⟨fun _ => orderIndependent_iff rite_lawful, fun _ => orderIndependent_iff course_lawful⟩

private def rites : Store String RiteColumns := { references := fun _ _ => true }

private def cours : Store CourseId CourseColumns := { references := fun _ _ => true }

/-- The older item sets a field that the newer one leaves out; two items have the same time. -/
theorem sync_order_exemple :
    ¬ OrderIndependent RiteProgressService.backend (RiteProgressService.syncBatch 0) rites
      [⟨"tawaf", some true, none, none, 1⟩, ⟨"tawaf", none, some 7, none, 2⟩] ∧
    ¬ OrderIndependent MicroCoursesService.backend (MicroCoursesService.syncBatch 0) cours
      [⟨"ihram", some true, 1⟩, ⟨"ihram", some false, 1⟩] := by
  constructor
  · intro h
    have hrec := h.batches
      [[⟨"tawaf", some true, none, none, 1⟩, ⟨"tawaf", none, some 7, none, 2⟩]]
      [[⟨"tawaf", none, some 7, none, 2⟩], [⟨"tawaf", some true, none, none, 1⟩]]
      (List.Perm.refl _) (List.Perm.swap _ _ _)
    exact absurd (congrFun hrec (0, "tawaf")) (by decide)
  · intro h
    have hrec := h.batches [[⟨"ihram", some true, 1⟩, ⟨"ihram", some false, 1⟩]]
      [[⟨"ihram", some false, 1⟩], [⟨"ihram", some true, 1⟩]]
      (List.Perm.refl _) (List.Perm.swap _ _ _)
    exact absurd (congrFun hrec (0, "ihram")) (by decide)

end OumraHajj.Sync
