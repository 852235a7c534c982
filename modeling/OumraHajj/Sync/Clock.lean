import OumraHajj.Async.History
import OumraHajj.Sync.Laws

/-!
# The version of a record

`clientUpdatedAt` is the version of a record: `syncBatch` writes an item only over an older version.
`resetCounter` writes the time of the server without looking at it. A run never takes a version back,
and what is stale stays stale, exactly if every reset of a rite that has a record comes at a time that
is not before its version (`version_clock_iff`).
-/

namespace OumraHajj.Sync

open Async Merge

section

variable {I K C D α : Type} [DecidableEq K]

/-- The version of the record of a pilgrim and a key. -/
def version (s : Store K C) (k : UserId × K) : Option Time :=
  (s.find k.1 k.2).map (·.2.clientUpdatedAt)

/-- No version is later in `s` than in `s'`, and no record is gone. -/
def NotBack (s s' : Store K C) : Prop :=
  ∀ k, ∀ t ∈ version s k, ∃ t' ∈ version s' k, t ≤ t'

/-- The guard of `syncBatch`: the record is at least as recent as the item. -/
def Stale (m : Model I K C D) (s : Store K C) (u : UserId) (i : I) : Prop :=
  ∃ t ∈ version s (u, m.key i), t ≥ m.clientUpdatedAt i

theorem NotBack.refl (s : Store K C) : NotBack s s := fun _ t ht => ⟨t, ht, le_refl t⟩

theorem NotBack.trans {s s₁ s' : Store K C} (h : NotBack s s₁) (h' : NotBack s₁ s') :
    NotBack s s' := by
  intro k t ht
  obtain ⟨t₁, ht₁, hle₁⟩ := h k t ht
  obtain ⟨t', ht', hle'⟩ := h' k t₁ ht₁
  exact ⟨t', ht', le_trans hle₁ hle'⟩

variable {A : Patches D C} {c₀ : C} {m : Model I K C D}

theorem Stale.notBack {s s' : Store K C} {u : UserId} {i : I} (h : Stale m s u i)
    (hs : NotBack s s') : Stale m s' u i := by
  obtain ⟨t, ht, hle⟩ := h
  obtain ⟨t', ht', hle'⟩ := hs _ t ht
  exact ⟨t', ht', le_trans hle hle'⟩

theorem Stale.done {s : Store K C} {u : UserId} {i : I} (h : Stale m s u i) :
    Done (records s) (m.item u i) := by
  obtain ⟨t, ht, hle⟩ := h
  obtain ⟨x, hx, rfl⟩ := Option.mem_map.mp ht
  exact ⟨(x.2.columns, x.2.clientUpdatedAt), Option.mem_map.mpr ⟨x, hx, rfl⟩, hle⟩

theorem mem_version {s : Store K C} {k : UserId × K} {x : Nat × Progress K C}
    (h : s.find k.1 k.2 = some x) : x.2.clientUpdatedAt ∈ version s k :=
  Option.mem_map.mpr ⟨x, h, rfl⟩

/-- What is written over an older version. -/
theorem Written.notBack_iff {s s' : Store K C} {k : UserId × K} {d : D} {t : Time}
    {x : Nat × Progress K C} (h : Written A c₀ s s' k d t x) :
    NotBack s s' ↔ ∀ v ∈ version s k, v ≤ t := by
  have hv : version s' k = some t := by rw [version, h.find, Option.map_some, h.time]
  constructor
  · intro hs v hvk
    obtain ⟨t', ht', hle⟩ := hs k v hvk
    rw [hv] at ht'
    exact (Option.mem_some_iff.mp ht') ▸ hle
  · intro hle k' v hvk
    by_cases hk : k' = k
    · subst hk
      exact ⟨t, hv, hle v hvk⟩
    · refine ⟨v, ?_, le_refl v⟩
      rw [version, h.other k' hk]
      exact hvk

theorem version_of_not_known {s : Store K C} {k : UserId × K} (h : ¬ Known s k) :
    version s k = none := by
  rw [version, Option.map_eq_none_iff]
  cases hf : s.find k.1 k.2 with
  | none => rfl
  | some x => exact absurd (.inr (by rw [hf]; rfl)) h

theorem recent_iff {s : Store K C} {k : UserId × K} {t : Time} :
    Recent (records s k) t ↔ ∃ v ∈ version s k, t ≤ v := by
  constructor
  · rintro ⟨y, hy, hle⟩
    obtain ⟨x, hx, rfl⟩ := Option.mem_map.mp hy
    exact ⟨_, mem_version hx, hle⟩
  · rintro ⟨v, hv, hle⟩
    obtain ⟨x, hx, rfl⟩ := Option.mem_map.mp hv
    exact ⟨_, Option.mem_map.mpr ⟨x, hx, rfl⟩, hle⟩

/-- Items that are merged take no version back. -/
theorem NotBack.of_merged {s s' : Store K C} {l : List (Merge.Item (UserId × K) D Time)}
    (h : records s' = mergeAll A c₀ (records s) l) : NotBack s s' := by
  intro k t ht
  refine recent_iff.mp ?_
  rw [h, mergeAll_apply]
  exact Recent.foldl (recent_iff.mpr ⟨t, ht, le_refl t⟩) _

theorem Synced.notBack {s s' : Store K C} {u : UserId} {i : I} {x : Nat × Progress K C}
    (h : Synced m A c₀ s s' u i x) : NotBack s s' :=
  .of_merged (l := [m.item u i]) h.records

theorem syncBatch_notBack (hm : m.Lawful A c₀) {u : UserId} {items : List I} {s s' : Store K C}
    {r : Except Erreur (List (Nat × Progress K C))}
    (h : (backend A.apply).Runs (syncBatch m u items) s r s') : NotBack s s' :=
  .of_merged (syncBatch_spec hm h).1

/-- A batch leaves the store as it would without an item that is stale. -/
theorem syncBatch_without [DecidableEq I] (hm : m.Lawful A c₀) {u : UserId} {i : I}
    {env : Stmt K C D → Time} {s : Store K C} (hi : Stale m s u i) (items : List I) :
    ((backend A.apply).evalBy env (syncBatch m u items) s).2 =
      ((backend A.apply).evalBy env (syncBatch m u (items.filter (· ≠ i))) s).2 := by
  induction items generalizing s with
  | nil => rfl
  | cons j items ih =>
    have hrun := Backend.evalBy_runs (B := backend A.apply) env (syncItem m u j) s
    rcases hj : (backend A.apply).evalBy env (syncItem m u j) s with ⟨r, s₁⟩
    rw [hj] at hrun
    have hbatch : ∀ l : List I, (backend A.apply).evalBy env (syncBatch m u (j :: l)) s =
        (backend A.apply).evalBy env ((syncItem m u j).bind fun x =>
          (syncBatch m u l).bind fun xs => .ret (x :: xs)) s := fun _ => rfl
    by_cases hji : j = i
    · subst hji
      have hdrop : (j :: items).filter (fun i => decide (i ≠ j)) =
          items.filter fun i => decide (i ≠ j) := by simp
      rw [hdrop, ← ih hi, hbatch]
      rcases syncItem_spec hm hrun with ⟨-, x, rfl, hs⟩ | ⟨hk, -⟩
      · obtain rfl := hs.unchanged hi.done
        rw [Backend.evalBy_bind_ok hj, Backend.evalBy_bind_ret]
      · obtain ⟨t, ht, -⟩ := hi
        rw [version_of_not_known hk] at ht
        cases ht
    · have hkeep : (j :: items).filter (fun k => decide (k ≠ i)) =
          j :: items.filter fun k => decide (k ≠ i) := by simp [hji]
      rw [hkeep, hbatch, hbatch]
      rcases syncItem_spec hm hrun with ⟨-, x, rfl, hs⟩ | ⟨-, rfl, rfl⟩
      · rw [Backend.evalBy_bind_ok hj, Backend.evalBy_bind_ok hj, Backend.evalBy_bind_ret,
          Backend.evalBy_bind_ret]
        exact ih (hi.notBack hs.notBack)
      · rw [Backend.evalBy_bind, Backend.evalBy_bind, hj]

end

/-! ## Runs of a pilgrim -/

namespace RiteProgressService

inductive Request where
  | syncBatch (items : List RiteProgressItem)
  | resetCounter (riteKey : String)

def handler (pilgrimId : UserId) : Request → Req Unit
  | .syncBatch items => (syncBatch pilgrimId items).void
  | .resetCounter riteKey => (resetCounter pilgrimId riteKey).void

/-- The requests of a pilgrim, each at a time of the server. -/
abbrev Journal := Trace (Request × Time) (Store String RiteColumns)

variable (u : UserId)

/-- No later batch writes an item that was stale: it does what it would do without the item. An item
that a batch rejects or supersedes is stale after the batch. -/
def StaysStale (s : Store String RiteColumns) (tr : Journal) : Prop :=
  ∀ tr₁ tr₂, tr = tr₁ ++ tr₂ → ∀ i, Stale model (Trace.last s tr₁) u i →
    Trace.Steps (fun s q s' => ∀ items, q.1 = .syncBatch items →
      s' = (backend.eval q.2 (syncBatch u (items.filter (· ≠ i))) s).2) (Trace.last s tr₁) tr₂

/-- No version goes back, and no stale item is accepted. -/
def VersionClock (s : Store String RiteColumns) (tr : Journal) : Prop :=
  Trace.Steps (fun s _ s' => NotBack s s') s tr ∧ StaysStale u s tr

/-- A reset comes at a time that is not before the version of the record. -/
def NotAhead (s : Store String RiteColumns) : Request × Time → Prop
  | (.syncBatch _, _) => True
  | (.resetCounter riteKey, now) => ∀ v ∈ version s (u, riteKey), v ≤ now

variable {u} {s s' : Store String RiteColumns} {now : Time}

theorem syncBatch_eval (items : List RiteProgressItem) :
    (backend.eval now (syncBatch u items) s).2 =
      ((Sync.backend ritePatches.apply).eval now (Sync.syncBatch model u items) s).2 :=
  Backend.evalBy_bind_ret _ _ _

theorem syncBatch_step_notBack (items : List RiteProgressItem) :
    NotBack s (backend.eval now (syncBatch u items) s).2 := by
  rw [syncBatch_eval]
  exact syncBatch_notBack rite_lawful (Backend.eval_runs now _ s)

/-- A reset writes the time of the server. -/
theorem resetCounter_notBack_iff (riteKey : String) :
    NotBack s (backend.eval now (resetCounter u riteKey) s).2 ↔
      ∀ v ∈ version s (u, riteKey), v ≤ now := by
  let reset : RiteData := { tawafCount := some 0, saiCount := some 0 }
  have hreset : (backend.eval now (resetCounter u riteKey) s).2 =
      ((Sync.backend ritePatches.apply).eval now (upsert u riteKey {} reset now) s).2 := by
    change (backend.evalBy (fun _ => now) ((upsert u riteKey {} reset now).bind fun x =>
      .ret (toRiteProgressShape x)) s).2 = _
    rw [Backend.evalBy_bind_ret]
    rfl
  rw [hreset]
  have hrun := Backend.eval_runs (B := Sync.backend ritePatches.apply) now
    (upsert u riteKey {} reset now) s
  have hcreate : ({} : RiteColumns) = ritePatches.apply reset {} := rfl
  rcases upsert_spec hcreate hrun with
    ⟨-, x, -, hw⟩ | ⟨hk, -, hs⟩
  · exact hw.notBack_iff
  · rw [hs]
    refine iff_of_true (NotBack.refl s) fun v hv => ?_
    rw [version_of_not_known hk] at hv
    cases hv

theorem step_notBack_iff (q : Request × Time) :
    NotBack s (backend.eval q.2 (handler u q.1) s).2 ↔ NotAhead u s q := by
  obtain ⟨q, now⟩ := q
  cases q with
  | syncBatch items =>
    refine iff_of_true ?_ trivial
    rw [handler, Prog.void, Backend.eval, Backend.evalBy_bind_ret]
    exact syncBatch_step_notBack items
  | resetCounter riteKey =>
    rw [handler, Prog.void, Backend.eval, Backend.evalBy_bind_ret]
    exact resetCounter_notBack_iff riteKey

/-- Where no version goes back, an item that is stale is never accepted. -/
theorem stale_steps {i : RiteProgressItem} {tr : Journal}
    (hr : backend.RunAt (handler u) s tr) (hi : Stale model s u i)
    (h : Trace.Steps (fun s _ s' => NotBack s s') s tr) :
    Trace.Steps (fun s q s' => ∀ items, q.1 = .syncBatch items →
      s' = (backend.eval q.2 (syncBatch u (items.filter (· ≠ i))) s).2) s tr := by
  induction tr generalizing s with
  | nil => trivial
  | cons x tr ih =>
    obtain ⟨⟨q, now⟩, s'⟩ := x
    obtain ⟨hx, hr⟩ := hr
    refine ⟨?_, ih hr (hi.notBack h.1) h.2⟩
    rintro items rfl
    rw [hx, handler, Prog.void, Backend.eval, Backend.evalBy_bind_ret]
    exact ((syncBatch_eval items).trans (syncBatch_without rite_lawful hi items)).trans
      (syncBatch_eval _).symm

/-- **The version of a record never goes back**, exactly if no reset comes before it. -/
theorem version_clock_iff (u : UserId) (s : Store String RiteColumns) (tr : Journal)
    (hr : backend.RunAt (handler u) s tr) :
    VersionClock u s tr ↔ Trace.Steps (fun s q _ => NotAhead u s q) s tr := by
  have hiff : Trace.Steps (fun s _ s' => NotBack s s') s tr ↔
      Trace.Steps (fun s q _ => NotAhead u s q) s tr :=
    Trace.Steps.iff (Trace.Steps.imp (fun s q s' h => h ▸ step_notBack_iff q) hr)
  constructor
  · exact fun h => hiff.mp h.1
  · intro h
    have hback := hiff.mpr h
    refine ⟨hback, ?_⟩
    rintro tr₁ tr₂ rfl i hi
    exact stale_steps (Trace.steps_append.mp hr).2 hi (Trace.steps_append.mp hback).2

private def carnet : Store String RiteColumns := { references := fun _ _ => true }

private def tawaf (t : Time) : Request := .syncBatch [⟨"tawaf", none, some 3, none, t⟩]

/-- A reset after the version of the record. -/
theorem version_clock_apres : VersionClock 0 carnet
    (backend.evalAt (handler 0) carnet
      [(tawaf 5, 6), (.resetCounter "tawaf", 7), (tawaf 6, 8)]) := by
  refine (version_clock_iff 0 carnet _ (Backend.evalAt_run _ _)).mpr
    ⟨trivial, fun v hv => ?_, trivial, trivial⟩
  have h5 : 5 ∈ version (backend.eval 6 (handler 0 (tawaf 5)) carnet).2 (0, "tawaf") := by decide
  rw [Option.mem_unique hv h5]
  decide

/-- The clock of the phone is ahead of the server's. -/
theorem version_clock_avance :
    ¬ ∀ (u : UserId) (s : Store String RiteColumns) (tr : Journal), backend.RunAt (handler u) s tr →
      tr.Pairwise (fun x y => x.1.2 ≤ y.1.2) → VersionClock u s tr := by
  intro h
  obtain ⟨⟨-, hreset, -⟩, -⟩ := h 0 carnet
    (backend.evalAt (handler 0) carnet [(tawaf 100, 1), (.resetCounter "tawaf", 2)])
    (Backend.evalAt_run _ _) (by simp [Backend.evalAt])
  have hle := (step_notBack_iff (u := 0) (.resetCounter "tawaf", 2)).mp hreset
  exact absurd (hle 100 (by decide)) (by decide)

end RiteProgressService

end OumraHajj.Sync
