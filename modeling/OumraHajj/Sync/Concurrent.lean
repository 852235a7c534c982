import Mathlib.Order.Bounds.Basic
import OumraHajj.Sync.Clock

/-!
# Syncs from several devices

Several devices of a pilgrim sync at once. The guard of `syncBatch` is read in one statement and the
record written in another, so an item may be written over a later one of another device. If no upsert
finds a later version than the one it writes (`Fresh`), then once every call has ended each record has
the greatest version of the items of its key and of the record before (`syncBatch_lastWriter`).

**Ghost values**: the items of a call that are done, that is, `Stale`.
-/

namespace OumraHajj.Sync

open Async Merge

section

variable {I K C D α ι : Type} [DecidableEq K]

/-- The versions of the record before the calls and of the items of its key. -/
def submitted (m : Model I K C D) (u : UserId) (batches : ι → List I) (s₀ : Store K C) (k : K) :
    Set Time :=
  {t | t ∈ version s₀ (u, k) ∨ ∃ d, ∃ i ∈ batches d, m.key i = k ∧ m.clientUpdatedAt i = t}

/-- An upsert of a known key finds no later version than the one it writes. -/
def Stmt.Fresh (s : Store K C) : Stmt K C D → Prop
  | .progressUpsert u k _ _ t => Known s (u, k) ∧ ∀ v ∈ version s (u, k), v ≤ t
  | _ => True

instance (s : Store K C) : DecidablePred (Stmt.Fresh (D := D) s)
  | .now => isTrue trivial
  | .progressFindMany _ => isTrue trivial
  | .progressFindUnique _ _ => isTrue trivial
  | .progressUpsert u k _ _ t =>
    inferInstanceAs (Decidable (Known s (u, k) ∧ ∀ v ∈ version s (u, k), v ≤ t))

/-- The next statement of the call that moves is `Fresh`. -/
def freshWrites : Pool.Cond (sig K C D) ι (Store K C) Time := fun next s t _ =>
  ∀ c ∈ next t, Stmt.Fresh s c

instance (next : ι → Option (Stmt K C D)) (s : Store K C) (t : ι) (e : Time) :
    Decidable (freshWrites next s t e) :=
  inferInstanceAs (Decidable (∀ c ∈ next t, Stmt.Fresh s c))

variable [DecidableEq ι]

/-- Once the calls of the devices have ended, whatever steps that satisfy `ok` led there, the record of
each key has the greatest version. -/
def LastWriterWins (B : Backend (sig K C D) (Store K C) Time) (m : Model I K C D)
    (syncBatch : UserId → List I → Req K C D (List α)) (ok : Pool.Cond (sig K C D) ι (Store K C) Time) :
    Prop :=
  ∀ (u : UserId) (s₀ : Store K C) (batches : ι → List I) (c : Pool (sig K C D) ι (Store K C) Erreur
      (List α)),
    Pool.Reach B ok ⟨fun d => syncBatch u (batches d), s₀⟩ c → c.Finished →
      ∀ k v, v ∈ version c.st (u, k) ↔ IsGreatest (submitted m u batches s₀ k) v

variable {A : Patches D C} {c₀ : C} {m : Model I K C D} {u : UserId} {s₀ : Store K C}
  {batches : ι → List I} {d : ι}

/-- What holds while the calls run (module doc). -/
structure DoneInv (m : Model I K C D) (u : UserId) (batches : ι → List I) (s₀ : Store K C)
    (γ : ι → List I) (s : Store K C) : Prop where
  before : NotBack s₀ s
  stale : ∀ d, ∀ i ∈ γ d, Stale m s u i
  origin : ∀ k, ∀ v ∈ version s (u, k), v ∈ submitted m u batches s₀ k

namespace DoneInv

variable {γ : ι → List I} {s s' : Store K C} {i : I}

theorem keep (h : DoneInv m u batches s₀ γ s) {g : List I} (hg : γ d = g) :
    DoneInv m u batches s₀ (Function.update γ d g) s := by
  subst hg
  rwa [Function.update_eq_self]

/-- An item that the record makes stale is done. -/
theorem skip (h : DoneInv m u batches s₀ γ s) (hi : Stale m s u i) :
    DoneInv m u batches s₀ (Function.update γ d (i :: γ d)) s := by
  refine ⟨h.before, fun d' j hj => ?_, h.origin⟩
  by_cases hd : d' = d
  · subst hd
    rw [Function.update_self] at hj
    rcases List.mem_cons.mp hj with rfl | hj
    · exact hi
    · exact h.stale d' j hj
  · rw [Function.update_of_ne hd] at hj
    exact h.stale d' j hj

/-- An item that is written over an older version is done. -/
theorem write {x : Nat × Progress K C} (h : DoneInv m u batches s₀ γ s) (hi : i ∈ batches d)
    (hw : Written A c₀ s s' (u, m.key i) (m.data i) (m.clientUpdatedAt i) x)
    (hv : ∀ v ∈ version s (u, m.key i), v ≤ m.clientUpdatedAt i) :
    DoneInv m u batches s₀ (Function.update γ d (i :: γ d)) s' := by
  have hback : NotBack s s' := hw.notBack_iff.mpr hv
  have hnew : version s' (u, m.key i) = some (m.clientUpdatedAt i) := by
    rw [version, hw.find, Option.map_some, hw.time]
  have hkept : DoneInv m u batches s₀ γ s' := by
    refine ⟨h.before.trans hback, fun d' j hj => (h.stale d' j hj).notBack hback, fun k v hvk => ?_⟩
    by_cases hk : k = m.key i
    · subst hk
      obtain rfl : m.clientUpdatedAt i = v := Option.some.inj (hnew.symm.trans hvk)
      exact .inr ⟨d, i, hi, rfl, rfl⟩
    · refine h.origin k v ?_
      rw [version, hw.other (u, k) fun hk' => hk (congrArg Prod.snd hk')] at hvk
      exact hvk
  exact hkept.skip ⟨_, hnew, le_refl _⟩

end DoneInv

/-- The protocol of the calls (module doc). -/
abbrev doneProto (m : Model I K C D) (u : UserId) (batches : ι → List I) (s₀ : Store K C) :
    Proto (sig K C D) ι (Store K C) where
  Gh := List I
  inv := DoneInv m u batches s₀
  place _ _ := True

theorem safe_upsert (hm : m.Lawful A c₀) {i : I} (hi : i ∈ batches d) {g : List I}
    {Q : Except Erreur (Nat × Progress K C) → List I → Prop} (hQ : ∀ x, Q (.ok x) (i :: g)) :
    (doneProto m u batches s₀).Safe (backend A.apply) freshWrites d
      (upsert u (m.key i) (m.create i) (m.data i) (m.clientUpdatedAt i)) Q g := by
  refine ⟨trivial, fun γ next s e hinv hg _ hn hok => ?_⟩
  obtain ⟨hk, hv⟩ := hok _ hn
  rcases exec_upsert A s u (m.key i) (m.clientUpdatedAt i) e (hm i) with ⟨-, x, hx, hw⟩ | ⟨hk', -⟩
  · refine ⟨i :: g, hg ▸ hinv.write hi hw hv, ?_⟩
    simp only [backend, hx]
    exact hQ x
  · exact absurd hk hk'

theorem safe_syncItem (hm : m.Lawful A c₀) {i : I} (hi : i ∈ batches d) {g : List I}
    {Q : Except Erreur (Nat × Progress K C) → List I → Prop} (hQ : ∀ x, Q (.ok x) (i :: g)) :
    (doneProto m u batches s₀).Safe (backend A.apply) freshWrites d (syncItem m u i) Q g := by
  refine ⟨trivial, fun γ next s e hinv hg _ _ _ => ?_⟩
  cases hf : s.find u (m.key i) with
  | none =>
    refine ⟨g, hinv.keep hg, ?_⟩
    simp only [backend, exec, hf]
    exact safe_upsert hm hi hQ
  | some y =>
    obtain ⟨id, existing⟩ := y
    simp only [backend, exec, hf]
    by_cases hle : existing.clientUpdatedAt ≥ m.clientUpdatedAt i
    · refine ⟨i :: g, hg ▸ hinv.skip ⟨_, mem_version hf, hle⟩, ?_⟩
      show Proto.Safe _ _ _ _ (if existing.clientUpdatedAt ≥ m.clientUpdatedAt i then
        .ret (id, existing) else upsert u _ _ _ _) _ _
      rw [if_pos hle]
      exact hQ _
    · refine ⟨g, hinv.keep hg, ?_⟩
      show Proto.Safe _ _ _ _ (if existing.clientUpdatedAt ≥ m.clientUpdatedAt i then
        .ret (id, existing) else upsert u _ _ _ _) _ _
      rw [if_neg hle]
      exact safe_upsert hm hi hQ

theorem safe_syncBatch (hm : m.Lawful A c₀) {items : List I} (hi : ∀ i ∈ items, i ∈ batches d)
    {g : List I} :
    (doneProto m u batches s₀).Safe (backend A.apply) freshWrites d (syncBatch m u items)
      (fun _ g' => ∀ i, i ∈ items ∨ i ∈ g → i ∈ g') g := by
  induction items generalizing g with
  | nil => exact fun i hig => hig.resolve_left List.not_mem_nil
  | cons i items ih =>
    refine Proto.safe_bind.mpr (safe_syncItem hm (hi i List.mem_cons_self) fun x => ?_)
    have hrest := ih (fun j hj => hi j (List.mem_cons_of_mem _ hj)) (g := i :: g)
    refine Proto.safe_bind.mpr (Proto.safe_mono (fun r g' hg' => ?_) hrest)
    have hall : ∀ j, j ∈ i :: items ∨ j ∈ g → j ∈ g' := by
      rintro j (hj | hj)
      · rcases List.mem_cons.mp hj with rfl | hj
        · exact hg' j (.inr List.mem_cons_self)
        · exact hg' j (.inl hj)
      · exact hg' j (.inr (List.mem_cons_of_mem _ hj))
    cases r with
    | ok xs => exact hall
    | error x => exact hall

theorem safe_handler (hm : m.Lawful A c₀) {toShape : Nat × Progress K C → α} (d : ι) :
    (doneProto m u batches s₀).Safe (backend A.apply) freshWrites d
      (handler m toShape (u, batches d)) (fun _ g => ∀ i ∈ batches d, i ∈ g) [] := by
  refine Proto.safe_bind.mpr (Proto.safe_mono (fun r g hg => ?_) (safe_syncBatch hm fun _ => id))
  have hall : ∀ i ∈ batches d, i ∈ g := fun i hi => hg i (.inl hi)
  cases r with
  | ok xs => exact hall
  | error x => exact hall

omit [DecidableEq ι] in
/-- A record that no item and no version before passes has the greatest version. -/
theorem DoneInv.isGreatest {γ : ι → List I} {s : Store K C} (h : DoneInv m u batches s₀ γ s)
    (hall : ∀ d, ∀ i ∈ batches d, i ∈ γ d) {k : K} {v : Time} (hv : v ∈ version s (u, k)) :
    IsGreatest (submitted m u batches s₀ k) v := by
  refine ⟨h.origin k v hv, ?_⟩
  rintro t (ht | ⟨d, i, hi, rfl, rfl⟩)
  · obtain ⟨v', hv', hle⟩ := h.before _ t ht
    exact (Option.mem_unique hv' hv) ▸ hle
  · obtain ⟨v', hv', hle⟩ := h.stale d i (hall d i hi)
    exact (Option.mem_unique hv' hv) ▸ hle

omit [DecidableEq ι] in
/-- A key with an item or a version before has a record. -/
theorem DoneInv.exists_version {γ : ι → List I} {s : Store K C} (h : DoneInv m u batches s₀ γ s)
    (hall : ∀ d, ∀ i ∈ batches d, i ∈ γ d) {k : K} {t : Time} (ht : t ∈ submitted m u batches s₀ k) :
    ∃ v, v ∈ version s (u, k) := by
  rcases ht with ht | ⟨d, i, hi, rfl, -⟩
  · obtain ⟨v, hv, -⟩ := h.before _ t ht
    exact ⟨v, hv⟩
  · obtain ⟨v, hv, -⟩ := h.stale d i (hall d i hi)
    exact ⟨v, hv⟩

theorem lastWriterWins (hm : m.Lawful A c₀) (toShape : Nat × Progress K C → α) :
    LastWriterWins (ι := ι) (backend A.apply) m (fun u items => handler m toShape (u, items))
      freshWrites := by
  intro u s₀ batches c hr hfin k v
  have hinit : DoneInv m u batches s₀ (fun _ => []) s₀ :=
    ⟨NotBack.refl s₀, fun _ i hi => absurd hi List.not_mem_nil, fun _ _ hv => .inl hv⟩
  have hkeeps : (doneProto m u batches s₀).Keeps (backend A.apply) freshWrites
      (fun d _ g => ∀ i ∈ batches d, i ∈ g)
      ⟨fun d => handler m toShape (u, batches d), s₀⟩ :=
    ⟨fun _ => [], hinit, fun d => safe_handler hm d⟩
  obtain ⟨γ, hinv, hsafe⟩ := Proto.reach (fun _ _ _ _ => trivial) hkeeps hr
  have hall : ∀ d, ∀ i ∈ batches d, i ∈ γ d := by
    intro d
    have hd := hsafe d
    have hn := hfin d
    rw [Pool.next] at hn
    cases hp : c.procs d with
    | ret a => rw [hp] at hd; exact hd
    | fail x => rw [hp] at hd; exact hd
    | call q k => rw [hp] at hn; cases hn
  constructor
  · exact fun hv => hinv.isGreatest hall hv
  · intro hv
    obtain ⟨v', hv'⟩ := hinv.exists_version hall hv.1
    rwa [← IsGreatest.unique (hinv.isGreatest hall hv') hv]

/-- **The last writer wins** if no upsert finds a later version than the one it writes. -/
theorem syncBatch_lastWriter (ι : Type) [DecidableEq ι] :
    LastWriterWins (ι := ι) RiteProgressService.backend RiteProgressService.model
      RiteProgressService.syncBatch freshWrites ∧
    LastWriterWins (ι := ι) MicroCoursesService.backend MicroCoursesService.model
      MicroCoursesService.syncBatch freshWrites :=
  ⟨lastWriterWins rite_lawful _, lastWriterWins course_lawful _⟩

end

/-- Both devices read that there is no record; then the later item is written, and the older one. -/
private def ordreEcrase : List (Bool × Time) := [(true, 0), (false, 0), (true, 0), (false, 0)]

private def lotRites : Bool → List RiteProgressItem
  | true => [⟨"tawaf", none, some 7, none, 2⟩]
  | false => [⟨"tawaf", none, some 3, none, 1⟩]

private def lotCours : Bool → List MicroCourseProgressItem
  | true => [⟨"ihram", some true, 2⟩]
  | false => [⟨"ihram", some false, 1⟩]

/-- An older item may be written over a later one. -/
theorem syncBatch_ecrase :
    ¬ LastWriterWins (ι := Bool) RiteProgressService.backend RiteProgressService.model
      RiteProgressService.syncBatch Pool.anyStep ∧
    ¬ LastWriterWins (ι := Bool) MicroCoursesService.backend MicroCoursesService.model
      MicroCoursesService.syncBatch Pool.anyStep := by
  constructor
  · intro h
    have hmax := (h 0 { references := fun _ _ => true } lotRites _ (Pool.Reach.refl.run ordreEcrase)
      (by decide) "tawaf" 1).mp (by decide)
    exact absurd (hmax.2 (.inr ⟨true, _, List.mem_singleton_self _, rfl, rfl⟩)) (by decide)
  · intro h
    have hmax := (h 0 { references := fun _ _ => true } lotCours _ (Pool.Reach.refl.run ordreEcrase)
      (by decide) "ihram" 1).mp (by decide)
    exact absurd (hmax.2 (.inr ⟨true, _, List.mem_singleton_self _, rfl, rfl⟩)) (by decide)

end OumraHajj.Sync
