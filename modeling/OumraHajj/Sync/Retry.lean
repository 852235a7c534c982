import OumraHajj.Async.History
import OumraHajj.Sync.Laws

/-!
# A sync may be retried

The history of a run is the list of the items that the batches have processed, each with its pilgrim.
Whatever the run, the record of each of them is at least as recent as the item (`Remembers`), so a
later delivery of it finds a record that it does not replace (`syncBatch_retry`).
-/

namespace OumraHajj.Sync

open Async Merge

variable {I K C D α : Type} [DecidableEq K]

/-- What a request adds to the history. -/
def note (m : Model I K C D) (done : List (UserId × I)) (s : Store K C) (q : UserId × List I)
    (_ : Except Erreur (List α)) : List (UserId × I) :=
  done ++ (processed m q.1 s q.2).map fun i => (q.1, i)

/-- After every run, every delivery of items that were processed leaves the table as it is and answers
the rows of their keys. -/
def Retriable (B : Backend (sig K C D) (Store K C) Time) (m : Model I K C D)
    (toShape : Nat × Progress K C → α) (syncBatch : UserId × List I → Req K C D (List α)) : Prop :=
  ∀ (s₀ : Store K C) (tr : Trace (UserId × List I) (Store K C × List (UserId × I))),
    B.RunWith syncBatch (note m) (s₀, []) tr →
    ∀ tr' : Trace (UserId × List I) (Store K C), B.Run syncBatch (Trace.last (s₀, []) tr).1 tr' →
      (∀ x ∈ tr', ∀ i ∈ x.1.2, (x.1.1, i) ∈ (Trace.last (s₀, []) tr).2) →
      Trace.Steps (fun s q s' => s' = s ∧ ∀ r, B.Runs (syncBatch q) s r s' →
        ∃ shapes, r = .ok shapes ∧
          shapes.map some = q.2.map fun i => (s.find q.1 (m.key i)).map toShape)
        (Trace.last (s₀, []) tr).1 tr'

/-- The records are at least as recent as the items of the history. -/
def Remembers (m : Model I K C D) (x : Store K C × List (UserId × I)) : Prop :=
  ∀ y ∈ x.2, Done (records x.1) (m.item y.1 y.2)

variable {A : Patches D C} {c₀ : C} {m : Model I K C D} {toShape : Nat × Progress K C → α}

theorem Remembers.step (hm : m.Lawful A c₀) {x : Store K C × List (UserId × I)}
    {q : UserId × List I} {s' : Store K C} {r : Except Erreur (List α)} (hx : Remembers m x)
    (h : (backend A.apply).Runs (handler m toShape q) x.1 r s') :
    Remembers m (s', note m x.2 x.1 q r) := by
  obtain ⟨r₀, h, -⟩ := handler_runs h
  obtain ⟨hrec, -, -⟩ := syncBatch_spec hm h
  intro y hy
  change Done (records s') _
  rw [hrec]
  rcases List.mem_append.mp hy with hy | hy
  · exact (hx y hy).mergeAll _
  · obtain ⟨i, hi, rfl⟩ := List.mem_map.mp hy
    exact done_mergeAll (List.mem_map_of_mem hi)

theorem Remembers.last (hm : m.Lawful A c₀) {x : Store K C × List (UserId × I)}
    {tr : Trace (UserId × List I) (Store K C × List (UserId × I))} (hx : Remembers m x)
    (hr : (backend A.apply).RunWith (handler m toShape) (note m) x tr) :
    Remembers m (Trace.last x tr) := by
  refine Trace.Steps.last (fun x q y hx hq => ?_) hr hx
  obtain ⟨r, hq, hnote⟩ := hq
  have hs := hx.step hm hq
  rwa [← hnote] at hs

theorem retriable (hm : m.Lawful A c₀) :
    Retriable (backend A.apply) m toShape (handler m toShape) := by
  intro s₀ tr hr tr' hr' hitems
  have hx : Remembers m (Trace.last (s₀, []) tr) :=
    Remembers.last hm (x := (s₀, [])) (fun y hy => by cases hy) hr
  generalize Trace.last (s₀, []) tr = x at hx hr' hitems
  induction tr' with
  | nil => trivial
  | cons y tr' ih =>
    obtain ⟨⟨r, hy⟩, hr'⟩ := hr'
    have hdone : ∀ i ∈ y.1.2, Done (records x.1) (m.item y.1.1 i) := fun i hi =>
      hx _ (hitems y List.mem_cons_self i hi)
    have hstep : ∀ r s', (backend A.apply).Runs (handler m toShape y.1) x.1 r s' → s' = x.1 ∧
        ∃ shapes, r = .ok shapes ∧
          shapes.map some = y.1.2.map fun i => (x.1.find y.1.1 (m.key i)).map toShape := by
      intro r s' h
      obtain ⟨r₀, hb, rfl⟩ := handler_runs h
      obtain ⟨rfl, xs, rfl, hxs⟩ := syncBatch_done hm hb hdone
      refine ⟨rfl, xs.map toShape, rfl, ?_⟩
      have hmap := congrArg (List.map (Option.map toShape)) hxs
      simpa only [List.map_map, Function.comp_def, Option.map_some] using hmap
    obtain ⟨hs, -⟩ := hstep _ _ hy
    refine ⟨⟨hs, fun r hr => (hstep r _ hr).2⟩, ?_⟩
    rw [hs] at hr' ⊢
    exact ih hr' fun z hz => hitems z (List.mem_cons_of_mem _ hz)

/-- **A sync is safe to retry.** -/
theorem syncBatch_retry :
    Retriable RiteProgressService.backend RiteProgressService.model toRiteProgressShape
      (fun q => RiteProgressService.syncBatch q.1 q.2) ∧
    Retriable MicroCoursesService.backend MicroCoursesService.model toMicroCourseProgressShape
      (fun q => MicroCoursesService.syncBatch q.1 q.2) :=
  ⟨retriable rite_lawful, retriable course_lawful⟩

end OumraHajj.Sync
