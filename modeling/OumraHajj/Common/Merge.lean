import Mathlib.Data.List.Perm.Basic
import Mathlib.Order.Lattice
import Mathlib.Logic.Function.Basic

/-!
# Records merged by timestamp

A register holds a record with the time of its last update. An item is a partial update with a time;
it is applied if the register is empty or its time is later, and ignored otherwise. A store has one
register for each key.

* `Done s i`: the register of the item is at least as recent as the item. Every merge makes its item
  done and keeps done what was (`Done.mergeAll`), and an item that is done changes nothing
  (`mergeAll_of_done`), so a delivery may be repeated.
* `Decided x l`: the newest items of `l` give the same record, and none of them leaves a field to an
  older item. The items of `l` merge to the same register in every order exactly if `l` is decided
  (`foldl_perm_iff`, `mergeAll_perm_iff`).
-/

namespace Merge

/-- Partial updates of a record. By `congr` a later update cannot bring back a difference that `p`
overwrites. -/
structure Patches (P R : Type) where
  apply : P → R → R
  congr : ∀ p q r r', apply p r = apply p r' → apply p (apply q r) = apply p (apply q r')

structure Item (K P T : Type) where
  key : K
  patch : P
  time : T

variable {K P R T : Type} [LinearOrder T] (A : Patches P R) (r₀ : R)

/-- The record of a register, `r₀` if it is empty. -/
def base (x : Option (R × T)) : R := (x.map Prod.fst).getD r₀

/-- The item is later than the register. -/
def Newer (x : Option (R × T)) (t : T) : Prop := ∀ y ∈ x, y.2 < t

instance (x : Option (R × T)) (t : T) : Decidable (Newer x t) :=
  inferInstanceAs (Decidable (∀ y ∈ x, y.2 < t))

/-- One item in its register. -/
def step (x : Option (R × T)) (i : Item K P T) : Option (R × T) :=
  if Newer x i.time then some (A.apply i.patch (base r₀ x), i.time) else x

/-! ## One register -/

variable {A r₀} {x : Option (R × T)} {l l₁ l₂ : List (Item K P T)}

theorem step_newer {i : Item K P T} (h : Newer x i.time) :
    step A r₀ x i = some (A.apply i.patch (base r₀ x), i.time) := if_pos h

theorem step_le {i : Item K P T} {r : R} {t : T} (h : i.time ≤ t) :
    step A r₀ (some (r, t)) i = some (r, t) :=
  if_neg fun hn => absurd (hn (r, t) rfl) (not_lt.mpr h)

/-- Items that are not later change nothing. -/
theorem foldl_le {r : R} {t : T} (h : ∀ i ∈ l, i.time ≤ t) :
    l.foldl (step A r₀) (some (r, t)) = some (r, t) := by
  induction l with
  | nil => rfl
  | cons i l ih =>
    rw [List.foldl_cons, step_le (h i List.mem_cons_self)]
    exact ih fun j hj => h j (List.mem_cons_of_mem _ hj)

theorem foldl_not_newer (h : ∀ i ∈ l, ¬ Newer x i.time) : l.foldl (step A r₀) x = x := by
  induction l with
  | nil => rfl
  | cons i l ih =>
    rw [List.foldl_cons, step, if_neg (h i List.mem_cons_self)]
    exact ih fun j hj => h j (List.mem_cons_of_mem _ hj)

variable (A r₀) in
/-- The newest items decide the record alone (module doc). -/
def Decided (x : Option (R × T)) (l : List (Item K P T)) : Prop :=
  ∀ m ∈ l, Newer x m.time → (∀ i ∈ l, i.time ≤ m.time) → ∀ i ∈ l, Newer x i.time →
    (i.time < m.time →
      A.apply m.patch (A.apply i.patch (base r₀ x)) = A.apply m.patch (base r₀ x)) ∧
    (i.time = m.time → A.apply i.patch (base r₀ x) = A.apply m.patch (base r₀ x))

theorem Decided.perm (h : Decided A r₀ x l) (hp : l₁.Perm l) : Decided A r₀ x l₁ :=
  fun m hm hn hmax i hi => h m (hp.mem_iff.mp hm) hn
    (fun j hj => hmax j (hp.mem_iff.mpr hj)) i (hp.mem_iff.mp hi)

variable (A r₀) in
/-- Where `m` comes first, it decides. -/
theorem foldl_max_first {m : Item K P T} (hm : Newer x m.time) (h : ∀ i ∈ l, i.time ≤ m.time) :
    (m :: l).foldl (step A r₀) x = some (A.apply m.patch (base r₀ x), m.time) := by
  rw [List.foldl_cons, step_newer hm]
  exact foldl_le h

/-- The register is at least as recent. -/
def Recent (x : Option (R × T)) (t : T) : Prop := ∃ y ∈ x, t ≤ y.2

theorem recent_of_not_newer {t : T} (h : ¬ Newer x t) : Recent x t := by
  by_contra hr
  exact h fun y hy => lt_of_not_ge fun hle => hr ⟨y, hy, hle⟩

theorem recent_step (x : Option (R × T)) (i : Item K P T) : Recent (step A r₀ x i) i.time := by
  by_cases h : Newer x i.time
  · rw [step_newer h]
    exact ⟨_, rfl, le_refl _⟩
  · rw [step, if_neg h]
    exact recent_of_not_newer h

theorem Recent.step {t : T} (h : Recent x t) (i : Item K P T) : Recent (step A r₀ x i) t := by
  by_cases hn : Newer x i.time
  · obtain ⟨y, hy, hle⟩ := h
    rw [step_newer hn]
    exact ⟨_, rfl, le_trans hle (le_of_lt (hn y hy))⟩
  · rwa [Merge.step, if_neg hn]

theorem Recent.foldl {t : T} (h : Recent x t) (l : List (Item K P T)) :
    Recent (l.foldl (Merge.step A r₀) x) t := by
  induction l generalizing x with
  | nil => exact h
  | cons i l ih => exact ih (h.step i)

variable (A r₀ x) in
theorem recent_foldl {i : Item K P T} (hi : i ∈ l) : Recent (l.foldl (step A r₀) x) i.time := by
  induction l generalizing x with
  | nil => cases hi
  | cons j l ih =>
    rcases List.mem_cons.mp hi with rfl | hi
    · exact (recent_step x i).foldl l
    · exact ih _ hi

theorem step_recent {i : Item K P T} (h : Recent x i.time) : step A r₀ x i = x := by
  obtain ⟨y, hy, hle⟩ := h
  exact if_neg fun hn => absurd (hn y hy) (not_lt.mpr hle)

variable (A r₀) in
/-- What is known of the register while the items are merged: it is as it was, or the newest items,
of the time `t`, give on it what they give on the record before. -/
def Toward (x : Option (R × T)) (l : List (Item K P T)) (t : T) (y : Option (R × T)) : Prop :=
  y = x ∨ ∃ r t', y = some (r, t') ∧ Newer x t' ∧ t' ≤ t ∧ ∀ m ∈ l, m.time = t →
    (t' < t → A.apply m.patch r = A.apply m.patch (base r₀ x)) ∧
      (t' = t → r = A.apply m.patch (base r₀ x))

theorem Toward.step (hd : Decided A r₀ x l) {t : T} (hn : Newer x t) (hmax : ∀ i ∈ l, i.time ≤ t)
    {y : Option (R × T)} (hy : Toward A r₀ x l t y) {i : Item K P T} (hi : i ∈ l) :
    Toward A r₀ x l t (Merge.step A r₀ y i) := by
  by_cases hni : Newer y i.time
  swap
  · rwa [Merge.step, if_neg hni]
  rw [step_newer hni]
  have hdec : ∀ m ∈ l, m.time = t → Newer x i.time → _ := fun m hm hmt =>
    hd m hm (hmt ▸ hn) (hmt ▸ hmax) i hi
  rcases hy with rfl | ⟨r, t', rfl, hnx, hle, hr⟩
  · refine .inr ⟨_, i.time, rfl, hni, hmax i hi, fun m hm hmt => ?_⟩
    obtain ⟨hlt, heq⟩ := hdec m hm hmt hni
    exact ⟨fun h => hlt (hmt ▸ h), fun h => heq (hmt ▸ h)⟩
  · have ht' : t' < i.time := hni (r, t') rfl
    have hnxi : Newer x i.time := fun z hz => lt_trans (hnx z hz) ht'
    have ht : t' < t := lt_of_lt_of_le ht' (hmax i hi)
    refine .inr ⟨_, i.time, rfl, hnxi, hmax i hi, fun m hm hmt => ⟨fun h => ?_, fun h => ?_⟩⟩
    · obtain ⟨hlt, -⟩ := hdec m hm hmt hnxi
      exact (A.congr _ _ _ _ ((hr m hm hmt).1 ht)).trans (hlt (hmt ▸ h))
    · obtain ⟨-, heq⟩ := hdec m hm hmt hnxi
      exact ((hr i hi h).1 ht).trans (heq (hmt ▸ h))

theorem Toward.foldl (hd : Decided A r₀ x l) {t : T} (hn : Newer x t) (hmax : ∀ i ∈ l, i.time ≤ t)
    {y : Option (R × T)} (hy : Toward A r₀ x l t y) (hl : ∀ i ∈ l₁, i ∈ l) :
    Toward A r₀ x l t (l₁.foldl (Merge.step A r₀) y) := by
  induction l₁ generalizing y with
  | nil => exact hy
  | cons i l₁ ih =>
    exact ih (hy.step hd hn hmax (hl i List.mem_cons_self)) fun j hj =>
      hl j (List.mem_cons_of_mem _ hj)

/-- Decided items merge to what a newest one gives. -/
theorem foldl_decided (hd : Decided A r₀ x l) {m : Item K P T} (hm : m ∈ l) (hn : Newer x m.time)
    (hmax : ∀ i ∈ l, i.time ≤ m.time) :
    l.foldl (step A r₀) x = some (A.apply m.patch (base r₀ x), m.time) := by
  have ht : Toward A r₀ x l m.time (l.foldl (step A r₀) x) :=
    Toward.foldl hd hn hmax (.inl rfl) fun _ => id
  obtain ⟨y, hy, hle⟩ := recent_foldl A r₀ x hm
  rcases ht with hx | ⟨r, t', hx, -, hle', hr⟩
  · rw [hx] at hy
    exact absurd (hn y hy) (not_lt.mpr hle)
  · rw [hx] at hy ⊢
    obtain rfl : (r, t') = y := Option.some.inj hy
    have heq : t' = m.time := le_antisymm hle' hle
    rw [heq, (hr m hm rfl).2 heq]

theorem exists_max {l : List (Item K P T)} (hl : l ≠ []) : ∃ m ∈ l, ∀ i ∈ l, i.time ≤ m.time := by
  induction l with
  | nil => exact absurd rfl hl
  | cons j l ih =>
    by_cases hl' : l = []
    · subst hl'
      exact ⟨j, List.mem_cons_self, fun i hi => by rw [List.mem_singleton.mp hi]⟩
    · obtain ⟨m, hm, hmax⟩ := ih hl'
      rcases le_total m.time j.time with h | h
      · refine ⟨j, List.mem_cons_self, fun i hi => ?_⟩
        rcases List.mem_cons.mp hi with rfl | hi
        · exact le_refl _
        · exact le_trans (hmax i hi) h
      · refine ⟨m, List.mem_cons_of_mem _ hm, fun i hi => ?_⟩
        rcases List.mem_cons.mp hi with rfl | hi
        · exact h
        · exact hmax i hi

/-- An item may be moved to the front. -/
theorem exists_front {α : Type} {l : List α} {a : α} (h : a ∈ l) : ∃ l', (a :: l').Perm l := by
  obtain ⟨l₁, l₂, rfl⟩ := List.append_of_mem h
  exact ⟨l₁ ++ l₂, List.perm_middle.symm⟩

/-- **Order of the items of a register.** They merge to the same register in every order exactly if
they are decided. -/
theorem foldl_perm_iff :
    (∀ l₁ l₂ : List (Item K P T), l₁.Perm l → l₂.Perm l →
        l₁.foldl (step A r₀) x = l₂.foldl (step A r₀) x) ↔
      Decided A r₀ x l := by
  constructor
  · intro h m hm hn hmax i hi hni
    obtain ⟨lm, hlm⟩ := exists_front hm
    have hfirst := foldl_max_first A r₀ hn fun j hj =>
      hmax j (hlm.mem_iff.mp (List.mem_cons_of_mem _ hj))
    refine ⟨fun hlt => ?_, fun heq => ?_⟩
    · -- `i` before `m`
      have hne : i ≠ m := by
        rintro rfl
        exact lt_irrefl _ hlt
      have him : i ∈ lm := (List.mem_cons.mp (hlm.mem_iff.mpr hi)).resolve_left hne
      obtain ⟨li, hli⟩ := exists_front him
      have hp : (i :: m :: li).Perm l :=
        ((List.Perm.swap m i li).trans (hli.cons m)).trans hlm
      have hni' : Newer (some (A.apply i.patch (base r₀ x), i.time)) m.time := by
        rintro y ⟨⟩
        exact hlt
      have hsecond := foldl_max_first A r₀ hni' fun j hj =>
        hmax j (hp.mem_iff.mp (List.mem_cons_of_mem _ (List.mem_cons_of_mem _ hj)))
      have hall := h _ _ hp hlm
      rw [List.foldl_cons, step_newer hni, hsecond, hfirst] at hall
      exact congrArg Prod.fst (Option.some.inj hall)
    · -- `i` first
      obtain ⟨li, hli⟩ := exists_front hi
      have hfirst' := foldl_max_first A r₀ hni fun j hj =>
        heq ▸ hmax j (hli.mem_iff.mp (List.mem_cons_of_mem _ hj))
      have hall := h _ _ hli hlm
      rw [hfirst, hfirst'] at hall
      exact congrArg Prod.fst (Option.some.inj hall)
  · intro hd l₁ l₂ h₁ h₂
    by_cases hn : ∃ i ∈ l, Newer x i.time
    · obtain ⟨i, hi, hni⟩ := hn
      obtain ⟨m, hm, hmax⟩ := exists_max (List.ne_nil_of_mem hi)
      have hnm : Newer x m.time := fun y hy => lt_of_lt_of_le (hni y hy) (hmax i hi)
      have hfold : ∀ l' : List (Item K P T), l'.Perm l →
          l'.foldl (step A r₀) x = some (A.apply m.patch (base r₀ x), m.time) := fun l' hp =>
        foldl_decided (hd.perm hp) (hp.mem_iff.mpr hm) hnm fun j hj => hmax j (hp.mem_iff.mp hj)
      rw [hfold l₁ h₁, hfold l₂ h₂]
    · have hfold : ∀ l' : List (Item K P T), l'.Perm l → l'.foldl (step A r₀) x = x := fun l' hp =>
        foldl_not_newer fun j hj hnj => hn ⟨j, hp.mem_iff.mp hj, hnj⟩
      rw [hfold l₁ h₁, hfold l₂ h₂]

/-! ## A register for each key -/

section Keys

variable [DecidableEq K] {s : K → Option (R × T)}

variable (A r₀) in
/-- One item. -/
def merge (s : K → Option (R × T)) (i : Item K P T) : K → Option (R × T) :=
  Function.update s i.key (step A r₀ (s i.key) i)

variable (A r₀) in
/-- One item after the other. -/
def mergeAll (s : K → Option (R × T)) (l : List (Item K P T)) : K → Option (R × T) :=
  l.foldl (merge A r₀) s

/-- Each register merges the items of its key. -/
theorem mergeAll_apply (s : K → Option (R × T)) (l : List (Item K P T)) (k : K) :
    mergeAll A r₀ s l k = (l.filter (·.key = k)).foldl (step A r₀) (s k) := by
  induction l generalizing s with
  | nil => rfl
  | cons i l ih =>
    rw [mergeAll, List.foldl_cons, ← mergeAll, ih]
    by_cases hk : i.key = k
    · subst hk
      rw [List.filter_cons_of_pos (by simp), List.foldl_cons, merge, Function.update_self]
    · rw [List.filter_cons_of_neg (by simpa using hk), merge,
        Function.update_of_ne (Ne.symm hk)]

theorem mergeAll_append (s : K → Option (R × T)) (l₁ l₂ : List (Item K P T)) :
    mergeAll A r₀ s (l₁ ++ l₂) = mergeAll A r₀ (mergeAll A r₀ s l₁) l₂ := List.foldl_append

/-- **Order of the items.** They merge to the same records in every order exactly if those of each
key are decided. -/
theorem mergeAll_perm_iff :
    (∀ l₁ l₂ : List (Item K P T), l₁.Perm l → l₂.Perm l →
        mergeAll A r₀ s l₁ = mergeAll A r₀ s l₂) ↔
      ∀ k, Decided A r₀ (s k) (l.filter (·.key = k)) := by
  constructor
  · refine fun h k => foldl_perm_iff.mp fun l₁ l₂ h₁ h₂ => ?_
    have hkeys : ∀ l' : List (Item K P T), l'.Perm (l.filter (·.key = k)) → ∀ i ∈ l', i.key = k :=
        fun l' hp i hi => by
      simpa using (List.mem_filter.mp (hp.mem_iff.mp hi)).2
    -- the items of the other keys come afterwards
    have hwhole : ∀ l' : List (Item K P T), l'.Perm (l.filter (·.key = k)) →
        (l' ++ l.filter (fun i => !decide (i.key = k))).Perm l := fun l' hp =>
      (hp.append_right _).trans (List.filter_append_perm _ l)
    have hk : ∀ l' : List (Item K P T), l'.Perm (l.filter (·.key = k)) →
        (l' ++ l.filter (fun i => !decide (i.key = k))).filter (·.key = k) = l' := by
      intro l' hp
      have hself : l'.filter (fun i => decide (i.key = k)) = l' :=
        List.filter_eq_self.mpr fun i hi => decide_eq_true (hkeys l' hp i hi)
      have hnil :
          (l.filter fun i => !decide (i.key = k)).filter (fun i => decide (i.key = k)) = [] := by
        refine List.filter_eq_nil_iff.mpr fun i hi => ?_
        simpa using (List.mem_filter.mp hi).2
      rw [List.filter_append, hself, hnil, List.append_nil]
    have hall := congrFun (h _ _ (hwhole l₁ h₁) (hwhole l₂ h₂)) k
    rwa [mergeAll_apply, mergeAll_apply, hk l₁ h₁, hk l₂ h₂] at hall
  · refine fun h l₁ l₂ h₁ h₂ => funext fun k => ?_
    rw [mergeAll_apply, mergeAll_apply]
    exact foldl_perm_iff.mpr (h k) _ _ (h₁.filter _) (h₂.filter _)

/-! ## Repeated items -/

/-- The register of the item is at least as recent as the item. -/
def Done (s : K → Option (R × T)) (i : Item K P T) : Prop := Recent (s i.key) i.time

theorem merge_of_done {i : Item K P T} (h : Done s i) : merge A r₀ s i = s := by
  rw [merge, step_recent h, Function.update_eq_self]

/-- What is done stays done. -/
theorem Done.mergeAll {i : Item K P T} (h : Done s i) (l : List (Item K P T)) :
    Done (mergeAll A r₀ s l) i := by
  unfold Done
  rw [mergeAll_apply]
  exact Recent.foldl h _

theorem done_mergeAll {i : Item K P T} (h : i ∈ l) : Done (mergeAll A r₀ s l) i := by
  unfold Done
  rw [mergeAll_apply]
  exact recent_foldl _ _ _ (List.mem_filter.mpr ⟨h, by simp⟩)

/-- **Repeated items.** Items that are done change nothing. -/
theorem mergeAll_of_done (h : ∀ i ∈ l, Done s i) : Merge.mergeAll A r₀ s l = s := by
  induction l with
  | nil => rfl
  | cons i l ih =>
    rw [Merge.mergeAll, List.foldl_cons, merge_of_done (h i List.mem_cons_self)]
    exact ih fun j hj => h j (List.mem_cons_of_mem _ hj)

end Keys

end Merge
