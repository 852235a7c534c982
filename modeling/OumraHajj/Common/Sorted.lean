import Mathlib.Data.List.Sort

/-!
# Sorting in two parts

A sort puts what comes strictly before the rest first, so it may be made in two parts, each of them in
the order in which the list has it (`insertionSort_split`). Of a list in two such parts, `take` cuts
the second one first (`filter_take_append`, `find?_take_append`).
-/

namespace Sorted

variable {α : Type} {r : α → α → Prop} [DecidableRel r] {p : α → Bool} {a : α} {l l₁ l₂ : List α}

theorem orderedInsert_append_of_rel (h : ∀ b ∈ l₂, r a b) :
    (l₁ ++ l₂).orderedInsert r a = l₁.orderedInsert r a ++ l₂ := by
  induction l₁ with
  | nil =>
    rcases l₂ with - | ⟨b, l₂⟩
    · rfl
    · exact List.orderedInsert_cons_of_le r l₂ (h b List.mem_cons_self)
  | cons c l₁ ih =>
    rw [List.cons_append, List.orderedInsert_cons, List.orderedInsert_cons]
    split
    · rfl
    · rw [ih, List.cons_append]

theorem orderedInsert_append_of_not_rel (h : ∀ b ∈ l₁, ¬ r a b) :
    (l₁ ++ l₂).orderedInsert r a = l₁ ++ l₂.orderedInsert r a := by
  induction l₁ with
  | nil => rfl
  | cons c l₁ ih =>
    obtain ⟨hc, hl⟩ := List.forall_mem_cons.mp h
    rw [List.cons_append, List.orderedInsert_of_not_le r _ hc, ih hl, List.cons_append]

/-- **A sort in two parts.** -/
theorem insertionSort_split (hp : ∀ x y, p x = true → p y = false → r x y ∧ ¬ r y x) (l : List α) :
    l.insertionSort r =
      (l.filter p).insertionSort r ++ (l.filter fun x => !p x).insertionSort r := by
  induction l with
  | nil => rfl
  | cons a l ih =>
    rw [List.insertionSort_cons, ih]
    by_cases ha : p a = true
    · rw [List.filter_cons_of_pos ha, List.filter_cons_of_neg (by simp [ha]), List.insertionSort_cons,
        orderedInsert_append_of_rel]
      intro b hb
      have hb := (List.mem_filter.mp ((List.mem_insertionSort r).mp hb)).2
      exact (hp a b ha (by simpa using hb)).1
    · rw [List.filter_cons_of_neg ha, List.filter_cons_of_pos (by simp [ha]), List.insertionSort_cons,
        orderedInsert_append_of_not_rel]
      intro b hb
      have hb := (List.mem_filter.mp ((List.mem_insertionSort r).mp hb)).2
      exact (hp b a hb (by simpa using ha)).2

/-! ## The first rows of a list in two parts -/

/-- The first part of what is taken. -/
theorem filter_take_append (h₁ : ∀ x ∈ l₁, p x = true) (h₂ : ∀ x ∈ l₂, p x = false) (n : Nat) :
    ((l₁ ++ l₂).take n).filter p = l₁.take n := by
  rw [List.take_append, List.filter_append,
    List.filter_eq_self.mpr fun x hx => h₁ x (List.mem_of_mem_take hx),
    List.filter_eq_nil_iff.mpr fun x hx => by simp [h₂ x (List.mem_of_mem_take hx)], List.append_nil]

/-- The first row of the second part, if it is taken. -/
theorem find?_take_append (h₁ : ∀ x ∈ l₁, p x = false) (h₂ : ∀ x ∈ l₂, p x = true) (n : Nat) :
    ((l₁ ++ l₂).take n).find? p = (l₂.take (n - l₁.length)).head? := by
  have hnone : (l₁.take n).find? p = none :=
    List.find?_eq_none.mpr fun x hx => by simp [h₁ x (List.mem_of_mem_take hx)]
  rw [List.take_append, List.find?_append, hnone, Option.none_or]
  rcases h : l₂.take (n - l₁.length) with - | ⟨x, l⟩
  · rfl
  · have hx : x ∈ l₂ := List.mem_of_mem_take (h ▸ List.mem_cons_self)
    rw [List.find?_cons_of_pos (h₂ x hx), List.head?_cons]

/-! ## The rows of each key -/

/-- A list that is taken key by key. -/
theorem flatMap_filter_perm {κ : Type} [DecidableEq κ] {f : α → κ} {keys : List κ}
    (hnodup : keys.Nodup) {l : List α} (hf : ∀ x ∈ l, f x ∈ keys) :
    (keys.flatMap fun k => l.filter fun x => f x = k).Perm l := by
  induction keys generalizing l with
  | nil =>
    obtain rfl := List.eq_nil_iff_forall_not_mem.mpr fun x hx => List.not_mem_nil (hf x hx)
    exact .refl _
  | cons k keys ih =>
    obtain ⟨hk, hnodup⟩ := List.nodup_cons.mp hnodup
    have hrest : (keys.flatMap fun j => l.filter fun x => f x = j) =
        keys.flatMap fun j => (l.filter fun x => !decide (f x = k)).filter fun x => f x = j := by
      refine List.flatMap_congr fun j hj => ?_
      rw [List.filter_filter]
      refine List.filter_congr fun x _ => ?_
      have hne : j ≠ k := fun h => hk (h ▸ hj)
      by_cases hx : f x = j
      · simp [hx, hne]
      · simp [hx]
    have hperm := ih hnodup (l := l.filter fun x => !decide (f x = k)) fun x hx => by
      obtain ⟨hx, hne⟩ := List.mem_filter.mp hx
      exact (List.mem_cons.mp (hf x hx)).resolve_left (by simpa using hne)
    rw [List.flatMap_cons, hrest]
    exact (hperm.append_left _).trans (List.filter_append_perm _ l)

end Sorted
