import Mathlib.Algebra.BigOperators.Group.List.Basic
import Mathlib.Algebra.Order.Group.Defs
import Mathlib.Data.Finset.Range
import Mathlib.Data.Finset.Card
import Mathlib.Tactic.Abel

/-!
# Tables that only grow

A table whose rows are never deleted is the list of its rows in the order of their creation, and
the identifier of a row is its position, so identifiers are unique by construction. `t[id]?` reads a
row, `t.set id x` replaces one and `t ++ [x]` creates one.

* `Table.withIds`, `Table.findMany`: the rows with their identifiers, all or those that satisfy a
  test.
* `Table.ids P`: the identifiers of the rows that satisfy `P`, a finite set.
* `Table.sumWhere P f`: the sum of `f` over these rows.
* `Table.row`: the rows of a table in which rows are deleted.

For the last two: how they change when a row is replaced or created.
-/

namespace Async

/-- A table (module doc). -/
abbrev Table (α : Type) := List α

namespace Table

variable {α : Type}

/-- The rows with their identifiers. -/
def withIds (t : Table α) : List (Nat × α) := t.mapIdx fun i x => (i, x)

/-- The rows that satisfy `P`, with their identifiers. -/
def findMany (t : Table α) (P : α → Bool) : List (Nat × α) := t.withIds.filter fun x => P x.2

/-- The first row that satisfies `P`, with its identifier. -/
def findFirst (t : Table α) (P : α → Bool) : Option (Nat × α) := t.withIds.find? fun x => P x.2

/-- The identifiers of the rows that satisfy `P`. -/
def ids (t : Table α) (P : α → Bool) : Finset Nat :=
  (Finset.range t.length).filter fun i => (t[i]?).any P

theorem lt_of_get {t : Table α} {i : Nat} {x : α} (h : t[i]? = some x) : i < t.length :=
  (List.getElem?_eq_some_iff.mp h).1

theorem get_set {t : Table α} {i : Nat} {x : α} (h : t[i]? = some x) (y : α) (j : Nat) :
    (t.set i y)[j]? = if i = j then some y else t[j]? := by
  rw [List.getElem?_set, if_pos (lt_of_get h)]

theorem set_self {t : Table α} {i : Nat} {x : α} (h : t[i]? = some x) : t.set i x = t := by
  obtain ⟨hi, rfl⟩ := List.getElem?_eq_some_iff.mp h
  exact List.set_getElem_self hi

theorem get_append (t : Table α) (y : α) (j : Nat) :
    (t ++ [y])[j]? = if j = t.length then some y else t[j]? := by
  split
  · subst_vars; simp
  · rename_i hj
    rcases Nat.lt_or_gt_of_ne hj with h | h
    · rw [List.getElem?_append_left h]
    · rw [List.getElem?_eq_none (by simp; omega), List.getElem?_eq_none (by omega)]

theorem get_append_of_get {t : Table α} {i : Nat} {x : α} (h : t[i]? = some x) (y : α) :
    (t ++ [y])[i]? = some x := by
  rw [List.getElem?_append_left (lt_of_get h), h]

@[simp] theorem map_snd_withIds (t : Table α) : t.withIds.map Prod.snd = t := by
  apply List.ext_getElem <;> simp [withIds]

theorem mem_withIds {t : Table α} {i : Nat} {x : α} : (i, x) ∈ t.withIds ↔ t[i]? = some x := by
  simp only [withIds, List.mem_mapIdx, Prod.mk.injEq, List.getElem?_eq_some_iff]
  constructor
  · rintro ⟨j, hj, rfl, rfl⟩; exact ⟨hj, rfl⟩
  · rintro ⟨hj, rfl⟩; exact ⟨i, hj, rfl, rfl⟩

theorem withIds_pairwise (t : Table α) : t.withIds.Pairwise fun x y => x.1 ≠ y.1 := by
  have hids : t.withIds.map Prod.fst = List.range t.length :=
    List.ext_getElem (by simp [withIds]) fun i _ _ => by simp [withIds]
  exact List.pairwise_map.mp (hids ▸ List.nodup_range)

/-- A test that only the row of an identifier may pass. -/
theorem countP_withIds {t : Table α} {i : Nat} {x : α} (h : t[i]? = some x) {Q : Nat × α → Bool}
    (hQ : ∀ y, Q y = true → y.1 = i) : t.withIds.countP Q = if Q (i, x) then 1 else 0 := by
  have hself : ∀ y ∈ t.withIds, y.1 = i → y = (i, x) := by
    rintro ⟨j, y⟩ hy rfl
    rw [Option.some.inj ((mem_withIds.mp hy).symm.trans h)]
  split
  · next hx =>
    have hnodup : (t.withIds.map Prod.fst).Nodup := List.pairwise_map.mpr (withIds_pairwise t)
    have hmem : i ∈ t.withIds.map Prod.fst := List.mem_map.mpr ⟨(i, x), mem_withIds.mpr h, rfl⟩
    rw [← List.count_eq_one_of_mem hnodup hmem, List.count_eq_countP, List.countP_map]
    refine List.countP_congr fun y hy => ?_
    rw [Function.comp_apply, beq_iff_eq]
    exact ⟨hQ y, fun hi => hself y hy hi ▸ hx⟩
  · next hx =>
    exact List.countP_eq_zero.mpr fun y hy hy' => hx (hself y hy (hQ y hy') ▸ hy')

/-- A row is found once. -/
theorem countP_findMany {t : Table α} {P : α → Bool} {i : Nat} {x : α} (h : t[i]? = some x)
    (hP : P x = true) : (t.findMany P).countP (·.1 = i) = 1 := by
  rw [findMany, List.countP_filter, countP_withIds h fun y hy => by simp at hy; exact hy.1,
    if_pos (by simp [hP])]

theorem findFirst_some {t : Table α} {P : α → Bool} {i : Nat} {x : α}
    (h : t.findFirst P = some (i, x)) : t[i]? = some x ∧ P x = true := by
  have hm := List.mem_of_find?_eq_some h
  exact ⟨mem_withIds.mp hm, by simpa using List.find?_some h⟩

theorem findFirst_none {t : Table α} {P : α → Bool} (h : t.findFirst P = none) {i : Nat} {x : α}
    (hx : t[i]? = some x) : P x = false := by
  have := List.find?_eq_none.mp h (i, x) (mem_withIds.mpr hx)
  simpa using this

theorem findFirst_eq_some_iff {t : Table α} {P : α → Bool} {i : Nat} {x : α} :
    t.findFirst P = some (i, x) ↔
      t[i]? = some x ∧ P x = true ∧ ∀ j y, j < i → t[j]? = some y → P y = false := by
  unfold findFirst
  rw [List.find?_eq_some_iff_getElem]
  constructor
  · rintro ⟨hP, k, hk, hx, hlt⟩
    simp only [withIds, List.getElem_mapIdx, Prod.mk.injEq] at hx
    obtain ⟨rfl, rfl⟩ := hx
    have hk' : k < t.length := by simpa [withIds] using hk
    refine ⟨List.getElem?_eq_getElem hk', hP, fun j y hj hy => ?_⟩
    have hnot := hlt j hj
    obtain ⟨hj', rfl⟩ := List.getElem?_eq_some_iff.mp hy
    simpa [withIds] using hnot
  · rintro ⟨hx, hP, hlt⟩
    obtain ⟨hi, rfl⟩ := List.getElem?_eq_some_iff.mp hx
    refine ⟨hP, i, by simpa [withIds] using hi, by simp [withIds], fun j hj => ?_⟩
    have hjt : j < t.length := Nat.lt_trans hj hi
    have := hlt j t[j] hj (List.getElem?_eq_getElem hjt)
    simpa [withIds] using this

theorem findFirst_zero {t : Table α} {P : α → Bool} {x : α} (h : t[0]? = some x) (hP : P x = true) :
    t.findFirst P = some (0, x) :=
  findFirst_eq_some_iff.mpr ⟨h, hP, fun _ _ hj => absurd hj (Nat.not_lt_zero _)⟩

/-- The first row that satisfies `P` is replaced by another one that does. -/
theorem findFirst_set {t : Table α} {P : α → Bool} {i : Nat} {x y : α}
    (h : t.findFirst P = some (i, x)) (hy : P y = true) :
    Table.findFirst (t.set i y) P = some (i, y) := by
  obtain ⟨hx, -, hlt⟩ := findFirst_eq_some_iff.mp h
  refine findFirst_eq_some_iff.mpr ⟨by rw [get_set hx, if_pos rfl], hy, fun j z hj hz => ?_⟩
  rw [get_set hx, if_neg (Nat.ne_of_gt hj)] at hz
  exact hlt j z hj hz

/-- Another row is replaced by one that satisfies `P` exactly if it did. -/
theorem findFirst_set_of_ne {t : Table α} {P : α → Bool} {i j : Nat} {x y z : α}
    (h : t.findFirst P = some (i, x)) (hy : t[j]? = some y) (hne : j ≠ i) (hz : P z = P y) :
    Table.findFirst (t.set j z) P = some (i, x) := by
  obtain ⟨hx, hP, hlt⟩ := findFirst_eq_some_iff.mp h
  refine findFirst_eq_some_iff.mpr ⟨by rw [get_set hy, if_neg hne, hx], hP, fun k w hk hw => ?_⟩
  rw [get_set hy] at hw
  split at hw
  · next hjk =>
    obtain rfl := Option.some.inj hw
    exact hz.trans (hlt k y hk (hjk ▸ hy))
  · exact hlt k w hk hw

/-- Where no row satisfies `P` yet, the first one that does is the row created. -/
theorem findFirst_append {t : Table α} {P : α → Bool} (h : t.findFirst P = none) {y : α}
    (hy : P y = true) : Table.findFirst (t ++ [y]) P = some (t.length, y) := by
  unfold findFirst withIds at h ⊢
  rw [List.mapIdx_append, List.find?_append, h]
  simp [hy]

/-- Rows that are added at the end do not change what was found. -/
theorem findFirst_prefix {t t' : Table α} (hpre : t <+: t') {P : α → Bool} {x : Nat × α}
    (h : t.findFirst P = some x) : t'.findFirst P = some x := by
  obtain ⟨l, rfl⟩ := hpre
  unfold findFirst withIds at h ⊢
  rw [List.mapIdx_append, List.find?_append, h]
  rfl

/-- What does not satisfy `P` before or after does not matter. -/
theorem findFirst_set_neg {t : Table α} {P : α → Bool} {i : Nat} {x y : α} (hx : t[i]? = some x)
    (hPx : P x = false) (hy : P y = false) : Table.findFirst (t.set i y) P = t.findFirst P := by
  refine Option.ext fun ⟨j, z⟩ => ?_
  rw [findFirst_eq_some_iff, findFirst_eq_some_iff]
  simp only [get_set hx]
  have hget : ∀ k w, P w = true → ((if i = k then some y else t[k]?) = some w ↔ t[k]? = some w) := by
    intro k w hw
    split
    · subst_vars
      rw [hx]
      constructor <;> rintro ⟨⟩
      · rw [hy] at hw; cases hw
      · rw [hPx] at hw; cases hw
    · rfl
  constructor
  · rintro ⟨hz, hPz, hlt⟩
    refine ⟨(hget j z hPz).mp hz, hPz, fun k w hk hw => ?_⟩
    by_contra hPw
    exact hPw (hlt k w hk ((hget k w (by simpa using hPw)).mpr hw))
  · rintro ⟨hz, hPz, hlt⟩
    refine ⟨(hget j z hPz).mpr hz, hPz, fun k w hk hw => ?_⟩
    by_contra hPw
    exact hPw (hlt k w hk ((hget k w (by simpa using hPw)).mp hw))

theorem findFirst_append_neg (t : Table α) {P : α → Bool} {y : α} (hy : P y = false) :
    Table.findFirst (t ++ [y]) P = t.findFirst P := by
  unfold findFirst withIds
  rw [List.mapIdx_append, List.find?_append]
  simp [hy]

theorem withIds_map {κ : Type} (t : Table α) (k : α → κ) :
    Table.withIds (t.map k) = t.withIds.map fun x => (x.1, k x.2) := by
  unfold withIds
  apply List.ext_getElem <;> simp

/-- What is looked for in a table of keys is found in the table. -/
theorem findFirst_map {κ : Type} (t : Table α) (k : α → κ) (Q : κ → Bool) :
    Table.findFirst (t.map k) Q = (t.findFirst fun x => Q (k x)).map fun x => (x.1, k x.2) := by
  unfold findFirst
  rw [withIds_map, List.find?_map]
  rfl

/-- The rows of a table of keys that satisfy a test. -/
theorem findMany_map {κ : Type} (t : Table α) (k : α → κ) (Q : κ → Bool) :
    Table.findMany (t.map k) Q = (t.findMany fun x => Q (k x)).map fun x => (x.1, k x.2) := by
  unfold findMany
  rw [withIds_map, List.filter_map]
  rfl

/-- A row is still there in a table whose keys are those of the first one, with others at the end. -/
theorem get_of_map_prefix {κ : Type} {k : α → κ} {t t' : Table α} (h : t.map k <+: t'.map k) {i : Nat}
    {x : α} (hx : t[i]? = some x) : ∃ y, t'[i]? = some y ∧ k y = k x := by
  obtain ⟨l, hl⟩ := h
  have hi : (t.map k)[i]? = some (k x) := by rw [List.getElem?_map, hx, Option.map_some]
  have hi' : (t'.map k)[i]? = some (k x) := by
    rw [← hl, List.getElem?_append_left (lt_of_get hi)]
    exact hi
  rw [List.getElem?_map, Option.map_eq_some_iff] at hi'
  exact hi'

theorem any_eq_false {t : Table α} {P : α → Bool} (h : t.findFirst P = none) : t.any P = false := by
  rw [List.any_eq_false]
  intro x hx
  obtain ⟨i, hi⟩ := List.mem_iff_getElem?.mp hx
  simp [findFirst_none h hi]

/-- What is computed from the rows alone does not need their identifiers. -/
theorem map_findMany {β : Type} (t : Table α) (P : α → Bool) (f : α → β) :
    (t.findMany P).map (fun x => f x.2) = (t.filter P).map f := by
  conv => rhs; rw [← map_snd_withIds t]
  rw [List.filter_map, List.map_map]
  rfl

theorem filter_findMany (t : Table α) (P Q : α → Bool) :
    (t.findMany P).filter (fun x => Q x.2) = t.findMany fun x => P x && Q x := by
  rw [findMany, List.filter_filter, findMany]
  simp only [Bool.and_comm]

/-! ## Tables with deleted rows

A deleted row leaves `none`, so identifiers are not used again. -/

/-- The row of an identifier, if it was not deleted. -/
def row (t : Table (Option α)) (i : Nat) : Option α := (t[i]?).join

theorem get_of_row {t : Table (Option α)} {i : Nat} {x : α} (h : t.row i = some x) :
    t[i]? = some (some x) := by
  unfold row at h
  rcases hr : t[i]? with - | y
  · rw [hr] at h; cases h
  · rw [hr] at h; exact congrArg some h

theorem row_append (t : Table (Option α)) (x : α) (i : Nat) :
    Table.row (t ++ [some x]) i = if i = t.length then some x else t.row i := by
  rw [row, get_append]
  split <;> rfl

theorem row_set {t : Table (Option α)} {i : Nat} {x : α} (h : t.row i = some x) (y : Option α)
    (j : Nat) : Table.row (t.set i y) j = if i = j then y else t.row j := by
  rw [row, get_set (get_of_row h)]
  split <;> rfl

theorem row_map_filter (t : Table (Option α)) (P : α → Bool) (i : Nat) :
    Table.row (t.map fun r => r.filter P) i = (t.row i).filter P := by
  rw [row, List.getElem?_map, row]
  rcases t[i]? with - | r <;> rfl

/-! ## The identifiers of the rows that satisfy a test -/

theorem mem_ids {t : Table α} {P : α → Bool} {i : Nat} :
    i ∈ t.ids P ↔ ∃ x, t[i]? = some x ∧ P x = true := by
  simp only [ids, Finset.mem_filter, Finset.mem_range, Option.any_eq_true]
  exact ⟨And.right, fun ⟨x, hx, hP⟩ => ⟨lt_of_get hx, x, hx, hP⟩⟩

theorem mem_ids_of_get {t : Table α} {P : α → Bool} {i : Nat} {x : α} (h : t[i]? = some x) :
    i ∈ t.ids P ↔ P x = true := by
  rw [mem_ids, h]; simp

theorem length_not_mem_ids (t : Table α) (P : α → Bool) : t.length ∉ t.ids P := by
  rw [mem_ids]; simp

theorem ids_append (t : Table α) (P : α → Bool) (y : α) :
    Table.ids (t ++ [y]) P = if P y then insert t.length (t.ids P) else t.ids P := by
  ext i
  rw [mem_ids]
  simp only [get_append]
  by_cases hi : i = t.length
  · subst hi
    have := length_not_mem_ids t P
    by_cases hy : P y = true <;> simp [hy, this]
  · have : i ∈ (if P y then insert t.length (t.ids P) else t.ids P) ↔ i ∈ t.ids P := by
      split <;> simp [hi]
    rw [this, mem_ids]
    simp [hi]

/-- Replacing row `i` changes the set at `i` only. -/
theorem mem_ids_set {t : Table α} {P : α → Bool} {i j : Nat} {x : α} (h : t[i]? = some x) (y : α) :
    j ∈ Table.ids (t.set i y) P ↔ if i = j then P y = true else j ∈ t.ids P := by
  rw [mem_ids]
  simp only [get_set h]
  split <;> simp [mem_ids]

theorem ids_set_same {t : Table α} {P : α → Bool} {i : Nat} {x y : α} (h : t[i]? = some x)
    (hP : P y = P x) : Table.ids (t.set i y) P = t.ids P := by
  ext j
  rw [mem_ids_set h]
  split
  · subst_vars; rw [hP, mem_ids_of_get h]
  · rfl

theorem ids_set_erase {t : Table α} {P : α → Bool} {i : Nat} {x y : α} (h : t[i]? = some x)
    (hP : P y = false) : Table.ids (t.set i y) P = (t.ids P).erase i := by
  ext j
  rw [mem_ids_set h, Finset.mem_erase]
  split
  · subst_vars; simp [hP]
  · rename_i hij; simp [Ne.symm hij]

theorem ids_set_insert {t : Table α} {P : α → Bool} {i : Nat} {x y : α} (h : t[i]? = some x)
    (hP : P y = true) : Table.ids (t.set i y) P = insert i (t.ids P) := by
  ext j
  rw [mem_ids_set h, Finset.mem_insert]
  split
  · subst_vars; simp [hP]
  · rename_i hij; simp [Ne.symm hij]

/-! ## Sums over the rows that satisfy a test -/

section Sum

variable {M : Type} [AddCommGroup M]

/-- The sum of `f` over the rows that satisfy `P`. -/
def sumWhere (t : Table α) (P : α → Bool) (f : α → M) : M := ((t.filter P).map f).sum

theorem sumWhere_eq (t : Table α) (P : α → Bool) (f : α → M) :
    t.sumWhere P f = (t.map fun x => if P x then f x else 0).sum := by
  induction t with
  | nil => rfl
  | cons x t ih =>
    unfold sumWhere at ih ⊢
    by_cases hx : P x = true
    · simp [hx, ih]
    · simp [hx, ih]

theorem sumWhere_append (t : Table α) (P : α → Bool) (f : α → M) (y : α) :
    Table.sumWhere (t ++ [y]) P f = t.sumWhere P f + if P y then f y else 0 := by
  simp [sumWhere_eq]

theorem sumWhere_set {t : Table α} {i : Nat} {x : α} (h : t[i]? = some x) (P : α → Bool)
    (f : α → M) (y : α) :
    Table.sumWhere (t.set i y) P f =
      t.sumWhere P f - (if P x then f x else 0) + if P y then f y else 0 := by
  induction t generalizing i with
  | nil => simp at h
  | cons z t ih =>
    cases i with
    | zero =>
      simp only [List.getElem?_cons_zero, Option.some.injEq] at h
      subst h
      simp only [sumWhere_eq, List.set_cons_zero, List.map_cons, List.sum_cons]
      abel
    | succ i =>
      have := ih (i := i) (by simpa using h)
      simp only [sumWhere_eq] at this
      simp only [sumWhere_eq, List.set_cons_succ, List.map_cons, List.sum_cons, this]
      abel

end Sum

end Table

end Async
