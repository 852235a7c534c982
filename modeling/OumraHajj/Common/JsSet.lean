import Mathlib.Data.List.Forall2
import OumraHajj.Common.While

/-!
# Sets in the order of insertion

A `Set` of JavaScript: its values in the order in which they were added. A value that is deleted leaves
an empty slot, so an iteration that is going on finds the next value at the same place.

* `add`, `delete`, `size`: the methods; a value is added once.
* `JsSet.Emptied A B`: `B` is `A` with some slots emptied, as deletions leave it.
* `forOf read body n s`: `for (const x of set) body(x)` over a state in which the set is read at every
  turn, so that it may change on the way; `n` bounds the turns. `forOf_ends`: the loop has ended by then,
  if `n` slots are there and the body adds none.
* `forOf_rule`: what the body establishes of each value holds at the end of every value that is left.
-/

/-- A set (module doc). -/
structure JsSet (α : Type) where
  slots : List (Option α)

namespace JsSet

variable {α : Type}

instance : EmptyCollection (JsSet α) := ⟨⟨[]⟩⟩

instance : Membership α (JsSet α) := ⟨fun A x => some x ∈ A.slots⟩

theorem mem_def {A : JsSet α} {x : α} : x ∈ A ↔ some x ∈ A.slots := Iff.rfl

@[simp] theorem not_mem_empty (x : α) : x ∉ (∅ : JsSet α) := List.not_mem_nil

/-- The number of values. -/
def size (A : JsSet α) : Nat := A.slots.countP Option.isSome

theorem size_eq_zero {A : JsSet α} : A.size = 0 ↔ ∀ x, x ∉ A := by
  rw [size, List.countP_eq_zero]
  constructor
  · exact fun h x hx => h _ hx rfl
  · intro h y hy hsome
    obtain ⟨x, rfl⟩ := Option.isSome_iff_exists.mp hsome
    exact h x hy

/-- The slots are kept, or emptied. -/
def Emptied (A B : JsSet α) : Prop := List.Forall₂ (fun x y => y = x ∨ y = none) A.slots B.slots

theorem Emptied.refl (A : JsSet α) : A.Emptied A := List.forall₂_same.mpr fun _ _ => .inl rfl

theorem Emptied.length_eq {A B : JsSet α} (h : A.Emptied B) : A.slots.length = B.slots.length :=
  List.Forall₂.length_eq h

theorem Emptied.trans {A B C : JsSet α} (h : A.Emptied B) (h' : B.Emptied C) : A.Emptied C := by
  refine List.forall₂_iff_get.mpr ⟨h.length_eq.trans h'.length_eq, fun i hi hi' => ?_⟩
  have hi₁ : i < B.slots.length := h'.length_eq ▸ hi'
  rcases (List.forall₂_iff_get.mp h').2 i hi₁ hi' with hkept | hnone
  · rw [hkept]
    exact (List.forall₂_iff_get.mp h).2 i hi hi₁
  · exact .inr hnone

/-- What is still there was there, at the same place. -/
theorem Emptied.get {A B : JsSet α} (h : A.Emptied B) {i : Nat} {x : α}
    (hx : B.slots[i]? = some (some x)) : A.slots[i]? = some (some x) := by
  obtain ⟨hi, hx⟩ := List.getElem?_eq_some_iff.mp hx
  have hi' : i < A.slots.length := h.length_eq ▸ hi
  rw [List.getElem?_eq_getElem hi']
  rcases (List.forall₂_iff_get.mp h).2 i hi' hi with hkept | hnone
  · exact congrArg some (hkept.symm.trans hx)
  · cases hnone.symm.trans hx

theorem Emptied.mem {A B : JsSet α} (h : A.Emptied B) {x : α} (hx : x ∈ B) : x ∈ A := by
  obtain ⟨i, hi⟩ := List.mem_iff_getElem?.mp hx
  exact List.mem_iff_getElem?.mpr ⟨i, h.get hi⟩

section Methods

variable [DecidableEq α]

instance (x : α) (A : JsSet α) : Decidable (x ∈ A) := inferInstanceAs (Decidable (some x ∈ A.slots))

def add (A : JsSet α) (x : α) : JsSet α :=
  if some x ∈ A.slots then A else ⟨A.slots ++ [some x]⟩

def delete (A : JsSet α) (x : α) : JsSet α := ⟨A.slots.map fun y => if y = some x then none else y⟩

@[simp] theorem mem_add {A : JsSet α} {x y : α} : y ∈ A.add x ↔ y ∈ A ∨ y = x := by
  unfold add
  split
  · next hx => exact ⟨.inl, fun h => h.elim id fun h => h ▸ hx⟩
  · simp [mem_def]

@[simp] theorem mem_delete {A : JsSet α} {x y : α} : y ∈ A.delete x ↔ y ∈ A ∧ y ≠ x := by
  constructor
  · intro h
    obtain ⟨z, hz, hy⟩ := List.mem_map.mp h
    split at hy
    · cases hy
    · next hne =>
      subst hy
      exact ⟨hz, fun heq => hne (congrArg some heq)⟩
  · rintro ⟨hy, hne⟩
    exact List.mem_map.mpr ⟨some y, hy, if_neg fun heq => hne (Option.some.inj heq)⟩

theorem emptied_delete (A : JsSet α) (x : α) : A.Emptied (A.delete x) := by
  refine List.forall₂_map_right_iff.mpr (List.forall₂_same.mpr fun y _ => ?_)
  split
  · exact .inr rfl
  · exact .inl rfl

end Methods

/-! ## Iteration -/

section ForOf

variable {σ : Type} (read : σ → JsSet α) (body : α → σ → σ)

/-- A slot is left, at the place of the iteration. -/
def Left (x : Nat × σ) : Prop := x.1 < (read x.2).slots.length

instance : DecidablePred (Left read) := fun _ => inferInstanceAs (Decidable (_ < _))

/-- The turn of one slot: an empty one is skipped. -/
def turn (x : Nat × σ) : Nat × σ :=
  (x.1 + 1, match (read x.2).slots[x.1]? with
    | some (some y) => body y x.2
    | _ => x.2)

def forOf (n : Nat) (s : σ) : σ := (While.bound (Left read) (turn read body) n (0, s)).2

variable {read body}

/-- **The iteration ends.** -/
theorem forOf_ends (h : ∀ x s, (read s).Emptied (read (body x s))) (s : σ) :
    ∃ i, While (Left read) (turn read body) (0, s)
      (i, forOf read body (read s).slots.length s) := by
  refine ⟨_, While.bounded (fun x => (read x.2).slots.length - x.1) (fun x hx => ?_)
    (Nat.sub_le _ _)⟩
  have hlength : (read (turn read body x).2).slots.length = (read x.2).slots.length := by
    unfold turn
    split
    · exact (h _ _).length_eq.symm
    · rfl
  have hx : x.1 < (read x.2).slots.length := hx
  show (read (turn read body x).2).slots.length - (x.1 + 1) < (read x.2).slots.length - x.1
  omega

/-- `I` holds, and `E` of the values before the place of the iteration. -/
def Swept (read : σ → JsSet α) (I : σ → Prop) (E : α → σ → Prop) (x : Nat × σ) : Prop :=
  I x.2 ∧ ∀ j < x.1, ∀ y, (read x.2).slots[j]? = some (some y) → E y x.2

theorem Swept.turn {I : σ → Prop} {E : α → σ → Prop}
    (hemptied : ∀ x s, (read s).Emptied (read (body x s)))
    (hbody : ∀ x s, I s → x ∈ read s → I (body x s) ∧ E x (body x s) ∧ ∀ y, E y s → E y (body x s))
    {x : Nat × σ} (h : Swept read I E x) : Swept read I E (turn read body x) := by
  obtain ⟨k, s⟩ := x
  obtain ⟨hI, hE⟩ := h
  by_cases hslot : ∃ x, (read s).slots[k]? = some (some x)
  · obtain ⟨x, hx⟩ := hslot
    have hturn : JsSet.turn read body (k, s) = (k + 1, body x s) := by simp only [JsSet.turn, hx]
    rw [hturn]
    obtain ⟨hI', hEx, hkeep⟩ := hbody x s hI (List.mem_iff_getElem?.mpr ⟨k, hx⟩)
    refine ⟨hI', fun j hj y hy => ?_⟩
    have hy' := (hemptied x s).get hy
    rcases Nat.lt_succ_iff_lt_or_eq.mp hj with hj | rfl
    · exact hkeep y (hE j hj y hy')
    · cases hx.symm.trans hy'
      exact hEx
  · have hturn : JsSet.turn read body (k, s) = (k + 1, s) := by
      unfold JsSet.turn
      split
      · next y hy => exact absurd ⟨y, hy⟩ hslot
      · rfl
    rw [hturn]
    refine ⟨hI, fun j hj y hy => ?_⟩
    rcases Nat.lt_succ_iff_lt_or_eq.mp hj with hj | rfl
    · exact hE j hj y hy
    · exact absurd ⟨y, hy⟩ hslot

/-- **The rule of the iteration.** The body keeps `I`, establishes `E` of its value, and keeps it of the
others. -/
theorem forOf_rule {I : σ → Prop} {E : α → σ → Prop} {s : σ}
    (hemptied : ∀ x s, (read s).Emptied (read (body x s))) (hI : I s)
    (hbody : ∀ x s, I s → x ∈ read s → I (body x s) ∧ E x (body x s) ∧ ∀ y, E y s → E y (body x s)) :
    I (forOf read body (read s).slots.length s) ∧
      ∀ x ∈ read (forOf read body (read s).slots.length s),
        E x (forOf read body (read s).slots.length s) := by
  obtain ⟨i, hloop⟩ := forOf_ends hemptied s
  have hstart : Swept read I E (0, s) := ⟨hI, fun j hj => absurd hj (Nat.not_lt_zero j)⟩
  obtain ⟨⟨hI', hE⟩, hend⟩ := hloop.invariant hstart fun _ _ => Swept.turn hemptied hbody
  refine ⟨hI', fun x hx => ?_⟩
  obtain ⟨j, hj⟩ := List.mem_iff_getElem?.mp hx
  have hlt := (List.getElem?_eq_some_iff.mp hj).1
  exact hE j (Nat.lt_of_lt_of_le hlt (Nat.le_of_not_lt hend)) x hj

end ForOf

end JsSet
