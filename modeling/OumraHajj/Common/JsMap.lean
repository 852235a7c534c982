import Mathlib.Data.List.Induction
import Mathlib.Data.List.Nodup

/-!
# Maps in the order of insertion

A `Map` of JavaScript: its keys in the order in which they were first set, each with the value that was set last.

* `set`, `values`: the methods; `setAll`: `for (const [k, v] of l) map.set(k, v)`.
* `mem_setAll`: where equal keys come with equal values, the map holds what was set. `values_nodup`: where a
  value names its key, no two values have the same name.
-/

/-- A map (module doc). -/
structure JsMap (K V : Type) where
  entries : List (K × V)
  keys : (entries.map Prod.fst).Nodup

namespace JsMap

variable {K V : Type}

instance : EmptyCollection (JsMap K V) := ⟨⟨[], List.nodup_nil⟩⟩

def values (m : JsMap K V) : List V := m.entries.map Prod.snd

theorem mem_values {m : JsMap K V} {v : V} : v ∈ m.values ↔ ∃ k, (k, v) ∈ m.entries := by
  simp [values]

/-- Where a value names its key, the values have different names. -/
theorem values_nodup {m : JsMap K V} {key : V → K} (h : ∀ y ∈ m.entries, key y.2 = y.1) :
    (m.values.map key).Nodup := by
  have heq : m.values.map key = m.entries.map Prod.fst := by
    rw [values, List.map_map]
    exact List.map_congr_left h
  exact heq ▸ m.keys

variable [DecidableEq K]

def set (m : JsMap K V) (k : K) (v : V) : JsMap K V :=
  if h : k ∈ m.entries.map Prod.fst then
    { entries := m.entries.map fun x => (x.1, if x.1 = k then v else x.2)
      keys := by
        rw [List.map_map]
        exact m.keys }
  else
    { entries := m.entries ++ [(k, v)]
      keys := by
        rw [List.map_append, List.nodup_append']
        exact ⟨m.keys, List.nodup_singleton k, List.disjoint_singleton.mpr h⟩ }

def setAll (m : JsMap K V) (l : List (K × V)) : JsMap K V := l.foldl (fun m x => m.set x.1 x.2) m

theorem mem_set {m : JsMap K V} {k : K} {v : V} {y : K × V} :
    y ∈ (m.set k v).entries ↔ y = (k, v) ∨ (y.1 ≠ k ∧ y ∈ m.entries) := by
  unfold set
  split
  · next hk =>
    constructor
    · intro hy
      obtain ⟨x, hx, rfl⟩ := List.mem_map.mp hy
      by_cases hxk : x.1 = k
      · exact .inl (by simp [hxk])
      · exact .inr ⟨hxk, by simpa [hxk] using hx⟩
    · rintro (rfl | ⟨hne, hy⟩)
      · obtain ⟨x, hx, rfl⟩ := List.mem_map.mp hk
        exact List.mem_map.mpr ⟨x, hx, by simp⟩
      · exact List.mem_map.mpr ⟨y, hy, by simp [hne]⟩
  · next hk =>
    rw [List.mem_append, List.mem_singleton]
    constructor
    · rintro (hy | rfl)
      · exact .inr ⟨fun heq => hk (List.mem_map.mpr ⟨y, hy, heq⟩), hy⟩
      · exact .inl rfl
    · rintro (rfl | ⟨-, hy⟩)
      · exact .inr rfl
      · exact .inl hy

/-- What was set is there. -/
theorem mem_setAll {l : List (K × V)} (h : ∀ x ∈ l, ∀ y ∈ l, x.1 = y.1 → x = y) {y : K × V} :
    y ∈ ((∅ : JsMap K V).setAll l).entries ↔ y ∈ l := by
  induction l using List.reverseRecOn with
  | nil => exact Iff.rfl
  | append_singleton l x ih =>
    have hsub : ∀ z ∈ l, z ∈ l ++ [x] := fun z hz => List.mem_append_left _ hz
    have hx : x ∈ l ++ [x] := List.mem_append_right _ (List.mem_singleton_self x)
    rw [setAll, List.foldl_append]
    show y ∈ (((∅ : JsMap K V).setAll l).set x.1 x.2).entries ↔ _
    rw [mem_set, ih fun z hz z' hz' => h z (hsub z hz) z' (hsub z' hz')]
    constructor
    · rintro (rfl | ⟨-, hy⟩)
      · exact hx
      · exact hsub y hy
    · intro hy
      rcases List.mem_append.mp hy with hmem | hmem
      · by_cases hyx : y.1 = x.1
        · exact .inl (h y hy x hx hyx)
        · exact .inr ⟨hyx, hmem⟩
      · exact .inl (List.mem_singleton.mp hmem)

end JsMap
