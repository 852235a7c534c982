import OumraHajj.Common.Spans

/-!
# Cells

The cells of a list of boundaries are the spans between a boundary and the next one. When the boundaries
ascend, no boundary is inside a cell, so a span between two boundaries has the points of whole cells
(`within_iff`), and every point between two boundaries is in a cell (`exists_cell`).
-/

namespace Span

variable {α : Type} [LinearOrder α] {a b t : α} {p s : Span α} {l : List α}

/-- The cells of boundaries (module doc). -/
def cells : List α → List (Span α)
  | a :: b :: l => ⟨a, b⟩ :: cells (b :: l)
  | _ => []

omit [LinearOrder α] in
theorem mem_cells_cons : p ∈ cells (a :: b :: l) ↔ p = ⟨a, b⟩ ∨ p ∈ cells (b :: l) := List.mem_cons

omit [LinearOrder α] in
theorem mem_cells (h : p ∈ cells l) : p.lo ∈ l ∧ p.hi ∈ l := by
  induction l with
  | nil => exact absurd h List.not_mem_nil
  | cons a l ih =>
    rcases l with - | ⟨b, l⟩
    · exact absurd h List.not_mem_nil
    · rcases mem_cells_cons.mp h with rfl | h
      · exact ⟨List.mem_cons_self, List.mem_cons_of_mem _ List.mem_cons_self⟩
      · exact ⟨List.mem_cons_of_mem _ (ih h).1, List.mem_cons_of_mem _ (ih h).2⟩

theorem lt_of_mem_cells (hl : l.Pairwise (· < ·)) (h : p ∈ cells l) : p.lo < p.hi := by
  induction l with
  | nil => exact absurd h List.not_mem_nil
  | cons a l ih =>
    obtain ⟨ha, hl⟩ := List.pairwise_cons.mp hl
    rcases l with - | ⟨b, l⟩
    · exact absurd h List.not_mem_nil
    · rcases mem_cells_cons.mp h with rfl | h
      · exact ha b List.mem_cons_self
      · exact ih hl h

/-- A cell ends before the next one starts. -/
theorem pairwise_cells (hl : l.Pairwise (· < ·)) : (cells l).Pairwise fun p q => p.hi ≤ q.lo := by
  induction l with
  | nil => exact .nil
  | cons a l ih =>
    obtain ⟨-, hl⟩ := List.pairwise_cons.mp hl
    rcases l with - | ⟨b, l⟩
    · exact .nil
    · refine List.pairwise_cons.mpr ⟨fun q hq => ?_, ih hl⟩
      rcases List.mem_cons.mp (mem_cells hq).1 with h | h
      · exact h.ge
      · exact ((List.pairwise_cons.mp hl).1 _ h).le

/-- No boundary is inside a cell. -/
theorem le_or_le_of_mem_cells (hl : l.Pairwise (· < ·)) (h : p ∈ cells l) (ha : a ∈ l) :
    a ≤ p.lo ∨ p.hi ≤ a := by
  induction l with
  | nil => exact absurd h List.not_mem_nil
  | cons c l ih =>
    obtain ⟨hc, hrest⟩ := List.pairwise_cons.mp hl
    rcases l with - | ⟨b, l⟩
    · exact absurd h List.not_mem_nil
    rcases mem_cells_cons.mp h with rfl | hp
    · rcases List.mem_cons.mp ha with rfl | ha
      · exact .inl (le_refl _)
      rcases List.mem_cons.mp ha with rfl | ha
      · exact .inr (le_refl _)
      · exact .inr ((List.pairwise_cons.mp hrest).1 a ha).le
    · rcases List.mem_cons.mp ha with rfl | ha
      · exact .inl (hc _ (mem_cells hp).1).le
      · exact ih hrest hp ha

/-- A span between two boundaries has the points of a cell if it contains it. -/
theorem within_iff (hl : l.Pairwise (· < ·)) (h : p ∈ cells l) (hlo : s.lo ∈ l) (hhi : s.hi ∈ l)
    (ht : p.Contains t) : s.lo ≤ p.lo ∧ p.hi ≤ s.hi ↔ s.Contains t := by
  constructor
  · rintro ⟨hle, hge⟩
    exact ⟨hle.trans ht.1, ht.2.trans_le hge⟩
  · rintro ⟨hle, hlt⟩
    constructor
    · exact (le_or_le_of_mem_cells hl h hlo).resolve_right fun hge => absurd ht.2 (hge.trans hle).not_gt
    · exact (le_or_le_of_mem_cells hl h hhi).resolve_left fun hge => absurd hlt (hge.trans ht.1).not_gt

/-- **A point between two boundaries is in a cell.** -/
theorem exists_cell (ha : a ∈ l) (hb : b ∈ l) (hat : a ≤ t) (htb : t < b)
    (hl : l.Pairwise (· < ·)) : ∃ p ∈ cells l, p.Contains t := by
  induction l generalizing a with
  | nil => exact absurd ha List.not_mem_nil
  | cons c l ih =>
    obtain ⟨hc, hl⟩ := List.pairwise_cons.mp hl
    have hcb : b ≠ c := by
      rintro rfl
      rcases List.mem_cons.mp ha with rfl | ha
      · exact absurd htb hat.not_gt
      · exact absurd ((hc a ha).trans_le hat) htb.not_gt
    have hbl : b ∈ l := List.mem_of_ne_of_mem hcb hb
    rcases l with - | ⟨d, l⟩
    · exact absurd hbl List.not_mem_nil
    -- `t` is in the first cell, or after the boundary that ends it.
    rcases lt_or_ge t d with htd | hdt
    · refine ⟨⟨c, d⟩, List.mem_cons_self, ?_, htd⟩
      rcases List.mem_cons.mp ha with rfl | ha
      · exact hat
      · exact (hc a ha).le.trans hat
    · obtain ⟨p, hp, hpt⟩ := ih List.mem_cons_self hbl hdt hl
      exact ⟨p, List.mem_cons_of_mem _ hp, hpt⟩

end Span
