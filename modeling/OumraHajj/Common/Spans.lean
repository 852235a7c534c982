import Mathlib.Order.ConditionallyCompleteLattice.Indexed
import Mathlib.Data.List.Sort
import Mathlib.Data.Int.ConditionallyCompleteOrder
import Mathlib.Data.Int.Interval
import Mathlib.Order.Interval.Finset.Basic

/-!
# Spans

A span is a half-open interval `[lo, hi[` of a linear order.

* `Apart lo hi l`: the spans of `l` are non-empty, in ascending order and inside `[lo, hi[`, with
  something between any two. Such a list is determined by its points (`Apart.ext`), and over the
  integers its lengths add up to the number of its points (`Apart.sum_length`).
* `gaps hi lo l`: what spans `l`, sorted by their `lo`, leave uncovered of `[lo, hi[`, found in one
  sweep. It is `Apart` (`gaps_apart`), and its points are those of no span of `l` (`mem_gaps`).
-/

structure Span (α : Type) where
  lo : α
  hi : α
  deriving DecidableEq, Repr

namespace Span

variable {α : Type} [LinearOrder α] {lo hi t : α} {p q : Span α} {l l₁ l₂ : List (Span α)}

/-- The points of a span. -/
def Contains (p : Span α) (t : α) : Prop := p.lo ≤ t ∧ t < p.hi

instance (p : Span α) (t : α) : Decidable (p.Contains t) := inferInstanceAs (Decidable (_ ∧ _))

/-- The points of a list of spans. -/
def Covered (l : List (Span α)) (t : α) : Prop := ∃ p ∈ l, p.Contains t

instance (l : List (Span α)) (t : α) : Decidable (Covered l t) :=
  inferInstanceAs (Decidable (∃ p ∈ l, p.Contains t))

@[simp] theorem covered_nil : ¬ Covered ([] : List (Span α)) t := by simp [Covered]

@[simp] theorem covered_cons : Covered (p :: l) t ↔ p.Contains t ∨ Covered l t := by simp [Covered]

@[simp] theorem covered_append : Covered (l₁ ++ l₂) t ↔ Covered l₁ t ∨ Covered l₂ t := by
  simp [Covered, or_and_right, exists_or]

/-! ## Lists of spans apart -/

/-- Ascending spans with something between them (module doc). -/
structure Apart (lo hi : α) (l : List (Span α)) : Prop where
  nonempty : ∀ p ∈ l, p.lo < p.hi
  within : ∀ p ∈ l, lo ≤ p.lo ∧ p.hi ≤ hi
  apart : l.Pairwise fun p q => p.hi < q.lo

theorem apart_nil : Apart lo hi ([] : List (Span α)) := ⟨by simp, by simp, .nil⟩

theorem apart_cons :
    Apart lo hi (p :: l) ↔
      (lo ≤ p.lo ∧ p.lo < p.hi ∧ p.hi ≤ hi) ∧ (∀ q ∈ l, p.hi < q.lo) ∧ Apart lo hi l := by
  constructor
  · intro h
    obtain ⟨hfirst, hrest⟩ := List.pairwise_cons.mp h.apart
    obtain ⟨hlo, hhi⟩ := h.within p List.mem_cons_self
    exact ⟨⟨hlo, h.nonempty p List.mem_cons_self, hhi⟩, hfirst,
      fun q hq => h.nonempty q (List.mem_cons_of_mem _ hq),
      fun q hq => h.within q (List.mem_cons_of_mem _ hq), hrest⟩
  · rintro ⟨⟨hlo, hne, hhi⟩, hfirst, h⟩
    exact ⟨List.forall_mem_cons.mpr ⟨hne, h.nonempty⟩, List.forall_mem_cons.mpr ⟨⟨hlo, hhi⟩, h.within⟩,
      List.pairwise_cons.mpr ⟨hfirst, h.apart⟩⟩

theorem Apart.mono {lo' : α} (h : Apart lo' hi l) (hlo : lo ≤ lo') : Apart lo hi l :=
  ⟨h.nonempty, fun p hp => ⟨hlo.trans (h.within p hp).1, (h.within p hp).2⟩, h.apart⟩

theorem Apart.bounds (h : Apart lo hi l) (ht : Covered l t) : lo ≤ t ∧ t < hi := by
  obtain ⟨p, hp, hlo, hhi⟩ := ht
  exact ⟨(h.within p hp).1.trans hlo, hhi.trans_le (h.within p hp).2⟩

/-- The spans after the first one have no point up to its end. -/
theorem Apart.lt_of_covered (h : Apart lo hi (p :: l)) (ht : Covered l t) : p.hi < t := by
  obtain ⟨q, hq, hlo, -⟩ := ht
  exact ((apart_cons.mp h).2.1 q hq).trans_le hlo

/-- The first point. -/
theorem Apart.lo_le_of_covered (h : Apart lo hi (p :: l)) (ht : Covered (p :: l) t) : p.lo ≤ t := by
  rcases covered_cons.mp ht with ht | ht
  · exact ht.1
  · exact ((apart_cons.mp h).1.2.1.trans (h.lt_of_covered ht)).le

/-- The first span ends where the points stop. -/
theorem Apart.hi_le (h : Apart lo hi (p :: l₁)) (hlo : p.lo = q.lo)
    (hpoints : ∀ t, Covered (q :: l₂) t → Covered (p :: l₁) t) : q.hi ≤ p.hi := by
  by_contra! hlt
  have hq : Covered (q :: l₂) p.hi :=
    covered_cons.mpr (.inl ⟨hlo ▸ (apart_cons.mp h).1.2.1.le, hlt⟩)
  rcases covered_cons.mp (hpoints p.hi hq) with hp | hp
  · exact lt_irrefl _ hp.2
  · exact lt_irrefl _ (h.lt_of_covered hp)

/-- **Spans apart are determined by their points.** -/
theorem Apart.ext (h₁ : Apart lo hi l₁) (h₂ : Apart lo hi l₂)
    (hpoints : ∀ t, Covered l₁ t ↔ Covered l₂ t) : l₁ = l₂ := by
  induction l₁ generalizing l₂ with
  | nil =>
    rcases l₂ with - | ⟨q, l₂⟩
    · rfl
    · exact absurd ((hpoints q.lo).mpr (covered_cons.mpr
        (.inl ⟨le_refl _, (apart_cons.mp h₂).1.2.1⟩))) covered_nil
  | cons p l₁ ih =>
    rcases l₂ with - | ⟨q, l₂⟩
    · exact absurd ((hpoints p.lo).mp (covered_cons.mpr
        (.inl ⟨le_refl _, (apart_cons.mp h₁).1.2.1⟩))) covered_nil
    · have hpfirst : Covered (p :: l₁) p.lo := covered_cons.mpr (.inl ⟨le_refl _, (apart_cons.mp h₁).1.2.1⟩)
      have hqfirst : Covered (q :: l₂) q.lo := covered_cons.mpr (.inl ⟨le_refl _, (apart_cons.mp h₂).1.2.1⟩)
      have hlo : p.lo = q.lo :=
        le_antisymm (h₁.lo_le_of_covered ((hpoints _).mpr hqfirst))
          (h₂.lo_le_of_covered ((hpoints _).mp hpfirst))
      have hhi : p.hi = q.hi :=
        le_antisymm (h₂.hi_le hlo.symm fun t => (hpoints t).mp)
          (h₁.hi_le hlo fun t => (hpoints t).mpr)
      obtain rfl : p = q := by cases p; cases q; simp_all
      refine congrArg _ (ih (apart_cons.mp h₁).2.2 (apart_cons.mp h₂).2.2 fun t => ?_)
      constructor
      · intro ht
        rcases covered_cons.mp ((hpoints t).mp (covered_cons.mpr (.inr ht))) with hp | hp
        · exact absurd hp.2 (h₁.lt_of_covered ht).le.not_gt
        · exact hp
      · intro ht
        rcases covered_cons.mp ((hpoints t).mpr (covered_cons.mpr (.inr ht))) with hp | hp
        · exact absurd hp.2 (h₂.lt_of_covered ht).le.not_gt
        · exact hp

/-! ## The sweep -/

/-- `[lo, hi[`, if it has a point. -/
def piece (lo hi : α) : List (Span α) := if lo < hi then [⟨lo, hi⟩] else []

theorem piece_apart (lo hi : α) : Apart lo hi (piece lo hi) := by
  unfold piece
  split
  · next h => exact apart_cons.mpr ⟨⟨le_refl _, h, le_refl _⟩, by simp, apart_nil⟩
  · exact apart_nil

@[simp] theorem covered_piece : Covered (piece lo hi) t ↔ lo ≤ t ∧ t < hi := by
  unfold piece
  split
  · simp [Contains]
  · next h => exact iff_of_false covered_nil fun ht => h (ht.1.trans_lt ht.2)

/-- The sweep from `lo` (module doc). -/
def gaps (hi : α) : α → List (Span α) → List (Span α)
  | lo, [] => piece lo hi
  | lo, c :: l => piece lo (min c.lo hi) ++ gaps hi (max lo c.hi) l

theorem gaps_of_le (h : hi ≤ lo) (l : List (Span α)) : gaps hi lo l = [] := by
  induction l generalizing lo with
  | nil => exact if_neg (not_lt.mpr h)
  | cons c l ih =>
    rw [gaps, ih (h.trans (le_max_left _ _)), piece, if_neg (by simp [h]), List.append_nil]

theorem gaps_apart (h : ∀ c ∈ l, c.lo < c.hi) (hi lo : α) : Apart lo hi (gaps hi lo l) := by
  induction l generalizing lo with
  | nil => exact piece_apart lo hi
  | cons c l ih =>
    obtain ⟨hc, hl⟩ := List.forall_mem_cons.mp h
    have hrest := ih hl (max lo c.hi)
    unfold gaps piece
    split
    · next hlt =>
      refine apart_cons.mpr ⟨⟨le_refl _, hlt, min_le_right _ _⟩, fun q hq => ?_,
        hrest.mono (le_max_left _ _)⟩
      calc min c.lo hi ≤ c.lo := min_le_left _ _
        _ < c.hi := hc
        _ ≤ max lo c.hi := le_max_right _ _
        _ ≤ q.lo := (hrest.within q hq).1
    · exact hrest.mono (le_max_left _ _)

/-- **The sweep finds what no span covers.** -/
theorem mem_gaps (h : ∀ c ∈ l, c.lo < c.hi) (hsorted : l.Pairwise fun c d => c.lo ≤ d.lo)
    (hlo : lo ≤ t) (hhi : t < hi) : Covered (gaps hi lo l) t ↔ ¬ Covered l t := by
  induction l generalizing lo with
  | nil => simp [gaps, hlo, hhi]
  | cons c l ih =>
    obtain ⟨hc, hl⟩ := List.forall_mem_cons.mp h
    obtain ⟨hfirst, hsorted⟩ := List.pairwise_cons.mp hsorted
    have hrest := gaps_apart hl hi (max lo c.hi)
    rw [gaps, covered_append, covered_cons, covered_piece]
    -- Before `c` starts no span has started; in `c` the sweep goes on after it; then by induction.
    rcases lt_or_ge t c.lo with ht | ht
    · refine iff_of_true (.inl ⟨hlo, lt_min ht hhi⟩) ?_
      rintro (h | ⟨d, hd, h, -⟩)
      · exact absurd ht h.1.not_gt
      · exact absurd (ht.trans_le (hfirst d hd)) h.not_gt
    · have hout : ¬ (lo ≤ t ∧ t < min c.lo hi) := fun h => absurd (h.2.trans_le (min_le_left _ _)) ht.not_gt
      rw [or_iff_right hout]
      rcases lt_or_ge t c.hi with ht' | ht'
      · refine iff_of_false (fun h => ?_) fun h => h (.inl ⟨ht, ht'⟩)
        exact absurd ((le_max_right _ _).trans (hrest.bounds h).1) ht'.not_ge
      · rw [ih hl hsorted (max_le hlo ht'), or_iff_right fun h : c.Contains t => absurd h.2 ht'.not_gt]

/-- The gaps depend only on the points that are covered. -/
theorem gaps_congr (h₁ : ∀ c ∈ l₁, c.lo < c.hi) (h₂ : ∀ c ∈ l₂, c.lo < c.hi)
    (hs₁ : l₁.Pairwise fun c d => c.lo ≤ d.lo) (hs₂ : l₂.Pairwise fun c d => c.lo ≤ d.lo)
    (hpoints : ∀ t, lo ≤ t → t < hi → (Covered l₁ t ↔ Covered l₂ t)) :
    gaps hi lo l₁ = gaps hi lo l₂ := by
  have hgaps₁ := gaps_apart h₁ hi lo
  have hgaps₂ := gaps_apart h₂ hi lo
  refine hgaps₁.ext hgaps₂ fun t => ?_
  constructor
  · intro ht
    obtain ⟨hlo, hhi⟩ := hgaps₁.bounds ht
    rwa [mem_gaps h₂ hs₂ hlo hhi, ← hpoints t hlo hhi, ← mem_gaps h₁ hs₁ hlo hhi]
  · intro ht
    obtain ⟨hlo, hhi⟩ := hgaps₂.bounds ht
    rwa [mem_gaps h₁ hs₁ hlo hhi, hpoints t hlo hhi, ← mem_gaps h₂ hs₂ hlo hhi]

/-! ## Lengths -/

/-- The lengths of spans apart add up to the number of their points. -/
theorem Apart.sum_length {lo hi : Int} {l : List (Span Int)} (h : Apart lo hi l) :
    (l.map fun p => p.hi - p.lo).sum = ((Finset.Ico lo hi).filter (Covered l)).card := by
  induction l with
  | nil => simp
  | cons p l ih =>
    obtain ⟨⟨hlo, hne, hhi⟩, -, hrest⟩ := apart_cons.mp h
    have hsplit : (Finset.Ico lo hi).filter (Covered (p :: l)) =
        Finset.Ico p.lo p.hi ∪ (Finset.Ico lo hi).filter (Covered l) := by
      ext t
      simp only [Finset.mem_filter, Finset.mem_union, Finset.mem_Ico, covered_cons, Contains]
      constructor
      · rintro ⟨ht, hp | hl⟩
        · exact .inl hp
        · exact .inr ⟨ht, hl⟩
      · rintro (hp | ⟨ht, hl⟩)
        · exact ⟨⟨by omega, by omega⟩, .inl hp⟩
        · exact ⟨ht, .inr hl⟩
    have hdisjoint : Disjoint (Finset.Ico p.lo p.hi) ((Finset.Ico lo hi).filter (Covered l)) := by
      refine Finset.disjoint_left.mpr fun t hp ht => ?_
      have := h.lt_of_covered (Finset.mem_filter.mp ht).2
      have := (Finset.mem_Ico.mp hp).2
      omega
    have hlength := Int.card_Ico p.lo p.hi
    rw [hsplit, Finset.card_union_of_disjoint hdisjoint, List.map_cons, List.sum_cons, ih hrest]
    omega

/-- The lengths of the gaps and the number of the points covered add up to the length of the whole. -/
theorem sum_length_gaps {lo hi : Int} {l : List (Span Int)} (hle : lo ≤ hi)
    (h : ∀ c ∈ l, c.lo < c.hi) (hsorted : l.Pairwise fun c d => c.lo ≤ d.lo) :
    ((gaps hi lo l).map fun p => p.hi - p.lo).sum + ((Finset.Ico lo hi).filter (Covered l)).card =
      hi - lo := by
  have hgaps : (Finset.Ico lo hi).filter (Covered (gaps hi lo l)) =
      (Finset.Ico lo hi).filter fun t => ¬ Covered l t :=
    Finset.filter_congr fun t ht => mem_gaps h hsorted (Finset.mem_Ico.mp ht).1 (Finset.mem_Ico.mp ht).2
  have hsum := Finset.card_filter_add_card_filter_not (s := Finset.Ico lo hi) (Covered l)
  have hlength := Int.card_Ico lo hi
  rw [(gaps_apart h hi lo).sum_length, hgaps]
  omega

end Span
