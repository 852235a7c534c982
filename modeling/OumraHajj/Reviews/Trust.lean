import Mathlib.Algebra.BigOperators.Group.List.Lemmas
import Mathlib.Tactic.Linarith
import OumraHajj.Async.Sequential
import OumraHajj.Reviews.Service
import OumraHajj.Services.Requests

/-!
# The score of trust

`getTrustScore` computes `confiance` from the ratings of the agency and from the numbers of its completed and
its cancelled bookings (`getTrustScore_runs`). The score is a mean of the reviews and of the share of
completed bookings, or the one of the two that there is, so a good event compares with the score through
the mean that it enters, also when it is the first one (`good_news`). A bad event does too, except the first
review of an agency that completed less than a fifth of its bookings: one star is a fifth of the scale
(`bad_news`).
-/

namespace OumraHajj.Reviews

open Async ReviewsService

variable {agencyId : AgencyId} {status : AgencyValidationStatus} {notes notes' : List Int}
  {completed cancelled : Nat} {avg rate : ℚ}

/-- What `getTrustScore` returns for the ratings and the bookings of an agency. -/
def confiance (agencyId : AgencyId) (status : AgencyValidationStatus) (notes : List Int)
    (completed cancelled : Nat) : AgencyTrustScoreShape :=
  let roundedScore := (score (agregat notes).avg (completionRate completed cancelled)).map mathRound
  { agencyId
    score := roundedScore
    reviewAverage := (agregat notes).avg
    reviewCount := (agregat notes).count
    completionRate := completionRate completed cancelled
    concludedBookingsCount := completed + cancelled
    badge := badge status roundedScore (agregat notes).count }

/-- The bookings of an agency with a status. -/
def Store.nombre (s : Store) (agencyId : AgencyId) (status : BookingStatus) : Nat :=
  s.app.bookings.countP fun b => b.agencyId = agencyId ∧ b.status = status

theorem getTrustScore_runs {s s' : Store} {x : AgencyTrustScoreShape}
    (h : backend.Runs (getTrustScore agencyId) s (.ok x) s') :
    ∃ agency, s.app.agencies[agencyId]? = some agency ∧ x = confiance agencyId agency.validationStatus
      (s.notesDe agencyId) (s.nombre agencyId .completed) (s.nombre agencyId .cancelled) := by
  obtain ⟨e, h⟩ := h
  have hread : backend.exec (.inr (.agencyFindUnique agencyId)) e s = (s.app.agencies[agencyId]?, s) := rfl
  rw [hread] at h
  rcases hagency : s.app.agencies[agencyId]? with - | agency
  · rw [hagency] at h
    cases h.1
  · rw [hagency] at h
    obtain ⟨e₁, e₂, e₃, h⟩ := h
    exact ⟨agency, rfl, Except.ok.inj h.1⟩

/-- The second score is there where the first one is, and is not lower. -/
def Monte {α : Type} [LE α] (x y : Option α) : Prop := ∀ a ∈ x, ∃ b ∈ y, a ≤ b

/-- The second score is there where the first one is, and is not higher. -/
def Baisse {α : Type} [LE α] (x y : Option α) : Prop := ∀ a ∈ x, ∃ b ∈ y, b ≤ a

/-- `none < verified < trusted`. -/
def rang : Option Badge → Nat
  | none => 0
  | some .verified => 1
  | some .trusted => 2

/-! ## The means -/

/-- The ratings are from 1 to 5. -/
def Notes (notes : List Int) : Prop := ∀ r ∈ notes, 1 ≤ r ∧ r ≤ 5

instance (notes : List Int) : Decidable (Notes notes) := inferInstanceAs (Decidable (∀ r ∈ notes, _))

/-- The sum of the ratings. -/
def total (notes : List Int) : ℚ := (notes.map (Int.cast : Int → ℚ)).sum

theorem agregat_eq (notes : List Int) : agregat notes =
    { avg := if notes = [] then none else some (total notes / notes.length), count := notes.length } := by
  have hmap : (List.map (fun r : ℚ => r) do let a ← notes; pure (a : ℚ)) = notes.map Int.cast := by
    simp [List.map_eq_flatMap]
  rw [agregat, hmap]
  rfl

theorem agregat_perm (h : notes.Perm notes') : agregat notes = agregat notes' := by
  have hnil : notes = [] ↔ notes' = [] := ⟨fun he => by simpa [he] using h, fun he => by simpa [he] using h⟩
  have htotal : total notes = total notes' := (h.map _).sum_eq
  simp only [agregat_eq, hnil, h.length_eq, htotal]

theorem avg_cons (r : Int) (notes : List Int) :
    (agregat (r :: notes)).avg = some ((r + total notes) / (notes.length + 1)) := by
  have htotal : total (r :: notes) = r + total notes := by simp [total]
  rw [agregat_eq, htotal, List.length_cons, Nat.cast_add, Nat.cast_one]
  simp

theorem avg_of_ne_nil (h : notes ≠ []) : (agregat notes).avg = some (total notes / notes.length) := by
  rw [agregat_eq]
  exact if_neg h

theorem total_bounds (h : Notes notes) : (notes.length : ℚ) ≤ total notes ∧ total notes ≤ 5 * notes.length := by
  induction notes with
  | nil => simp [total]
  | cons r notes ih =>
    obtain ⟨⟨h1, h5⟩, hrest⟩ := List.forall_mem_cons.mp h
    obtain ⟨hlo, hhi⟩ := ih hrest
    have h1 : (1 : ℚ) ≤ r := by exact_mod_cast h1
    have h5 : (r : ℚ) ≤ 5 := by exact_mod_cast h5
    have hsum : total (r :: notes) = r + total notes := by simp [total]
    rw [hsum]
    push_cast [List.length_cons]
    constructor
    · linarith
    · linarith

/-- The average is from 1 to 5. -/
theorem avg_bounds (h : Notes notes) (ha : (agregat notes).avg = some avg) : 1 ≤ avg ∧ avg ≤ 5 := by
  rcases eq_or_ne notes [] with rfl | hne
  · cases ha
  obtain rfl := Option.some.inj ((avg_of_ne_nil hne).symm.trans ha)
  have hpos : (0 : ℚ) < notes.length := by exact_mod_cast List.length_pos_iff.mpr hne
  obtain ⟨hlo, hhi⟩ := total_bounds h
  rw [le_div_iff₀ hpos, div_le_iff₀ hpos]
  constructor
  · linarith
  · linarith

theorem rate_bounds (h : completionRate completed cancelled = some rate) : 0 ≤ rate ∧ rate ≤ 1 := by
  unfold completionRate at h
  split at h
  · next hpos =>
    obtain rfl := Option.some.inj h
    have hpos : (0 : ℚ) < completed + cancelled := by exact_mod_cast hpos
    rw [div_le_one hpos]
    constructor
    · positivity
    · linarith [(Nat.cast_nonneg cancelled : (0 : ℚ) ≤ cancelled)]
  · cases h

/-- A mean after one more value that is not below it. -/
theorem mean_le {a b x : ℚ} (hb : 0 < b) (h : a ≤ x * b) : a / b ≤ (x + a) / (b + 1) := by
  rw [div_le_div_iff₀ hb (by linarith)]
  linarith

/-- A mean after one more value that is not above it. -/
theorem le_mean {a b x : ℚ} (hb : 0 < b) (h : x * b ≤ a) : (x + a) / (b + 1) ≤ a / b := by
  rw [div_le_div_iff₀ (by linarith) hb]
  linarith

/-! ## The score -/

/-- What compares two scores compares them when they are rounded. -/
theorem exists_map {x y : Option ℚ} {R : ℚ → ℚ → Prop} {Q : Int → Int → Prop}
    (hround : ∀ a b, R a b → Q (mathRound a) (mathRound b)) (h : ∀ a ∈ x, ∃ b ∈ y, R a b) :
    ∀ n ∈ x.map mathRound, ∃ m ∈ y.map mathRound, Q n m := by
  intro n hn
  obtain ⟨a, ha, rfl⟩ := Option.map_eq_some_iff.mp hn
  obtain ⟨b, hb, hab⟩ := h a ha
  exact ⟨mathRound b, Option.map_eq_some_iff.mpr ⟨b, hb, rfl⟩, hround a b hab⟩

theorem monte_map {x y : Option ℚ} (h : Monte x y) : Monte (x.map mathRound) (y.map mathRound) :=
  exists_map (fun _ _ => mathRound_mono) h

theorem baisse_map {x y : Option ℚ} (h : Baisse x y) : Baisse (x.map mathRound) (y.map mathRound) :=
  exists_map (fun _ _ => mathRound_mono) h

theorem score_both (avg rate : ℚ) : score (some avg) (some rate) = some (12 * avg + 40 * rate) := by
  refine congrArg some ?_
  show avg / 5 * 100 * (6 / 10) + rate * 100 * (4 / 10) = _
  ring

theorem score_reviews (avg : ℚ) : score (some avg) none = some (20 * avg) := by
  refine congrArg some ?_
  show avg / 5 * 100 = _
  ring

theorem score_bookings (rate : ℚ) : score none (some rate) = some (100 * rate) := congrArg some (mul_comm rate 100)

/-- The score of means in their ranges is in its range. -/
theorem score_bounds {x y : Option ℚ} {a : ℚ} (h : score x y = some a)
    (hx : ∀ avg ∈ x, 1 ≤ avg ∧ avg ≤ 5) (hy : ∀ rate ∈ y, 0 ≤ rate ∧ rate ≤ 1) : 0 ≤ a ∧ a ≤ 100 := by
  rcases x with - | avg
  · rcases y with - | rate
    · cases h
    · obtain rfl := Option.some.inj ((score_bookings rate).symm.trans h)
      obtain ⟨h₁, h₂⟩ := hy rate rfl
      constructor <;> linarith
  · obtain ⟨h₁, h₂⟩ := hx avg rfl
    rcases y with - | rate
    · obtain rfl := Option.some.inj ((score_reviews avg).symm.trans h)
      constructor <;> linarith
    · obtain rfl := Option.some.inj ((score_both avg rate).symm.trans h)
      obtain ⟨h₃, h₄⟩ := hy rate rfl
      constructor <;> linarith

/-- The score is an affine function of a mean, and grows with it. -/
def Affine (f : ℚ → Option ℚ) : Prop := ∃ k c : ℚ, 0 ≤ k ∧ ∀ x, f x = some (k * x + c)

theorem affine_avg (y : Option ℚ) : Affine fun avg => score (some avg) y := by
  rcases y with - | rate
  · exact ⟨20, 0, by norm_num, fun avg => (score_reviews avg).trans (congrArg some (add_zero _).symm)⟩
  · exact ⟨12, 40 * rate, by norm_num, fun avg => score_both avg rate⟩

theorem affine_rate (x : Option ℚ) : Affine fun rate => score x (some rate) := by
  rcases x with - | avg
  · exact ⟨100, 0, by norm_num, fun rate => (score_bookings rate).trans (congrArg some (add_zero _).symm)⟩
  · exact ⟨40, 12 * avg, by norm_num, fun rate => (score_both avg rate).trans (congrArg some (add_comm _ _))⟩

variable {f : ℚ → Option ℚ} {m m' : ℚ}

theorem Affine.monte (hf : Affine f) (h : m ≤ m') : Monte (f m) (f m') := by
  obtain ⟨k, c, hk, hf⟩ := hf
  intro a ha
  obtain rfl := Option.some.inj ((hf m).symm.trans ha)
  exact ⟨_, hf m', by linarith [mul_le_mul_of_nonneg_left h hk]⟩

theorem Affine.baisse (hf : Affine f) (h : m' ≤ m) : Baisse (f m) (f m') := by
  obtain ⟨k, c, hk, hf⟩ := hf
  intro a ha
  obtain rfl := Option.some.inj ((hf m).symm.trans ha)
  exact ⟨_, hf m', by linarith [mul_le_mul_of_nonneg_left h hk]⟩

/-! ### A review -/

/-- **Five stars do not lower the score**, the first time either. -/
theorem monte_review (completed cancelled : Nat) (h : Notes notes) :
    Monte (score (agregat notes).avg (completionRate completed cancelled))
      (score (agregat (5 :: notes)).avg (completionRate completed cancelled)) := by
  rw [avg_cons]
  rcases eq_or_ne notes [] with rfl | hne
  · intro a ha
    rcases hrate : completionRate completed cancelled with - | rate
    · rw [hrate] at ha
      cases ha
    · rw [hrate] at ha
      obtain rfl := Option.some.inj ((score_bookings rate).symm.trans ha)
      refine ⟨_, score_both _ rate, ?_⟩
      have := (rate_bounds hrate).2
      norm_num [total]
      linarith
  · rw [avg_of_ne_nil hne]
    have hpos : (0 : ℚ) < notes.length := by exact_mod_cast List.length_pos_iff.mpr hne
    exact (affine_avg _).monte (mean_le hpos (by exact_mod_cast (total_bounds h).2))

/-- **One star does not raise the score** of an agency with reviews. -/
theorem baisse_review (completed cancelled : Nat) (h : Notes notes) (hne : notes ≠ []) :
    Baisse (score (agregat notes).avg (completionRate completed cancelled))
      (score (agregat (1 :: notes)).avg (completionRate completed cancelled)) := by
  rw [avg_cons, avg_of_ne_nil hne]
  have hpos : (0 : ℚ) < notes.length := by exact_mod_cast List.length_pos_iff.mpr hne
  refine (affine_avg _).baisse (le_mean hpos ?_)
  have := (total_bounds h).1
  push_cast
  linarith

/-- The score of an agency whose first review has one star. -/
theorem score_first (rate : ℚ) : score (agregat [1]).avg (some rate) = some (12 + 40 * rate) := by
  rw [avg_cons, score_both]
  norm_num [total]

/-- A first review of one star does not raise the score of an agency that completed a fifth of its
bookings. -/
theorem baisse_first {y : Option ℚ} (h : ∀ rate ∈ y, 1 / 5 ≤ rate) :
    Baisse (score (agregat []).avg y) (score (agregat [1]).avg y) := by
  intro a ha
  rcases y with - | rate
  · cases ha
  · obtain rfl := Option.some.inj ((score_bookings rate).symm.trans ha)
    refine ⟨_, score_first rate, ?_⟩
    linarith [h rate rfl]

/-- Under a fifth, it raises it, by 12 at most. -/
theorem monte_first {y : Option ℚ} (h : ∀ rate ∈ y, 0 ≤ rate ∧ rate < 1 / 5) :
    ∀ n ∈ (score (agregat []).avg y).map mathRound,
      ∃ m ∈ (score (agregat [1]).avg y).map mathRound, n ≤ m ∧ m ≤ n + 12 := by
  intro n hn
  obtain ⟨a, ha, rfl⟩ := Option.map_eq_some_iff.mp hn
  rcases y with - | rate
  · cases ha
  · obtain rfl := Option.some.inj ((score_bookings rate).symm.trans ha)
    obtain ⟨hlo, hhi⟩ := h rate rfl
    have hround := mathRound_le_iff.mp (le_refl (mathRound (100 * rate)))
    refine ⟨_, Option.map_eq_some_iff.mpr ⟨_, score_first rate, rfl⟩, mathRound_mono (by linarith),
      mathRound_le_iff.mpr ?_⟩
    push_cast
    linarith

/-! ### A booking -/

theorem rate_of_pos (h : 0 < completed + cancelled) :
    completionRate completed cancelled = some ((completed : ℚ) / ((completed : ℚ) + cancelled)) :=
  if_pos h

theorem rate_of_zero (h : ¬ 0 < completed + cancelled) : completionRate completed cancelled = none :=
  if_neg h

theorem rate_completed (completed cancelled : Nat) : completionRate (completed + 1) cancelled =
    some ((1 + (completed : ℚ)) / ((completed : ℚ) + cancelled + 1)) := by
  rw [rate_of_pos (by omega)]
  push_cast
  rw [add_comm 1 (completed : ℚ), add_right_comm (completed : ℚ) 1 cancelled]

theorem rate_cancelled (completed cancelled : Nat) : completionRate completed (cancelled + 1) =
    some ((0 + (completed : ℚ)) / ((completed : ℚ) + cancelled + 1)) := by
  rw [rate_of_pos (by omega)]
  push_cast
  rw [zero_add, add_assoc]

/-- The first booking, completed. -/
theorem monte_premier {x : Option ℚ} (h : ∀ avg ∈ x, avg ≤ 5) : Monte (score x none) (score x (some 1)) := by
  intro a ha
  rcases x with - | avg
  · cases ha
  · obtain rfl := Option.some.inj ((score_reviews avg).symm.trans ha)
    exact ⟨_, score_both avg 1, by linarith [h avg rfl]⟩

/-- The first booking, cancelled. -/
theorem baisse_premier {x : Option ℚ} (h : ∀ avg ∈ x, 0 ≤ avg) :
    Baisse (score x none) (score x (some 0)) := by
  intro a ha
  rcases x with - | avg
  · cases ha
  · obtain rfl := Option.some.inj ((score_reviews avg).symm.trans ha)
    exact ⟨_, score_both avg 0, by linarith [h avg rfl]⟩

/-- **A completed booking does not lower the score**, the first time either. -/
theorem monte_completed (completed cancelled : Nat) (h : Notes notes) :
    Monte (score (agregat notes).avg (completionRate completed cancelled))
      (score (agregat notes).avg (completionRate (completed + 1) cancelled)) := by
  rw [rate_completed]
  by_cases hpos : 0 < completed + cancelled
  · rw [rate_of_pos hpos]
    have hpos : (0 : ℚ) < completed + cancelled := by exact_mod_cast hpos
    have hcancelled : (0 : ℚ) ≤ cancelled := Nat.cast_nonneg cancelled
    exact (affine_rate _).monte (mean_le hpos (by linarith))
  · obtain ⟨rfl, rfl⟩ : completed = 0 ∧ cancelled = 0 := by omega
    have hrate : (1 + ((0 : Nat) : ℚ)) / (((0 : Nat) : ℚ) + (0 : Nat) + 1) = 1 := by norm_num
    rw [rate_of_zero hpos, hrate]
    exact monte_premier fun avg havg => (avg_bounds h havg).2

/-- **A cancelled booking does not raise the score**, the first time either. -/
theorem baisse_cancelled (completed cancelled : Nat) (h : Notes notes) :
    Baisse (score (agregat notes).avg (completionRate completed cancelled))
      (score (agregat notes).avg (completionRate completed (cancelled + 1))) := by
  rw [rate_cancelled]
  by_cases hpos : 0 < completed + cancelled
  · rw [rate_of_pos hpos]
    have hpos : (0 : ℚ) < completed + cancelled := by exact_mod_cast hpos
    have hcompleted : (0 : ℚ) ≤ completed := Nat.cast_nonneg completed
    exact (affine_rate _).baisse (le_mean hpos (by linarith))
  · obtain ⟨rfl, rfl⟩ : completed = 0 ∧ cancelled = 0 := by omega
    have hrate : (0 + ((0 : Nat) : ℚ)) / (((0 : Nat) : ℚ) + (0 : Nat) + 1) = 0 := by norm_num
    rw [rate_of_zero hpos, hrate]
    exact baisse_premier fun avg havg => zero_le_one.trans (avg_bounds h havg).1

/-! ### The badge -/

/-- The badge grows with the score and with the number of reviews. -/
theorem badge_mono {x y : Option Int} {m n : Nat} (h : Monte x y) (hmn : m ≤ n) :
    rang (badge status x m) ≤ rang (badge status y n) := by
  unfold badge
  by_cases hstatus : status = .approved
  · rw [if_pos hstatus, if_pos hstatus]
    by_cases hx : x.any (trustedScoreThreshold ≤ ·) = true ∧ minReviewsForTrustedBadge ≤ m
    · obtain ⟨a, ha, hle⟩ := (Option.any_eq_true _ _).mp hx.1
      obtain ⟨b, hb, hab⟩ := h a ha
      have hy : y.any (trustedScoreThreshold ≤ ·) = true :=
        (Option.any_eq_true _ _).mpr ⟨b, hb, decide_eq_true ((of_decide_eq_true hle).trans hab)⟩
      rw [if_pos hx, if_pos ⟨hy, hx.2.trans hmn⟩]
    · rw [if_neg hx]
      split <;> decide
  · rw [if_neg hstatus]
    exact Nat.zero_le _

/-! ## Events -/

/-- The reviews and the concluded bookings that `t` has more than `s`. -/
structure Ajout (agencyId : AgencyId) (notes : List Int) (completed cancelled : Nat) (s t : Store) :
    Prop where
  status : ∀ a ∈ s.app.agencies[agencyId]?, ∀ b ∈ t.app.agencies[agencyId]?,
    b.validationStatus = a.validationStatus
  notes : (t.notesDe agencyId).Perm (notes ++ s.notesDe agencyId)
  completed : t.nombre agencyId .completed = s.nombre agencyId .completed + completed
  cancelled : t.nombre agencyId .cancelled = s.nombre agencyId .cancelled + cancelled

variable {s s' t t' : Store} {x y : AgencyTrustScoreShape} {plus : List Int}

/-- The scores of two runs of `getTrustScore`, before and after an event. -/
theorem Ajout.runs (h : Ajout agencyId plus completed cancelled s t)
    (hx : backend.Runs (getTrustScore agencyId) s (.ok x) s')
    (hy : backend.Runs (getTrustScore agencyId) t (.ok y) t') :
    ∃ status, x = confiance agencyId status (s.notesDe agencyId) (s.nombre agencyId .completed)
        (s.nombre agencyId .cancelled) ∧
      y = confiance agencyId status (plus ++ s.notesDe agencyId)
        (s.nombre agencyId .completed + completed) (s.nombre agencyId .cancelled + cancelled) := by
  obtain ⟨a, ha, rfl⟩ := getTrustScore_runs hx
  obtain ⟨b, hb, rfl⟩ := getTrustScore_runs hy
  refine ⟨a.validationStatus, rfl, ?_⟩
  unfold confiance
  rw [h.status a ha b hb, agregat_perm h.notes, h.completed, h.cancelled]

theorem confiance_score_bounds (h : Notes notes) {n : Int}
    (hn : n ∈ (confiance agencyId status notes completed cancelled).score) : 0 ≤ n ∧ n ≤ 100 := by
  obtain ⟨a, ha, rfl⟩ := Option.map_eq_some_iff.mp hn
  obtain ⟨hlo, hhi⟩ := score_bounds ha (fun avg havg => avg_bounds h havg) fun rate hrate => rate_bounds hrate
  refine ⟨Int.floor_nonneg.mpr (by linarith), mathRound_le_iff.mpr ?_⟩
  push_cast
  linarith

/-- Neither the score nor the badge is lowered. -/
structure Progresse (x y : AgencyTrustScoreShape) : Prop where
  score : Monte x.score y.score
  badge : rang x.badge ≤ rang y.badge

/-- **Good news never lowers the trust**: five stars or a completed booking, the first time either. -/
theorem good_news (h : Notes (s.notesDe agencyId))
    (hx : backend.Runs (getTrustScore agencyId) s (.ok x) s')
    (hy : backend.Runs (getTrustScore agencyId) t (.ok y) t') :
    (∀ n ∈ x.score, 0 ≤ n ∧ n ≤ 100) ∧ (Ajout agencyId [5] 0 0 s t → Progresse x y) ∧
      (Ajout agencyId [] 1 0 s t → Progresse x y) := by
  refine ⟨fun n hn => ?_, fun ha => ?_, fun ha => ?_⟩
  · obtain ⟨a, -, rfl⟩ := getTrustScore_runs hx
    exact confiance_score_bounds h hn
  · obtain ⟨status, rfl, rfl⟩ := ha.runs hx hy
    have hscore := monte_map (monte_review (s.nombre agencyId .completed)
      (s.nombre agencyId .cancelled) h)
    exact ⟨hscore, badge_mono hscore (by simp [agregat])⟩
  · obtain ⟨status, rfl, rfl⟩ := ha.runs hx hy
    have hscore := monte_map (monte_completed (s.nombre agencyId .completed)
      (s.nombre agencyId .cancelled) h)
    exact ⟨hscore, badge_mono hscore (le_refl _)⟩

/-- An approved agency with reviews and bookings. -/
def Store.exemple (notes : List Int) (statuts : List BookingStatus) : Store where
  app :=
    { agencies := [{ ownerId := 0, legalName := "Agence", contactEmail := "", contactPhone := ""
                     validationStatus := .approved }]
      bookings := statuts.map fun status => { Booking.exemple with status } }
  reviews := notes.map fun rating => { pilgrimId := 0, agencyId := 0, bookingId := 0, rating, createdAt := 0 }

/-- The run of `getTrustScore` for that agency. -/
theorem exemple_runs (notes : List Int) (statuts : List BookingStatus) :
    backend.Runs (getTrustScore 0) (.exemple notes statuts)
      (.ok (confiance 0 .approved ((Store.exemple notes statuts).notesDe 0)
        ((Store.exemple notes statuts).nombre 0 .completed)
        ((Store.exemple notes statuts).nombre 0 .cancelled)))
      (backend.eval {} (getTrustScore 0) (.exemple notes statuts)).2 :=
  Backend.runs_of_eval rfl

/-- Five stars, then a completed booking. -/
theorem good_news_exemple : ∃ x y z s t u,
    backend.Runs (getTrustScore 0) (.exemple [3] [.cancelled]) (.ok x) s ∧
      backend.Runs (getTrustScore 0) (.exemple [5, 3] [.cancelled]) (.ok y) t ∧
      backend.Runs (getTrustScore 0) (.exemple [5, 3] [.cancelled, .completed]) (.ok z) u ∧
      Progresse x y ∧ Progresse y z := by
  have hx := exemple_runs [3] [.cancelled]
  have hy := exemple_runs [5, 3] [.cancelled]
  have hz := exemple_runs [5, 3] [.cancelled, .completed]
  refine ⟨_, _, _, _, _, _, hx, hy, hz, (good_news (by decide +kernel) hx hy).2.1 ⟨?_, ?_, ?_, ?_⟩,
    (good_news (by decide +kernel) hy hz).2.2 ⟨?_, ?_, ?_, ?_⟩⟩
  all_goals decide +kernel

/-- **Bad news does not raise the score**, except the first review of an agency that completed less than a
fifth of its bookings, with which the score goes up by 12 at most. -/
theorem bad_news (h : Notes (s.notesDe agencyId))
    (hx : backend.Runs (getTrustScore agencyId) s (.ok x) s')
    (hy : backend.Runs (getTrustScore agencyId) t (.ok y) t') :
    (Ajout agencyId [] 0 1 s t → Baisse x.score y.score) ∧
      (Ajout agencyId [1] 0 0 s t → s.notesDe agencyId ≠ [] ∨ (∀ rate ∈ x.completionRate, 1 / 5 ≤ rate) →
        Baisse x.score y.score) ∧
      (Ajout agencyId [1] 0 0 s t → s.notesDe agencyId = [] → (∀ rate ∈ x.completionRate, rate < 1 / 5) →
        ∀ n ∈ x.score, ∃ m ∈ y.score, n ≤ m ∧ m ≤ n + 12) := by
  refine ⟨fun ha => ?_, fun ha hcase => ?_, fun ha hnil hrate n hn => ?_⟩
  · obtain ⟨status, rfl, rfl⟩ := ha.runs hx hy
    exact baisse_map (baisse_cancelled _ _ h)
  · obtain ⟨status, rfl, rfl⟩ := ha.runs hx hy
    refine baisse_map ?_
    by_cases hne : s.notesDe agencyId = []
    · have hrate := hcase.resolve_left fun h => h hne
      rw [hne]
      exact baisse_first hrate
    · exact baisse_review _ _ h hne
  · obtain ⟨status, rfl, rfl⟩ := ha.runs hx hy
    rw [hnil] at hn ⊢
    exact monte_first (fun rate hr => ⟨(rate_bounds hr).1, hrate rate hr⟩) n hn

/-- A cancelled booking. -/
theorem bad_news_exemple : ∃ x y s t,
    backend.Runs (getTrustScore 0) (.exemple [3] [.completed]) (.ok x) s ∧
      backend.Runs (getTrustScore 0) (.exemple [3] [.completed, .cancelled]) (.ok y) t ∧
      Baisse x.score y.score := by
  have hx := exemple_runs [3] [.completed]
  have hy := exemple_runs [3] [.completed, .cancelled]
  exact ⟨_, _, _, _, hx, hy, (bad_news (by decide +kernel) hx hy).1
    ⟨by decide +kernel, by decide +kernel, by decide +kernel, by decide +kernel⟩⟩

/-- **A first review of one star raises a score** from 0 to 12. -/
theorem bad_news_first : ¬ ∀ (agencyId : AgencyId) (s s' t t' : Store) (x y : AgencyTrustScoreShape),
    Notes (s.notesDe agencyId) → backend.Runs (getTrustScore agencyId) s (.ok x) s' →
    backend.Runs (getTrustScore agencyId) t (.ok y) t' →
    Ajout agencyId [1] 0 0 s t ∨ Ajout agencyId [] 0 1 s t → Baisse x.score y.score := by
  intro h
  have hx := exemple_runs [] [.cancelled]
  have hy := exemple_runs [1] [.cancelled]
  have hajout : Ajout 0 [1] 0 0 (.exemple [] [.cancelled]) (.exemple [1] [.cancelled]) :=
    ⟨by decide +kernel, by decide +kernel, by decide +kernel, by decide +kernel⟩
  obtain ⟨m, hm, hle⟩ := h 0 _ _ _ _ _ _ (by decide +kernel) hx hy (.inl hajout) 0 (by decide +kernel)
  have htwelve : m = 12 := Option.some.inj (hm.symm.trans (by decide +kernel))
  omega

end OumraHajj.Reviews
