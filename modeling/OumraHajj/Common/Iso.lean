import OumraHajj.Common.Dates

/-!
# Instants as text

`toISOString` of a `Date`, on 24 characters for the years `0` to `9999`, and the calendar day in it. A
year outside has a sign and six digits.
-/

namespace OumraHajj

namespace Iso

/-- `String(valeur).padStart(longueur, '0')`. -/
def padStart (longueur valeur : Nat) : List Char :=
  List.leftpad longueur '0' (Nat.toDigits 10 valeur)

/-- The year of an instant. -/
def anneeDe (t : Time) : Int := (civilFromDays (jourDe t)).1

def annee (y : Int) : List Char :=
  if 0 ≤ y ∧ y ≤ 9999 then padStart 4 y.toNat
  else (if y < 0 then '-' else '+') :: padStart 6 y.natAbs

/-- The characters of `toISOString`. -/
def caracteres (t : Time) : List Char :=
  let (y, mois, jour) := civilFromDays (jourDe t)
  let ms := (t.fmod jourMs).toNat
  annee y ++ '-' :: padStart 2 mois.toNat ++ '-' :: padStart 2 jour.toNat ++
    'T' :: padStart 2 (ms / 3600000) ++ ':' :: padStart 2 (ms / 60000 % 60) ++
    ':' :: padStart 2 (ms / 1000 % 60) ++ '.' :: padStart 3 (ms % 1000) ++ ['Z']

/-- The characters that separate the numbers, and the signs of a year. -/
def separateurs : List Char := ['-', '+', 'T', ':', '.', 'Z']

end Iso

/-- `date.toISOString()`. -/
def toISOString (t : Time) : String := String.ofList (Iso.caracteres t)

/-- `versJour`: `date.toISOString().slice(0, 10)`. -/
def versJour (t : Time) : String := String.ofList ((toISOString t).toList.take 10)

example : toISOString 1767225600000 = "2026-01-01T00:00:00.000Z" := by decide +kernel

example : toISOString (minuit (daysFromCivil 12026 2 3) + 1) = "+012026-02-03T00:00:00.001Z" := by
  decide +kernel

/-! ## Numerals -/

theorem toString_toList (a : Int) : (toString a).toList =
    if 0 ≤ a then Nat.toDigits 10 a.toNat else '-' :: Nat.toDigits 10 (-a).toNat := by
  rw [Int.toString_eq_repr, Int.repr_eq_if]
  split <;> simp

theorem isDigit_toDigits {n : Nat} {c : Char} (h : c ∈ Nat.toDigits 10 n) : c.isDigit = true :=
  Nat.isDigit_of_mem_toDigits (by decide) (by decide) h

/-- Numerals of the same length are in the order of their numbers. -/
theorem ofDigitChars_lt_iff {l l' : List Char} (hlen : l.length = l'.length)
    (hl : ∀ c ∈ l, c.isDigit = true) (hl' : ∀ c ∈ l', c.isDigit = true) (i j : Nat) :
    Nat.ofDigitChars 10 l i < Nat.ofDigitChars 10 l' j ↔ i < j ∨ i = j ∧ l < l' := by
  induction l generalizing l' i j with
  | nil =>
    obtain rfl := List.length_eq_zero_iff.mp hlen.symm
    simp
  | cons c l ih =>
    rcases l' with _ | ⟨d, l'⟩
    · simp at hlen
    have hlt : c < d ↔ c.toNat < d.toNat := UInt32.lt_iff_toNat_lt
    have hc := Char.isDigit_iff_toNat.mp (hl c List.mem_cons_self)
    have hd := Char.isDigit_iff_toNat.mp (hl' d List.mem_cons_self)
    rw [Nat.ofDigitChars_cons, Nat.ofDigitChars_cons,
      ih (by simpa using hlen) (fun x hx => hl x (List.mem_cons_of_mem _ hx))
        (fun x hx => hl' x (List.mem_cons_of_mem _ hx)), List.cons_lt_cons_iff, ← Char.toNat_inj, hlt]
    have h0 : '0'.toNat = 48 := rfl
    have h9 : '9'.toNat = 57 := rfl
    by_cases h : l < l'
    · simp only [h, and_true]
      omega
    · simp only [h, and_false, or_false]
      omega

theorem append_lt_append_iff {l l' r r' : List Char} (hlen : l.length = l'.length) :
    l ++ r < l' ++ r' ↔ l < l' ∨ l = l' ∧ r < r' := by
  induction l generalizing l' with
  | nil =>
    obtain rfl := List.length_eq_zero_iff.mp hlen.symm
    simp
  | cons c l ih =>
    rcases l' with _ | ⟨d, l'⟩
    · simp at hlen
    rw [List.cons_append, List.cons_append, List.cons_lt_cons_iff, List.cons_lt_cons_iff,
      ih (by simpa using hlen), List.cons.injEq]
    simp only [and_or_left, or_assoc, and_assoc]
/-! ## Instants -/

namespace Iso

theorem isDigit_padStart {longueur valeur : Nat} {c : Char} (h : c ∈ padStart longueur valeur) :
    c.isDigit = true := by
  unfold padStart List.leftpad at h
  rcases List.mem_append.mp h with h | h
  · rw [List.eq_of_mem_replicate h]
    rfl
  · exact isDigit_toDigits h

theorem padStart_ne_nil (longueur valeur : Nat) : padStart longueur valeur ≠ [] := by
  unfold padStart List.leftpad
  exact List.append_ne_nil_of_right_ne_nil _ Nat.toDigits_ne_nil

theorem annee_mem {y : Int} {c : Char} (h : c ∈ annee y) : c.isDigit = true ∨ c ∈ separateurs := by
  unfold annee at h
  split at h
  · exact .inl (isDigit_padStart h)
  · rcases List.mem_cons.mp h with rfl | h
    · right
      split
      · decide
      · decide
    · exact .inl (isDigit_padStart h)

/-- What `toISOString` is made of. -/
theorem caracteres_mem {t : Time} {c : Char} (h : c ∈ caracteres t) :
    c.isDigit = true ∨ c ∈ separateurs := by
  simp only [caracteres, List.mem_append, List.mem_cons, List.not_mem_nil, or_false] at h
  rcases h with ((((((h | rfl | h) | rfl | h) | rfl | h) | rfl | h) | rfl | h) | rfl | h) | rfl
  · exact annee_mem h
  all_goals first
    | exact .inl (isDigit_padStart h)
    | exact .inr (by decide)

/-- A year of four digits is written without a sign. -/
theorem annee_of_quatre {y : Int} (h : 0 ≤ y ∧ y ≤ 9999) :
    ∃ c l, annee y = c :: l ∧ c.isDigit = true := by
  unfold annee
  rw [if_pos h]
  obtain ⟨c, l, hl⟩ := List.exists_cons_of_ne_nil (padStart_ne_nil 4 y.toNat)
  exact ⟨c, l, hl, isDigit_padStart (hl ▸ List.mem_cons_self)⟩

/-- Any other year starts with its sign, and its digits and a dash follow. -/
theorem annee_of_not {y : Int} (h : ¬ (0 ≤ y ∧ y ≤ 9999)) :
    ∃ c l, annee y = c :: l ∧ (c = '+' ∨ c = '-') := by
  unfold annee
  rw [if_neg h]
  refine ⟨_, _, rfl, ?_⟩
  split
  · exact .inr rfl
  · exact .inl rfl

end Iso

end OumraHajj
