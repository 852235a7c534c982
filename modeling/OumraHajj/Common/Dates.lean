/-!
# Instants and calendar days

A `Date` is its number of milliseconds since 1970 in UTC, and the server runs in UTC, so a local
calendar day is a UTC one. `jourDe` is the day of an instant, counted from 1970; `civilFromDays` and
`daysFromCivil` convert a day to a year, a month and a day of the proleptic Gregorian calendar and
back. The setters of `Date` keep the time of the day and carry a day that the month does not have
into the next month.
-/

namespace OumraHajj

/-- An instant, in milliseconds since 1970. -/
abbrev Time := Int

/-- `24 * 60 * 60 * 1000`: the `JOUR_MS` and `MS_PER_DAY` of the source. -/
def jourMs : Int := 86400000

/-- The day of an instant, counted from 1970. -/
def jourDe (t : Time) : Int := t.fdiv jourMs

/-- Midnight of a day. -/
def minuit (jour : Int) : Time := jour * jourMs

theorem minuit_succ (jour : Int) : minuit (jour + 1) = minuit jour + jourMs := by
  rw [minuit, Int.add_mul, Int.one_mul, minuit]

theorem minuit_mono {jour jour' : Int} (h : jour ≤ jour') : minuit jour ≤ minuit jour' :=
  Int.mul_le_mul_of_nonneg_right h (by decide)

/-- The day number of a civil date. The year starts in March, so that the leap day ends it; a month
outside `1..12` counts into the years around. -/
def daysFromCivil (annee mois jour : Int) : Int :=
  let m := mois - 3
  let y := annee + m.fdiv 12
  let era := y.fdiv 400
  let yoe := y - era * 400
  let doy := (153 * (m.fmod 12) + 2).fdiv 5 + jour - 1
  let doe := yoe * 365 + yoe.fdiv 4 - yoe.fdiv 100 + doy
  era * 146097 + doe - 719468

/-- The year, the month and the day of a day number. -/
def civilFromDays (n : Int) : Int × Int × Int :=
  let z := n + 719468
  let era := z.fdiv 146097
  let doe := z - era * 146097
  let yoe := (doe - doe.fdiv 1460 + doe.fdiv 36524 - doe.fdiv 146096).fdiv 365
  let doy := doe - (365 * yoe + yoe.fdiv 4 - yoe.fdiv 100)
  let mp := (5 * doy + 2).fdiv 153
  let jour := doy - (153 * mp + 2).fdiv 5 + 1
  let mois := if mp < 10 then mp + 3 else mp - 9
  (yoe + era * 400 + if mois ≤ 2 then 1 else 0, mois, jour)

example : civilFromDays 0 = (1970, 1, 1) := by decide

example : civilFromDays (daysFromCivil 2028 2 29) = (2028, 2, 29) := by decide

/-- `date.setDate(date.getDate() + n)`. -/
def addDays (t : Time) (n : Int) : Time := t + n * jourMs

/-- `date.setMonth(date.getMonth() + n)`. -/
def addMonths (t : Time) (n : Int) : Time :=
  let (annee, mois, jour) := civilFromDays (jourDe t)
  minuit (daysFromCivil annee (mois + n) jour) + t.fmod jourMs

/-- The first day of the month of an instant. -/
def premierDuMois (t : Time) : Int :=
  let (annee, mois, _) := civilFromDays (jourDe t)
  daysFromCivil annee mois 1

-- The 31st of January plus one month is the 3rd of March, or the 2nd in a leap year.
example : jourDe (addMonths (minuit (daysFromCivil 2026 1 31)) 1) = daysFromCivil 2026 3 3 := by
  decide

end OumraHajj
