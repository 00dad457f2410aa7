
/-!
# Days and dates

The proleptic Gregorian calendar. Days are counted from the first of January 1970. The year
of the computation begins in March, so that a leap day is its last one, and 400 years
form an era.
-/

namespace Gungnir.Library.Calendar

structure Date where
  year : Int
  month : Nat
  day : Nat
  deriving DecidableEq, Repr

/-- The year of an era that a day of the era belongs to. -/
def yearOfEra (dayOfEra : Int) : Int :=
  (dayOfEra - dayOfEra / 1460 + dayOfEra / 36524 - dayOfEra / 146096) / 365

/-- The days of an era before a year. -/
def daysBefore (yearOfEra : Int) : Int := 365 * yearOfEra + yearOfEra / 4 - yearOfEra / 100

/-- The month, counted from March, that a day of a year belongs to. -/
def monthOfDay (dayOfYear : Int) : Int := (5 * dayOfYear + 2) / 153

/-- The days of a year before a month. -/
def daysBeforeMonth (month : Int) : Int := (153 * month + 2) / 5

/-- A date whose month is counted from March, in a year that begins there. -/
def fromMarch (year month day : Int) : Date :=
  if month < 10 then ⟨year, (month + 3).toNat, day.toNat⟩
  else ⟨year + 1, (month - 9).toNat, day.toNat⟩

def fromDays (days : Int) : Date :=
  let shifted := days + 719468
  let era := shifted / 146097
  let dayOfEra := shifted % 146097
  let year := yearOfEra dayOfEra
  let dayOfYear := dayOfEra - daysBefore year
  let month := monthOfDay dayOfYear
  fromMarch (year + era * 400) month (dayOfYear - daysBeforeMonth month + 1)

def toDays (date : Date) : Int :=
  let year := if date.month ≤ 2 then date.year - 1 else date.year
  let era := year / 400
  let month : Int := if date.month > 2 then date.month - 3 else date.month + 9
  let dayOfYear := daysBeforeMonth month + date.day - 1
  era * 146097 + daysBefore (year % 400) + dayOfYear - 719468

/-- Sunday is 0. -/
def weekday (days : Int) : Nat := ((days + 4) % 7).toNat

variable {day : Int}

theorem yearOfEra_bounds (low : 0 ≤ day) (high : day < 146097) :
    0 ≤ yearOfEra day ∧ yearOfEra day < 400 := by
  unfold yearOfEra
  omega

/-- The days of a year: the February at its end decides. -/
def yearLength (year : Int) : Int :=
  if (year + 1) % 4 = 0 ∧ ((year + 1) % 100 ≠ 0 ∨ (year + 1) % 400 = 0) then 366 else 365

/-- Within an era a day is found in its year. -/
theorem dayOfYear_bounds (low : 0 ≤ day) (high : day < 146097) :
    0 ≤ day - daysBefore (yearOfEra day) ∧
      day - daysBefore (yearOfEra day) < yearLength (yearOfEra day) := by
  by_cases last : day = 146096
  · subst last
    decide
  · have inside : day / 146096 = 0 := by omega
    unfold daysBefore yearOfEra yearLength
    rw [inside]
    obtain ⟨century, found⟩ : ∃ century, century = day / 36524 := ⟨_, rfl⟩
    obtain ⟨cycle, counted⟩ : ∃ cycle, cycle = day / 1460 := ⟨_, rfl⟩
    rw [← found, ← counted]
    obtain ⟨year, chosen⟩ : ∃ year, year = (day - cycle + century - 0) / 365 := ⟨_, rfl⟩
    rw [← chosen]
    have centuries : century = 0 ∨ century = 1 ∨ century = 2 ∨ century = 3 := by omega
    have hundreds : year / 100 = 0 ∨ year / 100 = 1 ∨ year / 100 = 2 ∨ year / 100 = 3 := by omega
    have within : year = 4 * cycle - 1 ∨ 4 * cycle ≤ year ∧ year ≤ 4 * cycle + 3 := by omega
    -- With these numbers fixed the divisions that are left are small.
    rcases within with three | three <;> omega

theorem yearLength_bounds (year : Int) : 365 ≤ yearLength year ∧ yearLength year ≤ 366 := by
  unfold yearLength
  split <;> omega

theorem monthOfDay_bounds (low : 0 ≤ day) (high : day < 366) :
    0 ≤ monthOfDay day ∧ monthOfDay day < 12 ∧ daysBeforeMonth (monthOfDay day) ≤ day := by
  unfold daysBeforeMonth monthOfDay
  omega

theorem toDays_fromMarch (year : Int) {month day : Int} (low : 0 ≤ month) (high : month < 12)
    (positive : 0 < day) :
    toDays (fromMarch year month day) =
      year / 400 * 146097 + daysBefore (year % 400) + (daysBeforeMonth month + day - 1) - 719468 := by
  have days : (day.toNat : Int) = day := Int.toNat_of_nonneg (by omega)
  unfold toDays fromMarch
  by_cases early : month < 10
  · have number : ((month + 3).toNat : Int) = month + 3 := Int.toNat_of_nonneg (by omega)
    rw [if_pos early]
    dsimp only
    rw [if_neg (by omega), if_pos (by omega), number, days, Int.add_sub_cancel]
  · have number : ((month - 9).toNat : Int) = month - 9 := Int.toNat_of_nonneg (by omega)
    rw [if_neg early]
    dsimp only
    rw [if_pos (by omega), if_neg (by omega), number, days, Int.add_sub_cancel, Int.sub_add_cancel]

/-- Every day is found again from its date. -/
theorem toDays_fromDays (days : Int) : toDays (fromDays days) = days := by
  have low : 0 ≤ (days + 719468) % 146097 := by omega
  have high : (days + 719468) % 146097 < 146097 := by omega
  obtain ⟨yearLow, yearHigh⟩ := yearOfEra_bounds low high
  obtain ⟨dayLow, dayHigh⟩ := dayOfYear_bounds low high
  obtain ⟨monthLow, monthHigh, within⟩ :=
    monthOfDay_bounds dayLow (Int.lt_of_lt_of_le dayHigh (yearLength_bounds _).2)
  have years : ∀ year era : Int, 0 ≤ year → year < 400 →
      (year + era * 400) / 400 = era ∧ (year + era * 400) % 400 = year := by
    omega
  obtain ⟨eras, rest⟩ := years _ ((days + 719468) / 146097) yearLow yearHigh
  unfold fromDays
  rw [toDays_fromMarch _ monthLow monthHigh (by omega), eras, rest]
  omega

end Gungnir.Library.Calendar
