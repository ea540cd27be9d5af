import Mathlib.Data.Int.Basic
import Mathlib.Order.Monotone.Basic
import Mathlib.Tactic.Common

/-! Months of the Gregorian calendar, numbered through the years: month `i` is month `i % 12`, from
0, of year `i / 12`. Days are numbered from the first of January of year 1. -/
namespace Library
namespace Calendar

/-- Days before a year. -/
def yearStart (year : ℤ) : ℤ :=
  365 * (year - 1) + (year - 1) / 4 - (year - 1) / 100 + (year - 1) / 400

def leap (year : ℤ) : Bool := year % 4 = 0 && (year % 100 ≠ 0 || year % 400 = 0)

/-- The days of January and February. -/
def winter (year : ℤ) : ℤ := if leap year then 60 else 59

/-- Days of a year before a month. From March on the months' lengths repeat after five. -/
def monthOffset (year month : ℤ) : ℤ :=
  if month < 2 then 31 * month else winter year + (153 * (month - 2) + 2) / 5

/-- The first day of a month. -/
def monthStart (i : ℤ) : ℤ := yearStart (i / 12) + monthOffset (i / 12) (i % 12)

def monthDays (i : ℤ) : ℤ := monthStart (i + 1) - monthStart i

/-- The year of a day: the estimate by mean years is off by one at most. -/
def yearOf (day : ℤ) : ℤ :=
  let year := day * 400 / 146097 + 1
  if day < yearStart year then year - 1
  else if yearStart (year + 1) ≤ day then year + 1
  else year

/-- The month of a day. -/
def monthOf (day : ℤ) : ℤ :=
  let year := yearOf day
  let rest := day - yearStart year
  12 * year +
    if rest < winter year then rest / 31 else 2 + (5 * (rest - winter year) + 2) / 153

theorem yearStart_succ (year : ℤ) : yearStart (year + 1) = yearStart year + winter year + 306 := by
  unfold yearStart winter leap
  by_cases four : year % 4 = 0
  · by_cases hundred : year % 100 = 0
    · by_cases fourHundred : year % 400 = 0
      · simp [four, hundred, fourHundred]
        omega
      · simp [four, hundred, fourHundred]
        omega
    · simp [four, hundred]
      omega
  · simp [four]
    omega

theorem winter_cases (year : ℤ) : winter year = 59 ∨ winter year = 60 := by
  unfold winter
  split
  · exact .inr rfl
  · exact .inl rfl

theorem yearOf_bounds (day : ℤ) :
    yearStart (yearOf day) ≤ day ∧ day < yearStart (yearOf day + 1) := by
  unfold yearOf
  dsimp only
  split
  next early =>
    rw [Int.sub_add_cancel]
    refine ⟨?_, early⟩
    unfold yearStart
    omega
  next late =>
    split
    next next =>
      refine ⟨next, ?_⟩
      unfold yearStart
      omega
    next within => exact ⟨Int.not_lt.mp late, Int.not_le.mp within⟩

theorem monthStart_of (year month : ℤ) (low : 0 ≤ month) (high : month < 12) :
    monthStart (12 * year + month) = yearStart year + monthOffset year month := by
  rw [monthStart, show (12 * year + month) / 12 = year by omega,
    show (12 * year + month) % 12 = month by omega]

/-- A month has 28 to 31 days. -/
theorem monthDays_bounds (i : ℤ) : 28 ≤ monthDays i ∧ monthDays i ≤ 31 := by
  have split : i = 12 * (i / 12) + i % 12 := by omega
  have low : 0 ≤ i % 12 := by omega
  have high : i % 12 < 12 := by omega
  generalize i / 12 = year at split
  generalize i % 12 = month at split low high
  subst split
  have february := winter_cases year
  unfold monthDays
  by_cases last : month = 11
  · subst last
    rw [show 12 * year + 11 + 1 = 12 * (year + 1) + 0 by omega, monthStart_of _ _ (by omega) (by omega),
      monthStart_of _ _ (by omega) (by omega), yearStart_succ]
    simp only [monthOffset]
    omega
  · rw [Int.add_assoc, monthStart_of _ _ (by omega) (by omega), monthStart_of _ _ low high]
    unfold monthOffset
    split <;> split <;> omega

theorem monthStart_lt (i : ℤ) : monthStart i < monthStart (i + 1) := by
  have := (monthDays_bounds i).1
  unfold monthDays at this
  omega

theorem monthStart_mono {i j : ℤ} (ordered : i ≤ j) : monthStart i ≤ monthStart j :=
  monotone_int_of_le_succ (fun i => (monthStart_lt i).le) ordered

theorem monthOf_bounds (day : ℤ) :
    monthStart (monthOf day) ≤ day ∧ day < monthStart (monthOf day + 1) := by
  obtain ⟨first, last⟩ := yearOf_bounds day
  rw [yearStart_succ] at last
  have february := winter_cases (yearOf day)
  unfold monthOf
  dsimp only
  generalize yearOf day = year at *
  split
  next early =>
    have low : 0 ≤ (day - yearStart year) / 31 := by omega
    have high : (day - yearStart year) / 31 < 2 := by omega
    rw [Int.add_assoc, monthStart_of _ _ low (by omega), monthStart_of _ _ (by omega) (by omega)]
    unfold monthOffset
    rw [if_pos high]
    split <;> omega
  next late =>
    have low : 2 ≤ 2 + (5 * (day - yearStart year - winter year) + 2) / 153 := by omega
    have high : 2 + (5 * (day - yearStart year - winter year) + 2) / 153 < 12 := by omega
    generalize month : 2 + (5 * (day - yearStart year - winter year) + 2) / 153 = m at *
    constructor
    · rw [monthStart_of _ _ (by omega) high, monthOffset, if_neg (by omega)]
      omega
    · by_cases december : m = 11
      · rw [december, show 12 * year + 11 + 1 = 12 * (year + 1) + 0 by omega,
          monthStart_of _ _ (by omega) (by omega), yearStart_succ]
        simp only [monthOffset]
        omega
      · rw [Int.add_assoc, monthStart_of _ _ (by omega) (by omega), monthOffset, if_neg (by omega)]
        omega

/-- A day is of one month only. -/
theorem monthOf_eq {day i : ℤ} (first : monthStart i ≤ day) (last : day < monthStart (i + 1)) :
    monthOf day = i := by
  obtain ⟨first', last'⟩ := monthOf_bounds day
  rcases Int.lt_trichotomy (monthOf day) i with before | same | after
  · have := monthStart_mono (show monthOf day + 1 ≤ i by omega)
    omega
  · exact same
  · have := monthStart_mono (show i + 1 ≤ monthOf day by omega)
    omega

end Calendar
end Library
