import Mathlib.Algebra.BigOperators.Intervals
import Mathlib.Algebra.Order.BigOperators.Group.Finset
import Mathlib.Data.Prod.Lex
import Mathlib.Order.Monotone.Basic

/-! The proleptic Gregorian calendar: which dates there are, which one comes next, and how
many days lie before a date. A sequence that starts at a date and always goes on to the next
one runs through the calendar, and counting the days undoes it. -/
namespace Gregorian

/-- A year, a month and a day, all of which are numbered from one except the year. -/
structure Date where
  year : Nat
  month : Nat
  day : Nat
  deriving DecidableEq

/-- Every fourth year, but of the centuries only every fourth. -/
def Leap (year : Nat) : Prop := 4 ∣ year ∧ (100 ∣ year → 400 ∣ year)

instance : DecidablePred Leap := fun year =>
  inferInstanceAs (Decidable (4 ∣ year ∧ (100 ∣ year → 400 ∣ year)))

def yearLength (year : Nat) : Nat := if Leap year then 366 else 365

def monthLength (year month : Nat) : Nat :=
  if month = 2 then (if Leap year then 29 else 28)
  else if month ∈ [4, 6, 9, 11] then 30
  else 31

/-- The days of the years before a year, from the year zero on. -/
def daysBeforeYear (year : Nat) : Nat := ∑ earlier ∈ Finset.range year, yearLength earlier

/-- The days of the months before a month, from January on. -/
def daysBeforeMonth (year month : Nat) : Nat :=
  ∑ earlier ∈ Finset.Ico 1 month, monthLength year earlier

theorem days_before_year_succ (year : Nat) :
    daysBeforeYear (year + 1) = daysBeforeYear year + yearLength year :=
  Finset.sum_range_succ _ _

theorem days_before_year_mono : Monotone daysBeforeYear := by
  refine monotone_nat_of_le_succ fun year => ?_
  rw [days_before_year_succ]
  exact Nat.le_add_right _ _

theorem days_before_month_succ (year : Nat) {month : Nat} (positive : 1 ≤ month) :
    daysBeforeMonth year (month + 1) = daysBeforeMonth year month + monthLength year month :=
  Finset.sum_Ico_succ_top positive _

theorem days_before_month_mono (year : Nat) {first second : Nat} (before : first ≤ second) :
    daysBeforeMonth year first ≤ daysBeforeMonth year second :=
  Finset.sum_le_sum_of_subset (Finset.Ico_subset_Ico_right before)

/-- The months of a year are the year. -/
theorem days_before_month_all (year : Nat) : daysBeforeMonth year 13 = yearLength year := by
  by_cases leap : Leap year
  · simp [daysBeforeMonth, yearLength, monthLength, Finset.sum_Ico_eq_sum_range,
      Finset.sum_range_succ, leap]
  · simp [daysBeforeMonth, yearLength, monthLength, Finset.sum_Ico_eq_sum_range,
      Finset.sum_range_succ, leap]

theorem month_length_pos (year month : Nat) : 1 ≤ monthLength year month := by
  rw [monthLength]
  split
  · split <;> decide
  · split <;> decide

theorem month_length_le (year month : Nat) : monthLength year month ≤ 31 := by
  rw [monthLength]
  split
  · split <;> decide
  · split <;> decide

theorem year_length_bounds (year : Nat) : 365 ≤ yearLength year ∧ yearLength year ≤ 366 := by
  rw [yearLength]
  split <;> decide

namespace Date

/-- The month is one of twelve, and the day one of the month's. -/
structure Valid (date : Date) : Prop where
  month_pos : 1 ≤ date.month
  month_le : date.month ≤ 12
  day_pos : 1 ≤ date.day
  day_le : date.day ≤ monthLength date.year date.month

/-- The calendar successor. -/
def next (date : Date) : Date :=
  if date.day < monthLength date.year date.month then { date with day := date.day + 1 }
  else if date.month < 12 then { year := date.year, month := date.month + 1, day := 1 }
  else { year := date.year + 1, month := 1, day := 1 }

/-- The year decides, then the month, then the day. -/
def key (date : Date) : ℕ ×ₗ ℕ ×ₗ ℕ := toLex (date.year, toLex (date.month, date.day))

theorem key_injective : Function.Injective key := by
  intro first second same
  cases first
  cases second
  simpa [key] using same

instance : LinearOrder Date := LinearOrder.lift' key key_injective

theorem lt_iff {first second : Date} : first < second ↔ first.year < second.year ∨
    first.year = second.year ∧ (first.month < second.month ∨
      first.month = second.month ∧ first.day < second.day) := by
  change key first < key second ↔ _
  rw [Prod.Lex.lt_iff]
  simp only [key, ofLex_toLex, Prod.Lex.lt_iff]

/-- The number of the day, from the beginning of the year zero on. -/
def ordinal (date : Date) : Nat :=
  daysBeforeYear date.year + daysBeforeMonth date.year date.month + date.day

theorem Valid.next {date : Date} (valid : date.Valid) : date.next.Valid := by
  rw [Date.next]
  split
  · rename_i within
    exact ⟨valid.month_pos, valid.month_le, Nat.le_add_left _ _, within⟩
  · split
    · rename_i inside
      exact ⟨Nat.le_add_left _ _, inside, Nat.le_refl _, month_length_pos _ _⟩
    · exact ⟨Nat.le_refl _, Nat.le_add_left 1 11, Nat.le_refl _, month_length_pos _ _⟩

/-- The next date is the next day. -/
theorem Valid.ordinal_next {date : Date} (valid : date.Valid) :
    date.next.ordinal = date.ordinal + 1 := by
  have months := days_before_month_succ date.year valid.month_pos
  simp only [Date.next, ordinal]
  split
  · dsimp only
    omega
  · rename_i last
    have day : date.day = monthLength date.year date.month :=
      Nat.le_antisymm valid.day_le (Nat.le_of_not_lt last)
    split
    · dsimp only
      omega
    · rename_i december
      have month : date.month = 12 := Nat.le_antisymm valid.month_le (Nat.le_of_not_lt december)
      have january : daysBeforeMonth (date.year + 1) 1 = 0 := rfl
      rw [month, days_before_month_all] at months
      dsimp only
      rw [january, days_before_year_succ, day, month]
      omega

/-- The days of a month are within it, and the months within the year. -/
theorem Valid.ordinal_le {date : Date} (valid : date.Valid) :
    daysBeforeMonth date.year date.month + date.day ≤
      daysBeforeMonth date.year (date.month + 1) := by
  rw [days_before_month_succ _ valid.month_pos]
  exact Nat.add_le_add_left valid.day_le _

/-- Later dates have higher numbers. -/
theorem Valid.ordinal_lt {first second : Date} (valid : first.Valid) (valid' : second.Valid)
    (before : first < second) : first.ordinal < second.ordinal := by
  have within := valid.ordinal_le
  have positive := valid'.day_pos
  rw [ordinal, ordinal]
  rcases lt_iff.mp before with year | ⟨year, month | ⟨month, day⟩⟩
  · have months : daysBeforeMonth first.year (first.month + 1) ≤ yearLength first.year := by
      rw [← days_before_month_all]
      exact days_before_month_mono _ (Nat.succ_le_succ valid.month_le)
    have years : daysBeforeYear first.year + yearLength first.year ≤
        daysBeforeYear second.year := by
      rw [← days_before_year_succ]
      exact days_before_year_mono year
    omega
  · have months : daysBeforeMonth first.year (first.month + 1) ≤
        daysBeforeMonth first.year second.month := days_before_month_mono _ month
    rw [← year]
    omega
  · rw [year, month]
    omega

theorem Valid.ordinal_injective {first second : Date} (valid : first.Valid) (valid' : second.Valid)
    (same : first.ordinal = second.ordinal) : first = second := by
  rcases lt_trichotomy first second with before | equal | after
  · exact absurd same (valid.ordinal_lt valid' before).ne
  · exact equal
  · exact absurd same (valid'.ordinal_lt valid after).ne'

theorem Valid.lt_iff_ordinal {first second : Date} (valid : first.Valid) (valid' : second.Valid) :
    first < second ↔ first.ordinal < second.ordinal := by
  refine ⟨valid.ordinal_lt valid', fun below => ?_⟩
  by_contra not_before
  rcases lt_or_eq_of_le (not_lt.mp not_before) with after | equal
  · exact absurd below (valid'.ordinal_lt valid after).not_gt
  · rw [equal] at below
    exact absurd below (Nat.lt_irrefl _)

end Date

/-! ## Sequences of dates -/

/-- The sequence starts at a date and goes through the calendar. -/
structure Enumerates (first : Date) (dates : Nat → Date) : Prop where
  zero : dates 0 = first
  succ : ∀ days, dates (days + 1) = (dates days).next

/-- The days from a date to a later one. -/
def daysSince (first date : Date) : Nat := date.ordinal - first.ordinal

namespace Enumerates

variable {first : Date} {dates : Nat → Date}

theorem valid (enumerates : Enumerates first dates) (start : first.Valid) (days : Nat) :
    (dates days).Valid := by
  induction days with
  | zero =>
    rw [enumerates.zero]
    exact start
  | succ days step =>
    rw [enumerates.succ]
    exact step.next

theorem ordinal_eq (enumerates : Enumerates first dates) (start : first.Valid) (days : Nat) :
    (dates days).ordinal = first.ordinal + days := by
  induction days with
  | zero => rw [enumerates.zero, Nat.add_zero]
  | succ days step =>
    rw [enumerates.succ, (enumerates.valid start days).ordinal_next, step, Nat.add_assoc]

/-- **A sequence through the calendar is strictly increasing.** -/
theorem strict_mono (enumerates : Enumerates first dates) (start : first.Valid) :
    StrictMono dates := by
  intro early late before
  rw [(enumerates.valid start early).lt_iff_ordinal (enumerates.valid start late),
    enumerates.ordinal_eq start, enumerates.ordinal_eq start]
  exact Nat.add_lt_add_left before _

/-- **Counting the days undoes the sequence.** -/
theorem days_since_eq (enumerates : Enumerates first dates) (start : first.Valid) (days : Nat) :
    daysSince first (dates days) = days := by
  rw [daysSince, enumerates.ordinal_eq start, Nat.add_sub_cancel_left]

/-- **The sequence has every date from its start on,** at the number of the days since. -/
theorem at_days_since (enumerates : Enumerates first dates) (start : first.Valid) {date : Date}
    (valid : date.Valid) (later : first ≤ date) : dates (daysSince first date) = date := by
  have number : first.ordinal ≤ date.ordinal := by
    rcases lt_or_eq_of_le later with before | equal
    · exact (start.ordinal_lt valid before).le
    · rw [equal]
  refine (enumerates.valid start _).ordinal_injective valid ?_
  rw [enumerates.ordinal_eq start, daysSince, Nat.add_sub_cancel' number]

end Enumerates

end Gregorian
