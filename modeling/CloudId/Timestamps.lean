import Mathlib.Tactic.IntervalCases
import CloudId.Library.Gregorian
import CloudId.Templates

/-! The calendar of the timestamps. The conversion counts in years that begin in March, so that
the leap day is the last of its year: each of its truncating divisions is compared here with what
it counts, and the conversion turns out to go through the Gregorian calendar day by day. -/
namespace CloudId
open Gregorian

/-! ## Years that begin in March -/

/-- The days of an era up to one of them, less the leap days among them. -/
def withoutLeapDays (doe : Nat) : Nat := doe - doe / 1460 + doe / 36524 - doe / 146096

theorem without_leap_days_mono : Monotone withoutLeapDays := by
  refine monotone_nat_of_le_succ fun doe => ?_
  simp only [withoutLeapDays]
  omega

/-- The days from the first of March of the year zero to that of another year. -/
def marchDays (year : Nat) : Nat := 365 * year + year / 4 - year / 100 + year / 400

theorem march_days_add (year : Nat) :
    marchDays year + year / 100 = 365 * year + year / 4 + year / 400 := by
  have centuries : year / 100 ≤ year := Nat.div_le_self _ _
  rw [marchDays]
  omega

/-- Such a year ends with the February of the next one. -/
theorem march_days_succ (year : Nat) :
    marchDays (year + 1) = marchDays year + yearLength (year + 1) := by
  have this_year := march_days_add year
  have next_year := march_days_add (year + 1)
  rw [Nat.succ_div, Nat.succ_div, Nat.succ_div] at next_year
  rw [yearLength]
  by_cases fourth : 4 ∣ year + 1
  · by_cases century : 100 ∣ year + 1
    · by_cases era : 400 ∣ year + 1
      · rw [if_pos fourth, if_pos century, if_pos era] at next_year
        rw [if_pos ⟨fourth, fun _ => era⟩]
        omega
      · rw [if_pos fourth, if_pos century, if_neg era] at next_year
        rw [if_neg fun leap => era (leap.2 century)]
        omega
    · have no_era : ¬ 400 ∣ year + 1 := fun era => century (Nat.dvd_trans ⟨4, rfl⟩ era)
      rw [if_pos fourth, if_neg century, if_neg no_era] at next_year
      rw [if_pos ⟨fourth, fun century' => absurd century' century⟩]
      omega
  · have no_century : ¬ 100 ∣ year + 1 := fun century => fourth (Nat.dvd_trans ⟨25, rfl⟩ century)
    have no_era : ¬ 400 ∣ year + 1 := fun era => fourth (Nat.dvd_trans ⟨100, rfl⟩ era)
    rw [if_neg fourth, if_neg no_century, if_neg no_era] at next_year
    rw [if_neg fun leap => fourth leap.1]
    omega

theorem march_days_mono : StrictMono marchDays := by
  refine strictMono_nat_of_lt_succ fun year => ?_
  have shortest := (year_length_bounds (year + 1)).1
  rw [march_days_succ]
  omega

theorem march_days_in_era {year : Nat} (small : year < 400) :
    marchDays year = 365 * year + year / 4 - year / 100 := by
  rw [marchDays, Nat.div_eq_of_lt small, Nat.add_zero]

theorem march_days_era (era year : Nat) :
    marchDays (year + era * 400) = era * 146097 + marchDays year := by
  rw [marchDays, marchDays]
  omega

/-- The first and the last day of each year of an era. -/
theorem march_ends : ∀ year < 400, 365 * year ≤ withoutLeapDays (marchDays year) ∧
    withoutLeapDays (marchDays (year + 1) - 1) < 365 * (year + 1) := by
  decide +kernel

/-- The year of an era that a day of it is in. The formula grows with the day, so that the first
and the last days of the years decide. -/
theorem year_of_era {doe : Nat} (within : doe < 146097) :
    withoutLeapDays doe / 365 < 400 ∧ marchDays (withoutLeapDays doe / 365) ≤ doe ∧
      doe < marchDays (withoutLeapDays doe / 365 + 1) := by
  obtain ⟨year, is_year⟩ : ∃ year, withoutLeapDays doe / 365 = year := ⟨_, rfl⟩
  have low : 365 * year ≤ withoutLeapDays doe := by omega
  have high : withoutLeapDays doe < 365 * (year + 1) := by omega
  have last : withoutLeapDays doe ≤ withoutLeapDays 146096 := without_leap_days_mono (by omega)
  have small : year < 400 := by
    have whole : withoutLeapDays 146096 = 145999 := by decide
    omega
  rw [is_year]
  refine ⟨small, ?_, ?_⟩
  · by_contra early
    cases year with
    | zero => exact early (Nat.zero_le _)
    | succ year =>
      have ends := (march_ends year (by omega)).2
      have before := without_leap_days_mono (show doe ≤ marchDays (year + 1) - 1 by omega)
      omega
  · by_contra late
    by_cases inside : year + 1 < 400
    · have starts := (march_ends (year + 1) inside).1
      have after := without_leap_days_mono (show marchDays (year + 1) ≤ doe by omega)
      omega
    · have era : marchDays (year + 1) = 146097 := by
        rw [show year = 399 by omega]
        decide
      omega

/-- The days of such a year before a month of it, where March is the month zero. -/
def monthStart (mp : Nat) : Nat := (153 * mp + 2) / 5

theorem month_of_day {mp doy : Nat} (from_start : monthStart mp ≤ doy)
    (before_next : doy < monthStart (mp + 1)) : (5 * doy + 2) / 153 = mp := by
  rw [monthStart] at from_start before_next
  omega

/-- **What the conversion gives for a day of a month of a year that begins in March.** -/
theorem days_to_ymd_eq {days year mp past : Nat}
    (counted : days + 719468 = marchDays year + (monthStart mp + past))
    (in_month : monthStart mp + past < monthStart (mp + 1))
    (in_year : monthStart mp + past < yearLength (year + 1)) :
    daysToYmd days =
      (if mp < 10 then year else year + 1, if mp < 10 then mp + 3 else mp - 9, past + 1) := by
  obtain ⟨era, is_era⟩ : ∃ era, (days + 719468) / 146097 = era := ⟨_, rfl⟩
  obtain ⟨doe, is_doe⟩ : ∃ doe, days + 719468 - era * 146097 = doe := ⟨_, rfl⟩
  have within : doe < 146097 := by omega
  obtain ⟨yoe, is_yoe⟩ : ∃ yoe, withoutLeapDays doe / 365 = yoe := ⟨_, rfl⟩
  obtain ⟨small, starts, ends⟩ := year_of_era within
  rw [is_yoe] at small starts ends
  have is_year : year = yoe + era * 400 := by
    have next := march_days_succ year
    have start := march_days_era era yoe
    have stop := march_days_era era (yoe + 1)
    have below : year < yoe + 1 + era * 400 := march_days_mono.lt_iff_lt.mp (by omega)
    have above : yoe + era * 400 < year + 1 := march_days_mono.lt_iff_lt.mp (by omega)
    omega
  have doy : doe - marchDays yoe = monthStart mp + past := by
    have whole := march_days_era era yoe
    rw [is_year] at counted
    omega
  have formula : (doe - doe / 1460 + doe / 36524 - doe / 146096) / 365 = yoe := is_yoe
  have of_day := month_of_day (Nat.le_add_right _ past) in_month
  simp only [daysToYmd]
  rw [is_era, is_doe, formula, ← march_days_in_era small, doy, of_day, ← is_year, ← monthStart,
    Nat.add_sub_cancel_left]
  have few : mp < 12 := by
    have longest := (year_length_bounds (year + 1)).2
    rw [monthStart] at in_year
    omega
  by_cases early : mp < 10
  · rw [if_pos early, if_pos early, if_neg (by omega)]
  · rw [if_neg early, if_neg early, if_pos (by omega)]

/-! ## Dates -/

/-- The year that a month of a year is in when years begin in March, -/
def marchYear (year month : Nat) : Nat := if month ≤ 2 then year - 1 else year

/-- and which one of its months it is. -/
def marchMonth (month : Nat) : Nat := if month ≤ 2 then month + 9 else month - 3

/-- The days from the first of March of the year zero to a date. -/
def marchNumber (date : Date) : Nat :=
  marchDays (marchYear date.year date.month) + (monthStart (marchMonth date.month) + (date.day - 1))

/-- The next month starts where one ends, except after February. -/
theorem month_start_succ (year : Nat) {month : Nat} (month_pos : 1 ≤ month) (month_le : month ≤ 12)
    (other : month ≠ 2) :
    monthStart (marchMonth month + 1) = monthStart (marchMonth month) + monthLength year month := by
  rw [monthLength, if_neg other]
  interval_cases month <;> first | rfl | exact absurd rfl other

/-- February lasts until the end of the year. -/
theorem month_start_february (year : Nat) :
    monthStart (marchMonth 2) + monthLength year 2 = yearLength year := by
  rw [monthLength, if_pos rfl, yearLength]
  split <;> rfl

theorem month_within {date : Date} (valid : date.Valid) (positive : 1 ≤ date.year) :
    monthStart (marchMonth date.month) + date.day ≤ monthStart (marchMonth date.month + 1) ∧
      monthStart (marchMonth date.month) + date.day ≤
        yearLength (marchYear date.year date.month + 1) := by
  have last_day := valid.day_le
  by_cases february : date.month = 2
  · have to_end := month_start_february date.year
    have longest := (year_length_bounds date.year).2
    have next_start : monthStart (marchMonth 2 + 1) = 367 := rfl
    have same : marchYear date.year 2 + 1 = date.year := Nat.sub_add_cancel positive
    rw [february] at last_day ⊢
    rw [same, next_start]
    omega
  · have to_next := month_start_succ date.year valid.month_pos valid.month_le february
    have shortest := (year_length_bounds (marchYear date.year date.month + 1)).1
    have early : marchMonth date.month + 1 ≤ 11 := by
      have month_le := valid.month_le
      rw [marchMonth]
      split <;> omega
    have before_february : monthStart (marchMonth date.month + 1) ≤ 337 := by
      rw [monthStart]
      omega
    omega

/-- **The conversion gives the date with a number.** -/
theorem days_to_ymd_of_number {days : Nat} {date : Date} (valid : date.Valid)
    (positive : 1 ≤ date.year) (counted : days + 719468 = marchNumber date) :
    daysToYmd days = (date.year, date.month, date.day) := by
  have first_day := valid.day_pos
  have month_pos := valid.month_pos
  have month_le := valid.month_le
  obtain ⟨in_month, in_year⟩ := month_within valid positive
  rw [days_to_ymd_eq counted (by omega) (by omega), Nat.sub_add_cancel first_day]
  rw [marchYear, marchMonth]
  by_cases early : date.month ≤ 2
  · rw [if_pos early, if_pos early, if_neg (by omega), if_neg (by omega), Nat.add_sub_cancel,
      Nat.sub_add_cancel positive]
  · rw [if_neg early, if_neg early, if_pos (by omega), if_pos (by omega),
      Nat.sub_add_cancel (by omega)]

/-- **The next date has the next number.** -/
theorem march_number_next {date : Date} (valid : date.Valid) (positive : 1 ≤ date.year) :
    marchNumber date.next = marchNumber date + 1 := by
  have first_day := valid.day_pos
  have month_pos := valid.month_pos
  rw [Date.next]
  split
  · simp only [marchNumber]
    omega
  · rename_i last
    have day : date.day = monthLength date.year date.month :=
      Nat.le_antisymm valid.day_le (Nat.le_of_not_lt last)
    split
    · simp only [marchNumber]
      by_cases february : date.month = 2
      · have to_end := month_start_february date.year
        have year_end := march_days_succ (date.year - 1)
        rw [Nat.sub_add_cancel positive] at year_end
        have year : marchYear date.year 2 = date.year - 1 := rfl
        have year' : marchYear date.year 3 = date.year := rfl
        have march : monthStart (marchMonth 3) = 0 := rfl
        rw [february] at day ⊢
        rw [year, year', march]
        omega
      · have to_next := month_start_succ date.year valid.month_pos valid.month_le february
        have month : marchMonth (date.month + 1) = marchMonth date.month + 1 := by
          rw [marchMonth, marchMonth]
          split <;> split <;> omega
        have year : marchYear date.year (date.month + 1) = marchYear date.year date.month := by
          rw [marchYear, marchYear]
          split <;> split <;> omega
        rw [month, year]
        omega
    · rename_i december
      have month : date.month = 12 := Nat.le_antisymm valid.month_le (Nat.le_of_not_lt december)
      have to_next := month_start_succ date.year (show 1 ≤ 12 by decide) (by decide) (by decide)
      simp only [marchNumber]
      rw [month] at day ⊢
      have year : marchYear (date.year + 1) 1 = marchYear date.year 12 := rfl
      have january : marchMonth 1 = marchMonth 12 + 1 := rfl
      rw [year, january]
      omega

/-! ## The calendar of the conversion -/

/-- The date that `days_to_ymd` gives. -/
def dateOf (days : Nat) : Date :=
  let (year, month, day) := daysToYmd days
  { year, month, day }

/-- The first of January of 1970. -/
def epoch : Date := { year := 1970, month := 1, day := 1 }

theorem date_of_number {days : Nat} {date : Date} (valid : date.Valid) (positive : 1 ≤ date.year)
    (counted : days + 719468 = marchNumber date) : dateOf days = date := by
  rw [dateOf, days_to_ymd_of_number valid positive counted]

theorem epoch_valid : epoch.Valid := ⟨by decide, by decide, by decide, by decide⟩

theorem year_le_next (date : Date) : date.year ≤ date.next.year := by
  rw [Date.next]
  split
  · exact Nat.le_refl _
  · split
    · exact Nat.le_refl _
    · exact Nat.le_succ _

theorem march_number_succ {days : Nat} {date : Date} (valid : date.Valid)
    (positive : 1 ≤ date.year) (counted : days + 719468 = marchNumber date) :
    days + 1 + 719468 = marchNumber date.next := by
  rw [march_number_next valid positive]
  omega

/-- Every number of days is that of a date of the calendar, which is the one converted to. -/
theorem date_of_numbered (days : Nat) : (dateOf days).Valid ∧ 1 ≤ (dateOf days).year ∧
    days + 719468 = marchNumber (dateOf days) := by
  induction days with
  | zero =>
    have zero : dateOf 0 = epoch := by decide
    rw [zero]
    exact ⟨epoch_valid, by decide, by decide⟩
  | succ days step =>
    obtain ⟨valid, positive, counted⟩ := step
    have later := positive.trans (year_le_next (dateOf days))
    have next := march_number_succ valid positive counted
    rw [date_of_number valid.next later next]
    exact ⟨valid.next, later, next⟩

/-- **The conversion goes through the calendar,** from the epoch on. -/
theorem date_of_enumerates : Enumerates epoch dateOf where
  zero := by decide
  succ := by
    intro days
    obtain ⟨valid, positive, counted⟩ := date_of_numbered days
    exact date_of_number valid.next (positive.trans (year_le_next _))
      (march_number_succ valid positive counted)

/-! ## Machine integers -/

/-- An addition of `u64` values, absent where it overflows. -/
def addU64 (a b : Nat) : Option Nat := if a + b < 2 ^ 64 then some (a + b) else none

/-- A multiplication of `u64` values, absent where it overflows. -/
def mulU64 (a b : Nat) : Option Nat := if a * b < 2 ^ 64 then some (a * b) else none

/-- A subtraction of `u64` values, absent where it underflows. -/
def subU64 (a b : Nat) : Option Nat := if b ≤ a then some (a - b) else none

/-- `days_to_ymd` with each operation checked for its range. -/
def daysToYmdU64 (days : Nat) : Option (Nat × Nat × Nat) := do
  let z ← addU64 days 719468
  let era := z / 146097
  let doe ← subU64 z (← mulU64 era 146097)
  let yoe := (← subU64 (← addU64 (← subU64 doe (doe / 1460)) (doe / 36524)) (doe / 146096)) / 365
  let y ← addU64 yoe (← mulU64 era 400)
  let doy ← subU64 doe (← subU64 (← addU64 (← mulU64 365 yoe) (yoe / 4)) (yoe / 100))
  let mp := (← addU64 (← mulU64 5 doy) 2) / 153
  let d ← addU64 (← subU64 doy ((← addU64 (← mulU64 153 mp) 2) / 5)) 1
  let m ← if mp < 10 then addU64 mp 3 else subU64 mp 9
  let y ← if m ≤ 2 then addU64 y 1 else some y
  return (y, m, d)

theorem add_u64 {a b : Nat} (fits : a + b < 2 ^ 64) : addU64 a b = some (a + b) := if_pos fits

theorem mul_u64 {a b : Nat} (fits : a * b < 2 ^ 64) : mulU64 a b = some (a * b) := if_pos fits

theorem sub_u64 {a b : Nat} (below : b ≤ a) : subU64 a b = some (a - b) := if_pos below

theorem bind_of {α β : Type} {first : Option α} {value : α} {rest : α → Option β}
    {result : Option β} (known : first = some value) (after : rest value = result) : (first >>= rest) = result := by
  rw [known]
  exact after

/-- **No operation leaves its range,** as long as the first one does not. -/
theorem days_to_ymd_u64 {days : Nat} (fits : days + 719468 < 2 ^ 64) :
    daysToYmdU64 days = some (daysToYmd days) := by
  rw [daysToYmdU64, daysToYmd]
  refine bind_of (add_u64 fits) ?_
  generalize days + 719468 = z at fits ⊢
  dsimp only
  generalize is_era : z / 146097 = era
  -- The day of the era is a remainder.
  refine bind_of (mul_u64 (by omega)) (bind_of (sub_u64 (by omega)) ?_)
  generalize is_doe : z - era * 146097 = doe
  have within : doe < 146097 := by omega
  have year := year_of_era within
  rw [withoutLeapDays] at year
  refine bind_of (sub_u64 (by omega)) (bind_of (add_u64 (by omega)) ?_)
  refine bind_of (sub_u64 (by omega)) ?_
  generalize is_yoe : (doe - doe / 1460 + doe / 36524 - doe / 146096) / 365 = yoe at year ⊢
  obtain ⟨small, starts, ends⟩ := year
  refine bind_of (mul_u64 (by omega)) (bind_of (add_u64 (by omega)) ?_)
  refine bind_of (mul_u64 (by omega)) (bind_of (add_u64 (by omega)) ?_)
  refine bind_of (sub_u64 (by omega)) ?_
  -- The year of the era starts no later than the day, which is why this does not underflow.
  rw [← march_days_in_era small]
  refine bind_of (sub_u64 starts) ?_
  have longest := (year_length_bounds (yoe + 1)).2
  have next := march_days_succ yoe
  generalize is_doy : doe - marchDays yoe = doy
  refine bind_of (mul_u64 (by omega)) (bind_of (add_u64 (by omega)) ?_)
  generalize is_mp : (5 * doy + 2) / 153 = mp
  refine bind_of (mul_u64 (by omega)) (bind_of (add_u64 (by omega)) ?_)
  refine bind_of (sub_u64 (by omega)) (bind_of (add_u64 (by omega)) ?_)
  by_cases early : mp < 10
  -- March to December, and January and February, which are of the next year.
  · rw [if_pos early, if_pos early]
    refine bind_of (add_u64 (by omega)) ?_
    rw [if_neg (by omega), if_neg (by omega)]
    rfl
  · rw [if_neg early, if_neg early]
    refine bind_of (sub_u64 (by omega)) ?_
    rw [if_pos (by omega), if_pos (by omega)]
    exact bind_of (add_u64 (by omega)) rfl

/-! ## Timestamps -/

theorem utc_timestamp_to_list (secs : Nat) : (utcTimestamp secs).toList =
    (Text.paddedDecimal 4 (dateOf (secs / 86400)).year).toList ++ '-' ::
      ((Text.paddedDecimal 2 (dateOf (secs / 86400)).month).toList ++ '-' ::
        ((Text.paddedDecimal 2 (dateOf (secs / 86400)).day).toList ++ 'T' ::
          ((Text.paddedDecimal 2 (secs % 86400 / 3600)).toList ++ ':' ::
            ((Text.paddedDecimal 2 (secs % 86400 % 3600 / 60)).toList ++ ':' ::
              ((Text.paddedDecimal 2 (secs % 86400 % 60)).toList ++ ['Z']))))) := by
  obtain ⟨⟨year, month, day⟩, converted⟩ : ∃ ymd, daysToYmd (secs / 86400) = ymd := ⟨_, rfl⟩
  simp [utcTimestamp, dateOf, converted]

theorem day_lt_hundred {date : Date} (valid : date.Valid) : date.day < 10 ^ 2 :=
  (valid.day_le.trans (month_length_le _ _)).trans_lt (by decide)

theorem month_lt_hundred {date : Date} (valid : date.Valid) : date.month < 10 ^ 2 :=
  valid.month_le.trans_lt (by decide)

/-- The year of an instant is below ten thousand. -/
def FourDigitYear (secs : Nat) : Prop := (dateOf (secs / 86400)).year < 10 ^ 4

/-- **Timestamps are ordered as their instants,** while the years have four digits. -/
theorem utc_timestamp_strict_mono : StrictMonoOn utcTimestamp {secs | FourDigitYear secs} := by
  intro early four late four' before
  have valid := (date_of_numbered (early / 86400)).1
  have valid' := (date_of_numbered (late / 86400)).1
  have dates : dateOf (early / 86400) < dateOf (late / 86400) ∨ early / 86400 = late / 86400 := by
    rcases lt_or_eq_of_le (Nat.div_le_div_right before.le) with days | days
    · exact .inl (date_of_enumerates.strict_mono epoch_valid days)
    · exact .inr days
  rw [String.lt_iff_toList_lt, utc_timestamp_to_list, utc_timestamp_to_list,
    Text.padded_field_lt_iff four four' (by decide),
    Text.padded_field_lt_iff (month_lt_hundred valid) (month_lt_hundred valid') (by decide),
    Text.padded_field_lt_iff (day_lt_hundred valid) (day_lt_hundred valid') (by decide),
    Text.padded_field_lt_iff (by omega) (by omega) (by decide),
    Text.padded_field_lt_iff (by omega) (by omega) (by decide),
    Text.padded_field_lt_iff (by omega) (by omega) (by decide)]
  rcases dates with earlier | same
  · rcases Date.lt_iff.mp earlier with year | ⟨year, month | ⟨month, day⟩⟩
    · exact .inl year
    · exact .inr ⟨year, .inl month⟩
    · exact .inr ⟨year, .inr ⟨month, .inl day⟩⟩
  · rw [same]
    refine .inr ⟨rfl, .inr ⟨rfl, .inr ⟨rfl, ?_⟩⟩⟩
    omega

theorem now_utc_eq {disk after : FileSystem.Disk} {text : String}
    (read : nowUtc disk = .ok text after) : text = utcTimestamp (disk.clock disk.ticks) := by
  have run : nowUtc disk =
      .ok (utcTimestamp (disk.clock disk.ticks)) { disk with ticks := disk.ticks + 1 } := rfl
  exact (EStateM.Result.ok.inj (read.symm.trans run)).1

/-- **`days_to_ymd` is the Gregorian calendar.** No operation leaves the range of a `u64`. The
dates are valid, start at the epoch, go on to the next one and never back, and every date from
the epoch on is reached at the number of days since. Timestamps are ordered as the instants that
the clock shows, while their years have four digits. -/
theorem days_to_ymd_is_gregorian :
    (∀ days, days + 719468 < 2 ^ 64 → daysToYmdU64 days = some (daysToYmd days)) ∧
    (∀ days, (dateOf days).Valid) ∧
    daysToYmd 0 = (1970, 1, 1) ∧
    (∀ days, dateOf (days + 1) = (dateOf days).next) ∧
    StrictMono dateOf ∧
    (∀ days, daysSince epoch (dateOf days) = days) ∧
    (∀ date : Date, date.Valid → epoch ≤ date → dateOf (daysSince epoch date) = date) ∧
    ∀ (first second after after' : FileSystem.Disk) (text text' : String),
      nowUtc first = .ok text after → nowUtc second = .ok text' after' →
      FourDigitYear (first.clock first.ticks) → FourDigitYear (second.clock second.ticks) →
      (text < text' ↔ first.clock first.ticks < second.clock second.ticks) := by
  refine ⟨fun days fits => days_to_ymd_u64 fits, fun days => (date_of_numbered days).1, by decide,
    date_of_enumerates.succ, date_of_enumerates.strict_mono epoch_valid,
    date_of_enumerates.days_since_eq epoch_valid, ?_, ?_⟩
  · intro date valid later
    exact date_of_enumerates.at_days_since epoch_valid valid later
  · intro first second after after' text text' read read' four four'
    rw [now_utc_eq read, now_utc_eq read']
    exact utc_timestamp_strict_mono.lt_iff_lt four four'

/-- The end of a leap day of a century. -/
def leapDayEnd : FileSystem.Disk := { clock := fun _ => 951868799 }

/-- The second after it. -/
def marchStart : FileSystem.Disk := { clock := fun _ => 951868800 }

theorem days_to_ymd_leap_day : daysToYmdU64 11016 = some (2000, 2, 29) ∧
    dateOf (daysSince epoch { year := 2000, month := 2, day := 29 }) =
      { year := 2000, month := 2, day := 29 } ∧
    (utcTimestamp 951868799 < utcTimestamp 951868800 ↔ 951868799 < 951868800) := by
  obtain ⟨in_range, valid, start, next, increasing, counting, reaching, ordered⟩ :=
    days_to_ymd_is_gregorian
  exact ⟨(in_range 11016 (by decide)).trans (by decide),
    reaching { year := 2000, month := 2, day := 29 } ⟨by decide, by decide, by decide, by decide⟩
      (Date.lt_iff.mpr (.inl (by decide))).le,
    ordered leapDayEnd marchStart _ _ _ _ rfl rfl
      (show (dateOf (951868799 / 86400)).year < 10 ^ 4 by decide)
      (show (dateOf (951868800 / 86400)).year < 10 ^ 4 by decide)⟩

end CloudId
