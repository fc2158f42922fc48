import Mathlib.Algebra.BigOperators.Intervals
import Mathlib.Algebra.Order.BigOperators.Group.Finset
import Mathlib.Tactic.IntervalCases
import SupplyTrail.Calendar.Timestamp
/-!
# The Gregorian calendar — dates and the days before them

The calendar is given by the lengths of its months.  `Date.days` counts the days from the start of 1970 to a date: those
of the years before its year, of the months before its month and of the month.  Each number of days leads to one date,
and `dateOfDay` finds it (`dateOfDay_eq_iff`).

The count is compared with one of years from March to February, whose leap day comes last: what is before a year is then
a sum of quotients of its number (`daysToMarch`), and from March on the lengths of the months are spread evenly.
-/
namespace SupplyTrail.Calendar

def IsLeap (year : Nat) : Prop := 4 ∣ year ∧ (100 ∣ year → 400 ∣ year)

instance (year : Nat) : Decidable (IsLeap year) := inferInstanceAs (Decidable (_ ∧ _))

def monthLength (year month : Nat) : Nat :=
  if month = 2 then if IsLeap year then 29 else 28
  else if month ∈ [4, 6, 9, 11] then 30 else 31

def yearLength (year : Nat) : Nat := ∑ month ∈ Finset.Ico 1 13, monthLength year month

/-- A date of the calendar, from the year 1970 on. -/
structure Date.Valid (d : Date) : Prop where
  year : 1970 ≤ d.year
  month : 1 ≤ d.month ∧ d.month ≤ 12
  day : 1 ≤ d.day ∧ d.day ≤ monthLength d.year d.month

/-- The days from the start of 1970 to a date. -/
def Date.days (d : Date) : Nat :=
  ∑ year ∈ Finset.Ico 1970 d.year, yearLength year + ∑ month ∈ Finset.Ico 1 d.month, monthLength d.year month +
    (d.day - 1)

theorem monthLength_le (year month : Nat) : monthLength year month ≤ 31 := by
  unfold monthLength
  split
  · split <;> decide
  · split <;> decide

theorem monthLength_january (year : Nat) : monthLength year 1 = 31 := rfl

theorem yearLength_eq (year : Nat) : yearLength year = if IsLeap year then 366 else 365 := by
  unfold yearLength
  by_cases h : IsLeap year <;> simp [Finset.sum_Ico_succ_top, monthLength, h]

theorem yearLength_le (year : Nat) : yearLength year ≤ 366 := by
  rw [yearLength_eq]
  split <;> decide

theorem monthLength_february (year : Nat) : monthLength year 2 + 337 = yearLength year := by
  rw [yearLength_eq, monthLength, if_pos rfl]
  split <;> rfl

/-! ## Years from March to February -/

/-- The days of so many years from March to February, the first of which begins in the year 0. -/
def daysToMarch (years : Nat) : Nat := 365 * years + years / 4 - years / 100 + years / 400

theorem daysToMarch_succ (year : Nat) : daysToMarch (year + 1) = daysToMarch year + yearLength (year + 1) := by
  have hera : 400 ∣ year + 1 → 100 ∣ year + 1 := Nat.dvd_trans (by decide)
  have hcentury : 100 ∣ year + 1 → 4 ∣ year + 1 := Nat.dvd_trans (by decide)
  have hle : year / 100 ≤ year / 4 := Nat.div_le_div_left (by decide) (by decide)
  -- Each quotient grows by one where its divisor divides the year; the three divisors divide one another.
  rw [yearLength_eq, daysToMarch, daysToMarch, Nat.succ_div, Nat.succ_div, Nat.succ_div]
  by_cases h400 : 400 ∣ year + 1
  · rw [if_pos h400, if_pos (hera h400), if_pos (hcentury (hera h400)),
      if_pos (show IsLeap _ from ⟨hcentury (hera h400), fun _ => h400⟩)]
    omega
  · by_cases h100 : 100 ∣ year + 1
    · rw [if_neg h400, if_pos h100, if_pos (hcentury h100), if_neg fun hleap : IsLeap _ => h400 (hleap.2 h100)]
      omega
    · by_cases h4 : 4 ∣ year + 1
      · rw [if_neg h400, if_neg h100, if_pos h4, if_pos (show IsLeap _ from ⟨h4, fun h => absurd h h100⟩)]
        omega
      · rw [if_neg h400, if_neg h100, if_neg h4, if_neg fun hleap : IsLeap _ => h4 hleap.1]
        omega

theorem daysToMarch_mono : Monotone daysToMarch :=
  monotone_nat_of_le_succ fun year => daysToMarch_succ year ▸ Nat.le_add_right _ _

theorem sum_yearLength {year : Nat} (h : 1969 ≤ year) :
    ∑ y ∈ Finset.Ico 1970 (year + 1), yearLength y + epochDay = daysToMarch year + 306 := by
  induction year, h using Nat.le_induction with
  | base =>
    rw [Finset.Ico_self, Finset.sum_empty]
    rfl
  | succ year h ih =>
    rw [Finset.sum_Ico_succ_top (by omega), daysToMarch_succ]
    omega

/-- From March on, five months have 153 days. -/
theorem monthLength_march (year : Nat) {month : Nat} (h : month < 10) :
    (153 * month + 2) / 5 + monthLength year (month + 3) = (153 * (month + 1) + 2) / 5 := by
  unfold monthLength
  rw [if_neg (by omega)]
  interval_cases month <;> rfl

theorem sum_monthLength (year : Nat) {month : Nat} (h : month < 10) :
    ∑ m ∈ Finset.Ico 1 (month + 3), monthLength year m + 306 = yearLength year + (153 * month + 2) / 5 := by
  induction month with
  | zero =>
    have hfebruary := monthLength_february year
    rw [Finset.sum_Ico_succ_top (by decide), Finset.sum_Ico_succ_top (by decide), Finset.Ico_self, Finset.sum_empty,
      monthLength_january]
    omega
  | succ month ih =>
    have hmonth := monthLength_march year (show month < 10 by omega)
    rw [Finset.sum_Ico_succ_top (by omega)]
    omega

variable {year month day dayOfYear : Nat}

theorem days_january (h : 1969 ≤ year) :
    Date.days ⟨year + 1, 1, day⟩ + epochDay = daysToMarch year + 306 + (day - 1) := by
  have hyears := sum_yearLength h
  simp only [Date.days, Finset.Ico_self, Finset.sum_empty]
  omega

theorem days_february (h : 1969 ≤ year) :
    Date.days ⟨year + 1, 2, day⟩ + epochDay = daysToMarch year + 337 + (day - 1) := by
  have hyears := sum_yearLength h
  have hjanuary : ∑ m ∈ Finset.Ico 1 2, monthLength (year + 1) m = 31 := by
    rw [Finset.sum_Ico_succ_top (by decide), Finset.Ico_self, Finset.sum_empty, monthLength_january]
  simp only [Date.days, hjanuary]
  omega

theorem days_march (h : 1970 ≤ year) (hmonth : month < 10) :
    Date.days ⟨year, month + 3, day⟩ + epochDay = daysToMarch year + (153 * month + 2) / 5 + (day - 1) := by
  obtain ⟨before, rfl⟩ := Nat.exists_eq_add_of_le' (show 1 ≤ year by omega)
  have hyears := sum_yearLength (show 1969 ≤ before by omega)
  have hmonths := sum_monthLength (before + 1) hmonth
  have hsucc := daysToMarch_succ before
  simp only [Date.days]
  omega

/-- The date of a day of a year from March to February. -/
def marchDate (year dayOfYear : Nat) : Date :=
  let marchMonth := (5 * dayOfYear + 2) / 153
  let month := if marchMonth < 10 then marchMonth + 3 else marchMonth - 9
  ⟨year + (if month ≤ 2 then 1 else 0), month, dayOfYear - (153 * marchMonth + 2) / 5 + 1⟩

theorem marchDate_of_lt (hmonth : (5 * dayOfYear + 2) / 153 = month) (h : month < 10) :
    marchDate year dayOfYear = ⟨year, month + 3, dayOfYear - (153 * month + 2) / 5 + 1⟩ := by
  have hlate : ¬ month + 3 ≤ 2 := by omega
  simp only [marchDate, hmonth, h, if_true, hlate, if_false, Nat.add_zero]

theorem marchDate_january (hmonth : (5 * dayOfYear + 2) / 153 = 10) :
    marchDate year dayOfYear = ⟨year + 1, 1, dayOfYear - 306 + 1⟩ := by
  rw [marchDate, hmonth]
  rfl

theorem marchDate_february (hmonth : (5 * dayOfYear + 2) / 153 = 11) :
    marchDate year dayOfYear = ⟨year + 1, 2, dayOfYear - 337 + 1⟩ := by
  rw [marchDate, hmonth]
  rfl

/-- **A day of a year from March to February has a date**, and the days to that date are those to the day. -/
theorem days_marchDate (hday : dayOfYear < yearLength (year + 1)) (hepoch : epochDay ≤ daysToMarch year + dayOfYear) :
    (marchDate year dayOfYear).Valid ∧ (marchDate year dayOfYear).days + epochDay = daysToMarch year + dayOfYear := by
  have hlast : daysToMarch 1969 + 306 = epochDay := rfl
  have hyear : 1969 ≤ year := by
    by_contra hless
    have hmono : daysToMarch (year + 1) ≤ daysToMarch 1969 := daysToMarch_mono (by omega)
    rw [daysToMarch_succ] at hmono
    omega
  have hle := yearLength_le (year + 1)
  have hcase : (5 * dayOfYear + 2) / 153 < 10 ∨ (5 * dayOfYear + 2) / 153 = 10 ∨ (5 * dayOfYear + 2) / 153 = 11 := by
    omega
  rcases hcase with hmonth | hmonth | hmonth
  · -- The year 1969 counts from its January on only.
    have hne : year ≠ 1969 := by
      rintro rfl
      omega
    have hepochYear : 1970 ≤ year := by omega
    have hlength := monthLength_march year hmonth
    generalize hm : (5 * dayOfYear + 2) / 153 = month at hmonth hlength
    rw [marchDate_of_lt hm hmonth, days_march hepochYear hmonth]
    refine ⟨⟨hepochYear, ?_, ?_⟩, by omega⟩ <;> constructor <;> simp only <;> omega
  · have hjanuary := monthLength_january (year + 1)
    rw [marchDate_january hmonth, days_january hyear]
    refine ⟨⟨Nat.succ_le_succ hyear, ?_, ?_⟩, by omega⟩ <;> constructor <;> simp only <;> omega
  · have hfebruary := monthLength_february (year + 1)
    rw [marchDate_february hmonth, days_february hyear]
    refine ⟨⟨Nat.succ_le_succ hyear, ?_, ?_⟩, by omega⟩ <;> constructor <;> simp only <;> omega

/-! ## Eras of four hundred years -/

/-- A day of an era as a day of a year, of a cycle of four years, of a century.  A year has a day 365 only if it is the
last of its cycle, and the last cycle of a century has one only in the last century. -/
structure EraParts (dayOfEra century cycle year day : Nat) : Prop where
  century_lt : century < 4
  cycle_lt : cycle < 25
  year_lt : year < 4
  day_le : day ≤ 365
  leap : day = 365 → year = 3 ∧ (cycle = 24 → century = 3)
  sum : dayOfEra = 36524 * century + 1461 * cycle + 365 * year + day

theorem exists_eraParts {dayOfEra : Nat} (h : dayOfEra < daysPerEra) :
    ∃ century cycle year day, EraParts dayOfEra century cycle year day := by
  unfold daysPerEra at h
  obtain ⟨century, rest, hcentury, hrest, hsum, hlast⟩ : ∃ century rest, century < 4 ∧ rest ≤ 36524 ∧
      dayOfEra = 36524 * century + rest ∧ (rest = 36524 → century = 3) := by
    by_cases hlast : dayOfEra = 146096
    · exact ⟨3, 36524, by omega, by omega, by omega, by omega⟩
    · exact ⟨dayOfEra / 36524, dayOfEra % 36524, by omega, by omega, by omega, by omega⟩
  obtain ⟨year, day, hyear, hday, hcycle, hleap⟩ : ∃ year day, year < 4 ∧ day ≤ 365 ∧
      rest % 1461 = 365 * year + day ∧ (day = 365 → year = 3) := by
    by_cases hlast : rest % 1461 = 1460
    · exact ⟨3, 365, by omega, by omega, by omega, by omega⟩
    · exact ⟨rest % 1461 / 365, rest % 1461 % 365, by omega, by omega, by omega, by omega⟩
  exact ⟨century, rest / 1461, year, day, by omega, by omega, by omega, by omega, by omega, by omega⟩

/-- The year of an era in which a day of the era is. -/
def yearOfEra (dayOfEra : Nat) : Nat := (dayOfEra - dayOfEra / 1460 + dayOfEra / 36524 - dayOfEra / 146096) / 365

variable {dayOfEra century cycle : Nat}

theorem yearOfEra_eq (h : EraParts dayOfEra century cycle year day) :
    yearOfEra dayOfEra = 100 * century + 4 * cycle + year := by
  obtain ⟨hcentury, hcycle, hyear, hday, hleap, hsum⟩ := h
  unfold yearOfEra
  by_cases hlast : dayOfEra = 146096
  · have hparts : century = 3 ∧ cycle = 24 ∧ year = 3 := by omega
    obtain ⟨rfl, rfl, rfl⟩ := hparts
    rw [hlast]
  · have hcenturies : dayOfEra / 36524 = century := by omega
    have heras : dayOfEra / 146096 = 0 := by omega
    rw [hcenturies, heras]
    -- A cycle has a day more than 1460, so late in a century the quotient is ahead of the number of cycles.
    by_cases hlate : 1460 ≤ 24 * century + cycle + 365 * year + day
    · have hcycles : dayOfEra / 1460 = 25 * century + cycle + 1 := by omega
      rw [hcycles]
      omega
    · have hcycles : dayOfEra / 1460 = 25 * century + cycle := by omega
      rw [hcycles]
      omega

theorem daysToMarch_yearOfEra (h : EraParts dayOfEra century cycle year day) :
    daysToMarch (yearOfEra dayOfEra) + day = dayOfEra ∧ day < yearLength (yearOfEra dayOfEra + 1) := by
  rw [yearOfEra_eq h]
  obtain ⟨hcentury, hcycle, hyear, hday, hleap, hsum⟩ := h
  constructor
  · have hcycles : (100 * century + 4 * cycle + year) / 4 = 25 * century + cycle := by omega
    have hcenturies : (100 * century + 4 * cycle + year) / 100 = century := by omega
    have heras : (100 * century + 4 * cycle + year) / 400 = 0 := by omega
    rw [daysToMarch, hcycles, hcenturies, heras]
    omega
  · rw [yearLength_eq]
    by_cases hlast : day = 365
    · have hyears : IsLeap (100 * century + 4 * cycle + year + 1) := by
        unfold IsLeap
        omega
      rw [if_pos hyears]
      omega
    · split <;> omega

theorem daysToMarch_era (era year : Nat) : daysToMarch (year + 400 * era) = daysToMarch year + daysPerEra * era := by
  unfold daysToMarch daysPerEra
  omega

theorem yearLength_era (era year : Nat) : yearLength (year + 400 * era) = yearLength year := by
  have hleap : IsLeap (year + 400 * era) ↔ IsLeap year := by
    unfold IsLeap
    omega
  rw [yearLength_eq, yearLength_eq, if_congr hleap rfl rfl]

/-! ## Days and dates -/

theorem dateOfDay_eq {days : Nat} (h : EraParts ((days + epochDay) % daysPerEra) century cycle year day) :
    dateOfDay days =
      marchDate (yearOfEra ((days + epochDay) % daysPerEra) + 400 * ((days + epochDay) / daysPerEra)) day := by
  have hto := (daysToMarch_yearOfEra h).1
  have hyear : yearOfEra ((days + epochDay) % daysPerEra) < 400 := by
    have hcentury := h.century_lt
    have hcycle := h.cycle_lt
    have hyear := h.year_lt
    rw [yearOfEra_eq h]
    omega
  generalize hera : (days + epochDay) % daysPerEra = dayOfEra at hto hyear
  rw [daysToMarch, Nat.div_eq_of_lt hyear] at hto
  have hday : dayOfEra - (365 * yearOfEra dayOfEra + yearOfEra dayOfEra / 4 - yearOfEra dayOfEra / 100) = day := by
    omega
  rw [← hday]
  simp only [dateOfDay, hera]
  rfl

/-- The date of a day is a date of the calendar, and the days to it are those to the day. -/
theorem days_dateOfDay (days : Nat) : (dateOfDay days).Valid ∧ (dateOfDay days).days = days := by
  obtain ⟨century, cycle, year, day, hparts⟩ :=
    exists_eraParts (Nat.mod_lt (days + epochDay) (show 0 < daysPerEra by decide))
  obtain ⟨hto, hday⟩ := daysToMarch_yearOfEra hparts
  have hsplit := Nat.mod_add_div (days + epochDay) daysPerEra
  rw [dateOfDay_eq hparts]
  generalize (days + epochDay) % daysPerEra = dayOfEra at *
  generalize (days + epochDay) / daysPerEra = era at *
  have hsum : daysToMarch (yearOfEra dayOfEra + 400 * era) + day = days + epochDay := by
    rw [daysToMarch_era]
    omega
  have hlength : day < yearLength (yearOfEra dayOfEra + 400 * era + 1) := by
    rwa [Nat.add_right_comm, yearLength_era]
  obtain ⟨hvalid, hdays⟩ := days_marchDate hlength (by omega)
  exact ⟨hvalid, by omega⟩

/-- One date is before another: in an earlier year, in an earlier month of its year, or on an earlier day of its
month. -/
def Date.Before (d e : Date) : Prop :=
  d.year < e.year ∨ d.year = e.year ∧ (d.month < e.month ∨ d.month = e.month ∧ d.day < e.day)

theorem Date.before_trichotomy (d e : Date) : d.Before e ∨ d = e ∨ e.Before d := by
  obtain ⟨y, m, k⟩ := d
  obtain ⟨y', m', k'⟩ := e
  simp only [Date.Before, Date.mk.injEq]
  omega

theorem sum_Ico_succ_le (f : Nat → Nat) (first : Nat) {i last : Nat} (h : i < last) :
    ∑ k ∈ Finset.Ico first (i + 1), f k ≤ ∑ k ∈ Finset.Ico first last, f k :=
  Finset.sum_le_sum_of_subset (Finset.Ico_subset_Ico_right h)

/-- **More days go before a later date.** -/
theorem Date.Before.days_lt {d e : Date} (h : d.Before e) (hd : d.Valid) (he : e.Valid) : d.days < e.days := by
  have hday := hd.day
  have hday' := he.day
  have hmonths := Finset.sum_Ico_succ_top hd.month.1 (monthLength d.year)
  unfold Date.days
  rcases h with hyear | ⟨hyear, hmonth | ⟨hmonth, hlt⟩⟩
  · have hyears := Finset.sum_Ico_succ_top hd.year yearLength
    have hrest : ∑ month ∈ Finset.Ico 1 (d.month + 1), monthLength d.year month ≤ yearLength d.year :=
      sum_Ico_succ_le _ 1 (Nat.lt_succ_of_le hd.month.2)
    have hmore := sum_Ico_succ_le yearLength 1970 hyear
    omega
  · have hmore := sum_Ico_succ_le (monthLength d.year) 1 hmonth
    rw [← hyear]
    omega
  · rw [← hyear, ← hmonth]
    omega

theorem Date.days_lt_iff {d e : Date} (hd : d.Valid) (he : e.Valid) : d.days < e.days ↔ d.Before e := by
  refine ⟨fun hlt => ?_, fun hbefore => hbefore.days_lt hd he⟩
  rcases before_trichotomy d e with hbefore | rfl | hafter
  · exact hbefore
  · exact absurd hlt (Nat.lt_irrefl _)
  · exact absurd hlt (Nat.lt_asymm (hafter.days_lt he hd))

/-- **A day has one date of the calendar**, and it is found. -/
theorem dateOfDay_eq_iff {days : Nat} {d : Date} : dateOfDay days = d ↔ d.Valid ∧ d.days = days := by
  obtain ⟨hvalid, hdays⟩ := days_dateOfDay days
  constructor
  · rintro rfl
    exact ⟨hvalid, hdays⟩
  · rintro ⟨hd, rfl⟩
    rcases Date.before_trichotomy (dateOfDay d.days) d with hbefore | heq | hafter
    · exact absurd hdays (Nat.ne_of_lt (hbefore.days_lt hvalid hd))
    · exact heq
    · exact absurd hdays (Nat.ne_of_gt (hafter.days_lt hd hvalid))

example : dateOfDay 11016 = ⟨2000, 2, 29⟩ ∧ dateOfDay 47540 = ⟨2100, 2, 28⟩ ∧ dateOfDay 47541 = ⟨2100, 3, 1⟩ := by
  decide

end SupplyTrail.Calendar
