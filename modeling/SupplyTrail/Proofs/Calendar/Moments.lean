import SupplyTrail.Proofs.Calendar.Gregorian
import SupplyTrail.Proofs.Text.Rows
/-!
# Moments — times as they are shown

A moment is a date and a time of the day; each number of seconds since the start of 1970 leads to one (`momentOf_eq_iff`).
A time is shown by its moment, or as a plain number if its year is beyond the last one (`format_eq_iff`).  No two times
are shown alike, and before the year 10000, where every field has a fixed width, what is shown is ordered as the times
are (`timeShown`).

How moments are found and written matters for none of this: an `Almanac` is anything that finds and writes them, and
every almanac shows the same.
-/
namespace SupplyTrail.Calendar

structure Moment where
  date : Date
  hour : Nat
  minute : Nat
  second : Nat

namespace Moment

structure Valid (m : Moment) : Prop where
  date : m.date.Valid
  hour : m.hour < 24
  minute : m.minute < 60
  second : m.second < 60

/-- The seconds from the start of 1970 to a moment. -/
def seconds (m : Moment) : Nat := ((m.date.days * 24 + m.hour) * 60 + m.minute) * 60 + m.second

def fields (m : Moment) : List Nat := [m.date.year, m.date.month, m.date.day, m.hour, m.minute, m.second]

end Moment

def momentOf (time : Nat) : Moment :=
  ⟨dateOfDay (time / 86400), time % 86400 / 3600, time % 86400 / 60 % 60, time % 86400 % 60⟩

/-- The time at which a year begins. -/
def startOf (year : Nat) : Nat := Moment.seconds ⟨⟨year, 1, 1⟩, 0, 0, 0⟩

variable {m m' : Moment} {time time' year : Nat}

/-- **A time has one moment**, and it is found. -/
theorem momentOf_eq_iff : momentOf time = m ↔ m.Valid ∧ m.seconds = time := by
  constructor
  · rintro rfl
    obtain ⟨hvalid, hdays⟩ := days_dateOfDay (time / 86400)
    refine ⟨⟨hvalid, ?_, ?_, ?_⟩, ?_⟩ <;> simp only [momentOf, Moment.seconds, hdays] <;> omega
  · obtain ⟨date, hour, minute, second⟩ := m
    rintro ⟨⟨hdate, hhour, hminute, hsecond⟩, rfl⟩
    simp only at hhour hminute hsecond
    simp only [Moment.seconds, momentOf, Moment.mk.injEq]
    refine ⟨dateOfDay_eq_iff.2 ⟨hdate, ?_⟩, ?_, ?_, ?_⟩ <;> omega

theorem Moment.eq_of_fields (h : m.fields = m'.fields) : m = m' := by
  obtain ⟨⟨year, month, day⟩, hour, minute, second⟩ := m
  obtain ⟨⟨year', month', day'⟩, hour', minute', second'⟩ := m'
  simpa [fields, and_assoc] using h

/-- Of two moments, the earlier one has the lesser number in the first field in which they differ. -/
theorem Moment.fields_lt (hm : m.Valid) (hm' : m'.Valid) (h : m.seconds < m'.seconds) : m.fields < m'.fields := by
  have hhour := hm'.hour
  have hminute := hm'.minute
  have hsecond := hm'.second
  unfold seconds at h
  simp only [fields, List.cons_lt_cons_iff, List.lt_irrefl, and_false, or_false]
  rcases Date.before_trichotomy m.date m'.date with hbefore | hsame | hafter
  · unfold Date.Before at hbefore
    omega
  · rw [hsame] at h ⊢
    omega
  · have hdays := hafter.days_lt hm'.date hm.date
    omega

theorem startOf_eq_days (year : Nat) : startOf year = Date.days ⟨year, 1, 1⟩ * 86400 := by
  simp only [startOf, Moment.seconds, Nat.add_zero, Nat.mul_assoc]

theorem startOf_eq (h : 1969 ≤ year) : startOf (year + 1) = (daysToMarch year + 306 - epochDay) * 86400 := by
  have hdays : Date.days ⟨year + 1, 1, 1⟩ + epochDay = daysToMarch year + 306 := days_january h
  rw [startOf_eq_days, ← hdays, Nat.add_sub_cancel]

example : startOf 10000 = 253402300800 := (startOf_eq (by decide)).trans rfl

/-- A moment is before the start of a year exactly if it is in an earlier year. -/
theorem seconds_lt_startOf_iff (hm : m.Valid) (h : 1970 ≤ year) : m.seconds < startOf year ↔ m.date.year < year := by
  have hfirst : Date.Valid ⟨year, 1, 1⟩ := ⟨h, by simp, by simp [monthLength_january]⟩
  have hhour := hm.hour
  have hminute := hm.minute
  have hsecond := hm.second
  have hmonth := hm.date.month
  have hday := hm.date.day
  have hdays : m.seconds < startOf year ↔ m.date.days < Date.days ⟨year, 1, 1⟩ := by
    rw [startOf_eq_days, Moment.seconds]
    omega
  rw [hdays, Date.days_lt_iff hm.date hfirst]
  simp only [Date.Before]
  omega

/-! ## Texts of moments -/

/-- The columns of a date and time: `YYYY-MM-DDTHH:MM:SS+` if the year has four digits. -/
def columns (yearWidth : Nat) : List (Nat × Char) :=
  [(yearWidth, '-'), (2, '-'), (2, 'T'), (2, ':'), (2, ':'), (2, '+')]

/-- What follows the plus: the offset of UTC. -/
def offset : List Char := "00:00".toList

/-- The text of a moment: its year has four digits, or a sign and five or six digits. -/
inductive Moment.Written (m : Moment) : List Char → Prop
  | fourDigits {text : List Char} (hyear : m.date.year < 10 ^ 4) (h : Text.Row offset (columns 4) m.fields text) :
      Written m text
  | signed {width : Nat} {text : List Char} (hwidth : width = 4 ∨ width = 5)
      (hyear : 10 ^ width ≤ m.date.year ∧ m.date.year < 10 ^ (width + 1))
      (h : Text.Row offset (columns (width + 1)) m.fields text) : Written m ('+' :: text)

theorem row_columns {width : Nat} (hvalid : m.Valid) (hpos : 0 < width) (hyear : m.date.year < 10 ^ width) :
    Text.Row offset (columns width) m.fields
      (Text.decimalPadded width m.date.year ++ '-' :: (Text.decimalPadded 2 m.date.month ++ '-' ::
        (Text.decimalPadded 2 m.date.day ++ 'T' :: (Text.decimalPadded 2 m.hour ++ ':' ::
          (Text.decimalPadded 2 m.minute ++ ':' :: (Text.decimalPadded 2 m.second ++ '+' :: offset)))))) := by
  have hfield : ∀ n, n < 100 → Text.Field 2 n (Text.decimalPadded 2 n) := fun n h =>
    (Text.field_iff (by decide)).2 ⟨h, rfl⟩
  have hmonth := hvalid.date.month.2
  have hday := Nat.le_trans hvalid.date.day.2 (monthLength_le _ _)
  have hhour := hvalid.hour
  have hminute := hvalid.minute
  have hsecond := hvalid.second
  exact .cons ((Text.field_iff hpos).2 ⟨hyear, rfl⟩) (.cons (hfield _ (by omega)) (.cons (hfield _ (by omega))
    (.cons (hfield _ (by omega)) (.cons (hfield _ (by omega)) (.cons (hfield _ (by omega)) .nil)))))

theorem dateTimeChars_eq (hvalid : m.Valid) : dateTimeChars m.seconds =
    yearChars m.date.year ++ '-' :: (Text.decimalPadded 2 m.date.month ++ '-' :: (Text.decimalPadded 2 m.date.day ++
      'T' :: (Text.decimalPadded 2 m.hour ++ ':' :: (Text.decimalPadded 2 m.minute ++ ':' ::
        (Text.decimalPadded 2 m.second ++ '+' :: offset))))) := by
  have hmoment : m = momentOf m.seconds := (momentOf_eq_iff.2 ⟨hvalid, rfl⟩).symm
  generalize m.seconds = time at hmoment
  rw [hmoment]
  simp only [dateTimeChars, List.append_assoc, List.cons_append]
  rfl

theorem written_dateTimeChars (hvalid : m.Valid) (hyear : m.date.year ≤ lastYear) :
    m.Written (dateTimeChars m.seconds) := by
  have hmost : m.date.year < 10 ^ 6 := Nat.lt_of_le_of_lt hyear (by decide)
  rw [dateTimeChars_eq hvalid, yearChars]
  by_cases hfour : m.date.year < 10000
  · rw [if_pos hfour]
    exact .fourDigits hfour (row_columns hvalid (by decide) hfour)
  · rw [if_neg hfour, List.cons_append]
    by_cases hfive : m.date.year < 10 ^ 5
    · rw [Text.decimalChars_eq_decimalPadded (Nat.not_lt.1 hfour) hfive]
      exact .signed (.inl rfl) ⟨Nat.not_lt.1 hfour, hfive⟩ (row_columns hvalid (by decide) hfive)
    · rw [Text.decimalChars_eq_decimalPadded (Nat.not_lt.1 hfive) hmost]
      exact .signed (.inr rfl) ⟨Nat.not_lt.1 hfive, hmost⟩ (row_columns hvalid (by decide) hmost)

variable {text text' : List Char}

theorem Moment.Written.text_eq (h : m.Written text) (h' : m.Written text') : text = text' := by
  cases h with
  | fourDigits hyear h =>
    cases h' with
    | fourDigits _ h' => exact h.text_eq h'
    | signed hwidth hyear' _ => rcases hwidth with rfl | rfl <;> omega
  | signed hwidth hyear h =>
    cases h' with
    | fourDigits hyear' _ => rcases hwidth with rfl | rfl <;> omega
    | signed hwidth' hyear' h' =>
      rcases hwidth with rfl | rfl <;> rcases hwidth' with rfl | rfl
      · rw [h.text_eq h']
      · omega
      · omega
      · rw [h.text_eq h']

theorem eq_of_columns {width width' : Nat} (h : Text.Row offset (columns width) m.fields text)
    (h' : Text.Row offset (columns width') m'.fields text) : m = m' :=
  Moment.eq_of_fields (h.numbers_eq h' rfl (by simp [columns]; decide) rfl)

/-- **A moment can be read off its text**: a row begins with a digit, so a sign is not taken for one. -/
theorem Moment.Written.moment_eq (h : m.Written text) (h' : m'.Written text) : m = m' := by
  cases h with
  | fourDigits _ h =>
    cases h' with
    | fourDigits _ h' => exact eq_of_columns h h'
    | signed _ _ h' => exact absurd (h.isDigit_head '+' rfl) (by decide)
  | signed _ _ h =>
    cases h' with
    | fourDigits _ h' => exact absurd (h'.isDigit_head '+' rfl) (by decide)
    | signed _ _ h' => exact eq_of_columns h h'

theorem Moment.Written.ne_decimalChars (h : m.Written text) (n : Nat) : text ≠ Text.decimalChars n := by
  have hmark : '-' ∈ text := by
    cases h with
    | fourDigits _ h => exact h.mark_mem
    | signed _ _ h => exact List.mem_cons_of_mem _ h.mark_mem
  rintro rfl
  exact absurd (Text.isDigit_of_mem_decimalChars hmark) (by decide)

/-! ## Texts of times -/

/-- What is shown of a time: its moment, or beyond the last year a plain number. -/
inductive Shown (time : Nat) : String → Prop
  | dated {m : Moment} {text : List Char} (hvalid : m.Valid) (hseconds : m.seconds = time)
      (hyear : m.date.year ≤ lastYear) (h : m.Written text) : Shown time (.ofList text)
  | number (h : startOf (lastYear + 1) ≤ time) : Shown time (Text.decimal time)

variable {shown shown' : String}

theorem year_le_lastYear_iff (hvalid : m.Valid) : m.date.year ≤ lastYear ↔ ¬ startOf (lastYear + 1) ≤ m.seconds := by
  rw [Nat.not_le, seconds_lt_startOf_iff hvalid (by decide), Nat.lt_succ_iff]

theorem Shown.text_eq (h : Shown time shown) (h' : Shown time shown') : shown = shown' := by
  cases h with
  | dated hvalid hseconds hyear h =>
    cases h' with
    | dated hvalid' hseconds' _ h' =>
      have hmoment := (momentOf_eq_iff.2 ⟨hvalid, hseconds⟩).symm.trans (momentOf_eq_iff.2 ⟨hvalid', hseconds'⟩)
      subst hmoment
      rw [h.text_eq h']
    | number hlate => exact absurd (hseconds.symm ▸ hlate) ((year_le_lastYear_iff hvalid).1 hyear)
  | number hlate =>
    cases h' with
    | dated hvalid hseconds hyear _ => exact absurd (hseconds.symm ▸ hlate) ((year_le_lastYear_iff hvalid).1 hyear)
    | number => rfl

/-- **No two times are shown alike.** -/
theorem Shown.time_eq (h : Shown time shown) (h' : Shown time' shown') (heq : shown = shown') : time = time' := by
  cases h with
  | dated _ hseconds _ h =>
    cases h' with
    | dated _ hseconds' _ h' =>
      obtain rfl := String.ofList_inj.1 heq
      rw [← hseconds, ← hseconds', h.moment_eq h']
    | number => exact absurd (String.ofList_inj.1 heq) (h.ne_decimalChars time')
  | number =>
    cases h' with
    | dated _ _ _ h' => exact absurd (String.ofList_inj.1 heq).symm (h'.ne_decimalChars time)
    | number => rw [← Text.ofDigits_decimalChars time, String.ofList_inj.1 heq, Text.ofDigits_decimalChars]

theorem shown_format (time : UInt64) : Shown time.toNat (format time) := by
  obtain ⟨hvalid, hseconds⟩ := momentOf_eq_iff.1 (rfl : momentOf time.toNat = _)
  have hiff := year_le_lastYear_iff hvalid
  rw [hseconds] at hiff
  unfold format
  split
  · next hyear =>
    have hwritten := written_dateTimeChars hvalid hyear
    rw [hseconds] at hwritten
    exact .dated hvalid hseconds hyear hwritten
  · next hyear => exact .number (Decidable.not_not.1 (mt hiff.2 hyear))

/-- **A time is shown in one way.** -/
theorem format_eq_iff {time : UInt64} : format time = shown ↔ Shown time.toNat shown :=
  ⟨fun h => h ▸ shown_format time, (shown_format time).text_eq⟩

/-! ## Almanacs -/

/-- A calendar that finds the moments of the times up to the last year, and of no later ones, and writes moments. -/
structure Almanac where
  moment? : Nat → Option Moment
  write : Moment → String
  found : ∀ time m, moment? time = some m ↔ m.Valid ∧ m.seconds = time ∧ m.date.year ≤ lastYear
  written : ∀ m, m.Valid → m.date.year ≤ lastYear → ∃ text, m.Written text ∧ write m = .ofList text

theorem momentOf_found (time : Nat) (m : Moment) :
    (if (momentOf time).date.year ≤ lastYear then some (momentOf time) else none) = some m ↔
      m.Valid ∧ m.seconds = time ∧ m.date.year ≤ lastYear := by
  rw [← and_assoc, ← momentOf_eq_iff]
  constructor
  · intro h
    split at h
    · next hyear =>
      obtain rfl := Option.some.inj h
      exact ⟨rfl, hyear⟩
    · cases h
  · rintro ⟨rfl, hyear⟩
    rw [if_pos hyear]

instance : Inhabited Almanac where
  default := {
    moment? := fun time => if (momentOf time).date.year ≤ lastYear then some (momentOf time) else none
    write := fun m => .ofList (dateTimeChars m.seconds)
    found := momentOf_found
    written := fun _ hvalid hyear => ⟨_, written_dateTimeChars hvalid hyear, rfl⟩ }

/-- What is shown of a time by an almanac.  It is asked for times that are signed words of 64 bits, and a time of which
it finds no moment is shown as a plain number. -/
def Almanac.display (a : Almanac) (time : UInt64) : String :=
  match if time.toNat < 2 ^ 63 then a.moment? time.toNat else none with
  | some m => a.write m
  | none => Text.decimal time.toNat

theorem Almanac.shown_display (a : Almanac) (time : UInt64) : Shown time.toNat (a.display time) := by
  have hlast : startOf (lastYear + 1) = 8210266876800 := (startOf_eq (by decide)).trans rfl
  unfold display
  split
  · next m hfound =>
    split at hfound
    · obtain ⟨hvalid, hseconds, hyear⟩ := (a.found _ _).1 hfound
      obtain ⟨text, hwritten, htext⟩ := a.written m hvalid hyear
      rw [htext]
      exact .dated hvalid hseconds hyear hwritten
    · cases hfound
  · next hnone =>
    refine .number ?_
    by_contra hearly
    have hsigned : time.toNat < 2 ^ 63 := by omega
    obtain ⟨hvalid, hseconds⟩ := momentOf_eq_iff.1 (rfl : momentOf time.toNat = _)
    have hyear := (year_le_lastYear_iff hvalid).2 (hseconds.symm ▸ hearly)
    rw [if_pos hsigned, (a.found _ _).2 ⟨hvalid, hseconds, hyear⟩] at hnone
    cases hnone

/-! ## Times before the year 10000 -/

theorem row_of_lt {time : UInt64} (h : time.toNat < startOf 10000) : ∃ m : Moment, ∃ text, m.Valid ∧
    m.seconds = time.toNat ∧ Text.Row offset (columns 4) m.fields text ∧ format time = .ofList text := by
  obtain ⟨hvalid, hseconds⟩ := momentOf_eq_iff.1 (rfl : momentOf time.toNat = _)
  have hyear := (seconds_lt_startOf_iff hvalid (by decide : 1970 ≤ 10000)).1 (hseconds.symm ▸ h)
  have hrow := row_columns hvalid (by decide : 0 < 4) hyear
  refine ⟨_, _, hvalid, hseconds, hrow, format_eq_iff.2 ?_⟩
  exact .dated hvalid hseconds (Nat.le_of_lt (Nat.lt_of_lt_of_le hyear (by decide))) (.fourDigits hyear hrow)

theorem format_lt {time time' : UInt64} (h' : time'.toNat < startOf 10000) (hlt : time < time') :
    format time < format time' := by
  have hless : time.toNat < time'.toNat := UInt64.lt_iff_toNat_lt.1 hlt
  obtain ⟨m, text, hm, hseconds, hrow, hformat⟩ := row_of_lt (Nat.lt_trans hless h')
  obtain ⟨m', text', hm', hseconds', hrow', hformat'⟩ := row_of_lt h'
  rw [hformat, hformat', String.lt_iff, String.toList_ofList, String.toList_ofList]
  exact hrow.lt hrow' (Moment.fields_lt hm hm' (by rw [hseconds, hseconds']; exact hless))

/-- What is shown of a time. -/
structure TimeShown (time : UInt64) : Prop where
  shown : ∀ text, format time = text ↔ Shown time.toNat text
  /-- Every almanac shows the time so. -/
  any : ∀ a : Almanac, a.display time = format time
  unlike : ∀ time', format time = format time' ↔ time = time'
  /-- Up to the end of the year 9999 the text is a row of fields in the range of the calendar, and they are as many
  seconds after the start of 1970 as the time is. -/
  dated : time.toNat < startOf 10000 → ∃ m : Moment, ∃ text, m.Valid ∧ m.seconds = time.toNat ∧
    Text.Row offset (columns 4) m.fields text ∧ format time = .ofList text
  ordered : ∀ time', time.toNat < startOf 10000 → time'.toNat < startOf 10000 →
    (format time < format time' ↔ time < time')

/-- **A time is shown as its date and time of the day, and no other time is shown so.** -/
theorem timeShown (time : UInt64) : TimeShown time where
  shown := fun _ => format_eq_iff
  any := fun a => (format_eq_iff.2 (a.shown_display time)).symm
  unlike := by
    intro time'
    constructor
    · exact fun h => UInt64.toNat_inj.1 ((shown_format time).time_eq (shown_format time') h)
    · exact fun h => h ▸ rfl
  dated := row_of_lt
  ordered := by
    intro time' h h'
    constructor
    · intro hlt
      rcases Nat.lt_trichotomy time.toNat time'.toNat with hless | hsame | hmore
      · exact UInt64.lt_iff_toNat_lt.2 hless
      · rw [UInt64.toNat_inj.1 hsame] at hlt
        exact absurd hlt (String.lt_irrefl _)
      · exact absurd hlt (String.lt_asymm (format_lt h (UInt64.lt_iff_toNat_lt.2 hmore)))
    · exact format_lt h'

end SupplyTrail.Calendar
