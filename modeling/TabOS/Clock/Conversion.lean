import TabOS.Clock.WallClock

/-!
# The conversions of the wall clock

The words of the conversions are small enough that their arithmetic is that of the numbers: a date-time that is valid is one of the
calendar, its days are counted by the number of its date, and the days of an epoch second have the date of their number.
-/

namespace TabOS
namespace Clock

open Library

/-! ## Signed words -/

theorem toNat_sdiv_of_lt {w : Nat} {x y : BitVec w} (hx : 2 * x.toNat < 2 ^ w) (hy : 2 * y.toNat < 2 ^ w) :
    (x.sdiv y).toNat = x.toNat / y.toNat := by
  rw [BitVec.sdiv_eq, BitVec.msb_eq_false_iff_two_mul_lt.2 hx, BitVec.msb_eq_false_iff_two_mul_lt.2 hy]
  exact BitVec.toNat_udiv

theorem toNat_srem_of_lt {w : Nat} {x y : BitVec w} (hx : 2 * x.toNat < 2 ^ w) (hy : 2 * y.toNat < 2 ^ w) :
    (x.srem y).toNat = x.toNat % y.toNat := by
  rw [BitVec.srem_eq, BitVec.msb_eq_false_iff_two_mul_lt.2 hx, BitVec.msb_eq_false_iff_two_mul_lt.2 hy]
  exact BitVec.toNat_umod

theorem sle_of_lt {w : Nat} {x y : BitVec w} (hx : 2 * x.toNat < 2 ^ w) (hy : 2 * y.toNat < 2 ^ w) :
    x.sle y = decide (x.toNat ≤ y.toNat) := by
  unfold BitVec.sle
  rw [BitVec.toInt_eq_toNat_of_lt hx, BitVec.toInt_eq_toNat_of_lt hy]
  exact decide_eq_decide.2 Int.ofNat_le

/-- A word that is neither below a number that is not negative nor above another one is between them. -/
theorem not_slt_iff {w : Nat} {x low high : BitVec w} (hlow : 2 * low.toNat < 2 ^ w) (hhigh : 2 * high.toNat < 2 ^ w) :
    ¬(x.slt low = true ∨ high.slt x = true) ↔ low.toNat ≤ x.toNat ∧ x.toNat ≤ high.toNat := by
  rw [not_or, BitVec.slt_iff_toInt_lt, BitVec.slt_iff_toInt_lt, BitVec.toInt_eq_toNat_of_lt hlow, BitVec.toInt_eq_toNat_of_lt hhigh,
    BitVec.toInt_eq_toNat_cond]
  split <;> omega

/-! ## Months -/

theorem leapYear_iff {year : BitVec 32} (h : year.toNat ≤ 9999) : leapYear year = true ↔ LeapYear year.toNat := by
  have hfour : (year.srem 4).toNat = year.toNat % 4 := toNat_srem_of_lt (by omega) (by decide)
  have hcentury : (year.srem 100).toNat = year.toNat % 100 := toNat_srem_of_lt (by omega) (by decide)
  have hera : (year.srem 400).toNat = year.toNat % 400 := toNat_srem_of_lt (by omega) (by decide)
  unfold leapYear LeapYear
  rw [Bool.and_eq_true, Bool.or_eq_true, decide_eq_true_iff, decide_eq_true_iff, decide_eq_true_iff, ← BitVec.toNat_inj, ne_eq,
    ← BitVec.toNat_inj, ← BitVec.toNat_inj, hfour, hcentury, hera]
  exact Iff.rfl

theorem toNat_daysInMonth {year : BitVec 32} (h : year.toNat ≤ 9999) {month : BitVec 8} (hmonth : 0 < month.toNat ∧ month.toNat ≤ 12) :
    (daysInMonth year month).toNat = monthLength year.toNat month.toNat := by
  have hleap := leapYear_iff h
  have htwo : month = 2 ↔ month.toNat = 2 := BitVec.toNat_inj.symm
  unfold daysInMonth monthLength
  by_cases hfebruary : month.toNat = 2
  · rw [if_pos hfebruary]
    by_cases hyear : LeapYear year.toNat
    · rw [if_pos ⟨htwo.2 hfebruary, hleap.2 hyear⟩, if_pos hyear]
      rfl
    · rw [if_neg fun h => hyear (hleap.1 h.2), if_neg hyear, hfebruary]
      rfl
  · rw [if_neg fun h => hfebruary (htwo.1 h.1), if_neg hfebruary]
    rcases Date.month_cases hmonth with h | h | h | h | h | h | h | h | h | h | h | h <;> rw [h]
    case inr.inl => exact absurd h hfebruary
    all_goals rfl

/-! ## Valid date-times -/

/-- The date of a date-time; a negative year is none of the calendar. -/
def Datetime.date (datetime : Datetime) : Date := ⟨datetime.year.toInt.toNat, datetime.month.toNat, datetime.day.toNat⟩

/-- The time of a date-time is a time of a day, and the weekday one of a week. -/
structure Datetime.TimeValid (datetime : Datetime) : Prop where
  hour : datetime.hour.toNat < 24
  minute : datetime.minute.toNat < 60
  second : datetime.second.toNat < 60
  weekday : datetime.weekday.toNat < 7

/-- The date is one of the calendar, from 1970 to 9999. -/
structure InCalendar (d : Date) : Prop where
  dateExists : d.Exists
  year : 1970 ≤ d.year ∧ d.year ≤ 9999

theorem toNat_toInt_of_le {year : BitVec 32} (h : year.toNat ≤ 9999) : year.toInt.toNat = year.toNat := by
  rw [BitVec.toInt_eq_toNat_of_lt (by omega)]
  rfl

theorem toNat_of_toInt {year : BitVec 32} (h : 1970 ≤ year.toInt.toNat ∧ year.toInt.toNat ≤ 9999) :
    year.toInt.toNat = year.toNat := by
  rw [BitVec.toInt_eq_toNat_cond] at *
  split at h <;> omega

/-- A date-time is valid when its date exists in the calendar from 1970 to 9999, its time in a day and its weekday in a week. -/
theorem wallClockDatetimeValid_iff (datetime : Datetime) :
    wallClockDatetimeValid (some datetime) = true ↔ InCalendar datetime.date ∧ datetime.TimeValid := by
  have hyear : ¬(datetime.year.slt 1970 = true ∨ (9999#32).slt datetime.year = true) ↔
      1970 ≤ datetime.year.toNat ∧ datetime.year.toNat ≤ 9999 := not_slt_iff (by decide) (by decide)
  unfold wallClockDatetimeValid
  dsimp only
  constructor
  · intro h
    split at h
    · cases h
    rename_i hranges
    simp only [not_or, BitVec.not_lt] at hranges
    obtain ⟨hlow, hhigh, hmonth1, hmonth12, hday, hhour, hminute, hsecond, hweekday⟩ := hranges
    obtain ⟨hyear1970, hyear9999⟩ := hyear.1 (not_or.2 ⟨hlow, hhigh⟩)
    have hmonth : 0 < datetime.month.toNat ∧ datetime.month.toNat ≤ 12 := ⟨hmonth1, hmonth12⟩
    have hsame := toNat_toInt_of_le hyear9999
    have hlength := toNat_daysInMonth hyear9999 hmonth
    have hlast : datetime.day.toNat ≤ (daysInMonth datetime.year datetime.month).toNat := of_decide_eq_true h
    refine ⟨⟨⟨?_, hmonth, hday, ?_⟩, ?_⟩, ?_⟩
    · exact Nat.lt_of_lt_of_le (by decide) (hsame.symm ▸ hyear1970)
    · show datetime.day.toNat ≤ monthLength datetime.year.toInt.toNat datetime.month.toNat
      rwa [hsame, ← hlength]
    · show 1970 ≤ datetime.year.toInt.toNat ∧ datetime.year.toInt.toNat ≤ 9999
      rw [hsame]
      exact ⟨hyear1970, hyear9999⟩
    · exact ⟨Nat.lt_succ_of_le hhour, Nat.lt_succ_of_le hminute, Nat.lt_succ_of_le hsecond, Nat.lt_succ_of_le hweekday⟩
  · rintro ⟨⟨hexists, hcalendar⟩, htime⟩
    have hsame : datetime.year.toInt.toNat = datetime.year.toNat := toNat_of_toInt hcalendar
    have hyears : 1970 ≤ datetime.year.toNat ∧ datetime.year.toNat ≤ 9999 := hsame ▸ hcalendar
    have hlength := toNat_daysInMonth hyears.2 hexists.month
    have hlast : datetime.day.toNat ≤ monthLength datetime.year.toInt.toNat datetime.month.toNat := hexists.day.2
    rw [hsame, ← hlength] at hlast
    rw [if_neg]
    · exact decide_eq_true hlast
    simp only [not_or, BitVec.not_lt]
    obtain ⟨hlow, hhigh⟩ := not_or.1 (hyear.2 hyears)
    exact ⟨hlow, hhigh, hexists.month.1, hexists.month.2, hexists.day.1, Nat.le_of_lt_succ htime.hour,
      Nat.le_of_lt_succ htime.minute, Nat.le_of_lt_succ htime.second, Nat.le_of_lt_succ htime.weekday⟩

/-! ## From a date-time to the seconds -/

/-- The days from the first of March of the year 0 to the epoch. -/
theorem number_epoch : (⟨1970, 1, 1⟩ : Date).number = 719468 := rfl

theorem number_last : (⟨9999, 12, 31⟩ : Date).number = 719468 + 2932896 := rfl

/-- The dates from 1970 to 9999 are those from the epoch to the last day. -/
theorem number_of_inCalendar {d : Date} (h : InCalendar d) : 719468 ≤ d.number ∧ d.number ≤ 719468 + 2932896 := by
  obtain ⟨hexists, hyear⟩ := h
  have hmonth := hexists.month
  have hday := hexists.day
  constructor
  · by_contra hless
    rw [← number_epoch, Nat.not_le, Date.number_lt_iff hexists (by decide)] at hless
    unfold Date.Before at hless
    dsimp only at hless
    omega
  · by_contra hless
    rw [← number_last, Nat.not_le, Date.number_lt_iff (by decide) hexists] at hless
    have hlength := monthLength_le d.year d.month
    unfold Date.Before at hless
    dsimp only at hless
    omega

theorem toNat_signExtend_year {year : BitVec 32} (h : year.toNat ≤ 9999) : (year.signExtend 64).toNat = year.toNat := by
  rw [BitVec.signExtend_eq_setWidth_of_msb_false (BitVec.msb_eq_false_iff_two_mul_lt.2 (by omega))]
  exact BitVec.toNat_setWidth_of_le (by decide)

/-- The days of a date are counted from the epoch. -/
theorem toNat_daysFromCivil {year : BitVec 32} {month day : BitVec 8} {d : Date} (hd : d = ⟨year.toNat, month.toNat, day.toNat⟩)
    (h : InCalendar d) : (daysFromCivil year month day).toNat = d.number - 719468 := by
  have hnumber := number_of_inCalendar h
  obtain ⟨hexists, hyears⟩ := h
  have hmonth := hexists.month
  have hday := hexists.day
  have hyear : year.toNat = d.year := by rw [hd]
  have hmonth' : month.toNat = d.month := by rw [hd]
  have hday' : day.toNat = d.day := by rw [hd]
  have hearly : month ≤ 2 ↔ d.month ≤ 2 := by
    rw [← hmonth']
    exact BitVec.le_def
  have hlate : 2 < month ↔ ¬d.month ≤ 2 := by
    rw [← hmonth', Nat.not_le]
    exact BitVec.lt_def
  have hmarchDay : d.marchDay ≤ 365 := by
    have hlast := (Date.marchDay_spec hexists).1
    split at hlast <;> omega
  unfold daysFromCivil
  dsimp only
  have hadjusted : (if month ≤ 2 then year.signExtend 64 - 1 else year.signExtend 64).toNat = d.marchYear := by
    have hextended := toNat_signExtend_year (show year.toNat ≤ 9999 by omega)
    unfold Date.marchYear
    by_cases hmarch : d.month ≤ 2
    · rw [if_pos hmarch, if_pos (hearly.2 hmarch), BitVec.toNat_sub_of_le]
      · rw [hextended, hyear]
        rfl
      · show 1 ≤ (year.signExtend 64).toNat
        omega
    · rw [if_neg hmarch, if_neg fun hnot => hmarch (hearly.1 hnot), hextended, hyear]
  have hyearLe : d.marchYear ≤ 9999 := by
    unfold Date.marchYear
    split <;> omega
  generalize (if month ≤ 2 then year.signExtend 64 - 1 else year.signExtend 64) = adjustedYear at *
  have hpositive : (0#64).sle adjustedYear = true := by
    rw [sle_of_lt (by decide) (by omega)]
    exact decide_eq_true (Nat.zero_le _)
  rw [if_pos hpositive]
  have hera : (adjustedYear.sdiv 400).toNat = d.marchYear / 400 := by
    rw [toNat_sdiv_of_lt (by omega) (by decide), hadjusted]
    rfl
  generalize adjustedYear.sdiv 400 = era at *
  have hyearOfEra : ((adjustedYear - era * 400).setWidth 32).toNat = d.marchYear % 400 := by
    rw [BitVec.toNat_setWidth, BitVec.toNat_sub, BitVec.toNat_mul, hera, hadjusted]
    show (2 ^ 64 - d.marchYear / 400 * 400 % 2 ^ 64 + d.marchYear) % 2 ^ 64 % 2 ^ 32 = _
    omega
  generalize (adjustedYear - era * 400).setWidth 32 = yearOfEra at *
  have hmonthAdjusted : (if 2 < month then month.setWidth 32 - 3 else month.setWidth 32 + 9 : BitVec 32).toNat = d.marchMonth := by
    have hwide : (month.setWidth 32).toNat = month.toNat := BitVec.toNat_setWidth_of_le (by decide)
    unfold Date.marchMonth
    by_cases hmarch : d.month ≤ 2
    · rw [if_pos hmarch, if_neg fun hnot => hlate.1 hnot hmarch, BitVec.toNat_add, hwide, hmonth']
      show (d.month + 9) % 2 ^ 32 = _
      omega
    · rw [if_neg hmarch, if_pos (hlate.2 hmarch), BitVec.toNat_sub, hwide, hmonth']
      show (2 ^ 32 - 3 + d.month) % 2 ^ 32 = _
      omega
  generalize (if 2 < month then month.setWidth 32 - 3 else month.setWidth 32 + 9 : BitVec 32) = adjustedMonth at *
  have hmonthLe : d.marchMonth ≤ 11 := by
    unfold Date.marchMonth
    split <;> omega
  have hdayOfYear : ((153 * adjustedMonth + 2) / 5 + day.setWidth 32 - 1).toNat = d.marchDay := by
    have hwide : (day.setWidth 32).toNat = day.toNat := BitVec.toNat_setWidth_of_le (by decide)
    have hstart : (153 * adjustedMonth + 2 : BitVec 32).toNat = 153 * d.marchMonth + 2 := by
      rw [BitVec.toNat_add, BitVec.toNat_mul, hmonthAdjusted]
      show (153 * d.marchMonth % 2 ^ 32 + 2) % 2 ^ 32 = _
      omega
    rw [BitVec.toNat_sub, BitVec.toNat_add, BitVec.toNat_udiv, hstart, hwide, hday']
    show (2 ^ 32 - 1 + ((153 * d.marchMonth + 2) / 5 + d.day) % 2 ^ 32) % 2 ^ 32 = (153 * d.marchMonth + 2) / 5 + (d.day - 1)
    omega
  generalize (153 * adjustedMonth + 2) / 5 + day.setWidth 32 - 1 = dayOfYear at *
  have hdayOfEra : (yearOfEra * 365 + yearOfEra / 4 - yearOfEra / 100 + dayOfYear).toNat =
      365 * (d.marchYear % 400) + d.marchYear % 400 / 4 - d.marchYear % 400 / 100 + d.marchDay := by
    rw [BitVec.toNat_add, BitVec.toNat_sub, BitVec.toNat_add, BitVec.toNat_mul, BitVec.toNat_udiv, BitVec.toNat_udiv, hyearOfEra,
      hdayOfYear]
    show ((2 ^ 32 - d.marchYear % 400 / 100 + (d.marchYear % 400 * 365 % 2 ^ 32 + d.marchYear % 400 / 4) % 2 ^ 32) % 2 ^ 32 +
      d.marchDay) % 2 ^ 32 = _
    have hfours : d.marchYear % 400 / 4 ≤ 99 := by omega
    have hcenturies : d.marchYear % 400 / 100 ≤ d.marchYear % 400 / 4 := by omega
    have hera : d.marchYear % 400 < 400 := Nat.mod_lt _ (by decide)
    generalize d.marchYear % 400 / 4 = fours at *
    generalize d.marchYear % 400 / 100 = centuries at *
    omega
  generalize yearOfEra * 365 + yearOfEra / 4 - yearOfEra / 100 + dayOfYear = dayOfEra at *
  have hdays := Date.number_eq d
  rw [BitVec.toNat_sub, BitVec.toNat_add, BitVec.toNat_mul, BitVec.toNat_setWidth_of_le (by decide), hera, hdayOfEra]
  show (2 ^ 64 - 719468 + (d.marchYear / 400 * 146097 % 2 ^ 64 + _) % 2 ^ 64) % 2 ^ 64 = _
  omega

/-- A valid date-time has the seconds of its days and of its time. -/
theorem wallClockDatetimeToEpoch_spec {datetime : Datetime} (h : InCalendar datetime.date) (htime : datetime.TimeValid) :
    ∃ seconds, wallClockDatetimeToEpoch (some datetime) true = some seconds ∧
      seconds.toNat = (datetime.date.number - 719468) * 86400 + datetime.hour.toNat * 3600 + datetime.minute.toNat * 60 +
        datetime.second.toNat := by
  have hvalid := (wallClockDatetimeValid_iff datetime).2 ⟨h, htime⟩
  have hnumber := number_of_inCalendar h
  have hyear : datetime.year.toInt.toNat = datetime.year.toNat := toNat_of_toInt h.year
  have hdays := toNat_daysFromCivil (d := datetime.date) (by rw [← hyear]; rfl) h
  obtain ⟨hhour, hminute, hsecond, -⟩ := htime
  unfold wallClockDatetimeToEpoch
  rw [if_neg (by rw [hvalid]; decide)]
  refine ⟨_, rfl, ?_⟩
  generalize daysFromCivil datetime.year datetime.month datetime.day = days at *
  rw [BitVec.toNat_add, BitVec.toNat_add, BitVec.toNat_add, BitVec.toNat_mul, BitVec.toNat_mul, BitVec.toNat_mul,
    BitVec.toNat_setWidth_of_le (by decide), BitVec.toNat_setWidth_of_le (by decide), BitVec.toNat_setWidth_of_le (by decide), hdays]
  show (((_ * 86400 % 2 ^ 64 + datetime.hour.toNat * 3600 % 2 ^ 64) % 2 ^ 64 + datetime.minute.toNat * 60 % 2 ^ 64) % 2 ^ 64 +
    datetime.second.toNat) % 2 ^ 64 = _
  omega

theorem wallClockDatetimeToEpoch_of_invalid {datetime : Datetime} (h : wallClockDatetimeValid (some datetime) = false) (given : Bool) :
    wallClockDatetimeToEpoch (some datetime) given = none := if_pos (Or.inl h)

/-! ## From the seconds to a date-time -/

/-- The date so many days after the epoch. -/
def dateAfter (days : Nat) : Date := Date.next^[days] ⟨1970, 1, 1⟩

theorem exists_dateAfter (days : Nat) : (dateAfter days).Exists := Date.exists_iterate (by decide) days

theorem number_dateAfter (days : Nat) : (dateAfter days).number = 719468 + days := Date.number_iterate (by decide) days

/-- The days up to the last one lead to the dates up to the last one. -/
theorem inCalendar_dateAfter {days : Nat} (h : days ≤ 2932896) : InCalendar (dateAfter days) := by
  have hexists := exists_dateAfter days
  have hnumber := number_dateAfter days
  have hlow : ¬(dateAfter days).Before ⟨1970, 1, 1⟩ := by
    rw [← Date.number_lt_iff hexists (by decide), number_epoch]
    omega
  have hhigh : ¬Date.Before ⟨9999, 12, 31⟩ (dateAfter days) := by
    rw [← Date.number_lt_iff (by decide) hexists, number_last]
    omega
  unfold Date.Before at hlow hhigh
  dsimp only at hlow hhigh
  exact ⟨hexists, by omega, by omega⟩

theorem dateAfter_number {d : Date} (h : InCalendar d) : dateAfter (d.number - 719468) = d := by
  have hnumber := number_of_inCalendar h
  refine Date.number_injective (exists_dateAfter _) h.dateExists ?_
  rw [number_dateAfter]
  omega

section Words

variable {d : Date} (h : InCalendar d)

include h

theorem marchYear_le : d.marchYear ≤ 9999 := by
  have hyear := h.year
  unfold Date.marchYear
  split <;> omega

theorem marchDay_le : d.marchDay ≤ 365 := by
  have hlast := (Date.marchDay_spec h.dateExists).1
  split at hlast <;> omega

theorem marchMonth_le : d.marchMonth ≤ 11 := by
  have hmonth := h.dateExists.month
  unfold Date.marchMonth
  split <;> omega

theorem toNat_dayOfEra {days era : BitVec 64} (hdays : days.toNat = d.number) (hera : era.toNat = d.marchYear / 400) :
    ((days - era * 146097).setWidth 32).toNat = d.number % 146097 := by
  have hdivide := Date.number_div h.dateExists
  have hnumber := number_of_inCalendar h
  rw [BitVec.toNat_setWidth, BitVec.toNat_sub, BitVec.toNat_mul, hera, hdays, ← hdivide]
  show (2 ^ 64 - d.number / 146097 * 146097 % 2 ^ 64 + d.number) % 2 ^ 64 % 2 ^ 32 = _
  omega

theorem toNat_yearOfEra {dayOfEra : BitVec 32} (hday : dayOfEra.toNat = d.number % 146097) :
    ((dayOfEra - dayOfEra / 1460 + dayOfEra / 36524 - dayOfEra / 146096) / 365).toNat = d.marchYear % 400 := by
  rw [← Date.yearOfEra_number h.dateExists, BitVec.toNat_udiv, BitVec.toNat_sub, BitVec.toNat_add, BitVec.toNat_sub, BitVec.toNat_udiv,
    BitVec.toNat_udiv, BitVec.toNat_udiv, hday]
  have hsmall : d.number % 146097 < 146097 := Nat.mod_lt _ (by decide)
  unfold Date.yearOfEra
  generalize d.number % 146097 = day at *
  show (2 ^ 32 - day / 146096 + ((2 ^ 32 - day / 1460 + day) % 2 ^ 32 + day / 36524) % 2 ^ 32) % 2 ^ 32 / 365 = _
  have hfours : day / 1460 ≤ day := Nat.div_le_self _ _
  have hcenturies : day / 146096 ≤ day / 36524 := by omega
  have hless : day / 36524 ≤ day := Nat.div_le_self _ _
  generalize day / 1460 = fours at *
  generalize day / 36524 = centuries at *
  generalize day / 146096 = eras at *
  congr 1
  omega

theorem toNat_marchYear {yearOfEra : BitVec 32} {era : BitVec 64} (hyear : yearOfEra.toNat = d.marchYear % 400)
    (hera : era.toNat = d.marchYear / 400) : (yearOfEra + era.setWidth 32 * 400).toNat = d.marchYear := by
  have hle := marchYear_le h
  rw [BitVec.toNat_add, BitVec.toNat_mul, BitVec.toNat_setWidth, hyear, hera]
  show (d.marchYear % 400 + d.marchYear / 400 % 2 ^ 32 * 400 % 2 ^ 32) % 2 ^ 32 = _
  omega

theorem toNat_dayOfYear {dayOfEra yearOfEra : BitVec 32} (hday : dayOfEra.toNat = d.number % 146097)
    (hyear : yearOfEra.toNat = d.marchYear % 400) :
    (dayOfEra - (365 * yearOfEra + yearOfEra / 4 - yearOfEra / 100)).toNat = d.marchDay := by
  have hle := marchDay_le h
  have hyears : d.marchYear % 400 < 400 := Nat.mod_lt _ (by decide)
  have hfours : d.marchYear % 400 / 4 ≤ 99 := by omega
  have hcenturies : d.marchYear % 400 / 100 ≤ d.marchYear % 400 / 4 := by omega
  rw [BitVec.toNat_sub, BitVec.toNat_sub, BitVec.toNat_add, BitVec.toNat_mul, BitVec.toNat_udiv, BitVec.toNat_udiv, hyear, hday,
    Date.number_mod h.dateExists]
  show (2 ^ 32 - (2 ^ 32 - d.marchYear % 400 / 100 + (365 * (d.marchYear % 400) % 2 ^ 32 + d.marchYear % 400 / 4) % 2 ^ 32) % 2 ^ 32 +
    (365 * (d.marchYear % 400) + d.marchYear % 400 / 4 - d.marchYear % 400 / 100 + d.marchDay)) % 2 ^ 32 = _
  generalize d.marchYear % 400 / 4 = fours at *
  generalize d.marchYear % 400 / 100 = centuries at *
  generalize d.marchYear % 400 = years at *
  omega

theorem toNat_monthPrime {dayOfYear : BitVec 32} (hday : dayOfYear.toNat = d.marchDay) :
    ((5 * dayOfYear + 2) / 153).toNat = d.marchMonth := by
  have hle := marchDay_le h
  rw [BitVec.toNat_udiv, BitVec.toNat_add, BitVec.toNat_mul, hday, ← (Date.marchDay_spec h.dateExists).2]
  show (5 * d.marchDay % 2 ^ 32 + 2) % 2 ^ 32 / 153 = _
  congr 1
  omega

theorem toNat_day {dayOfYear monthPrime : BitVec 32} (hday : dayOfYear.toNat = d.marchDay) (hmonth : monthPrime.toNat = d.marchMonth) :
    ((dayOfYear - (153 * monthPrime + 2) / 5 + 1).setWidth 8).toNat = d.day := by
  have hpos := h.dateExists.day.1
  have hle := Nat.le_trans h.dateExists.day.2 (monthLength_le d.year d.month)
  have hmonths := marchMonth_le h
  have hdef : d.marchDay = (153 * d.marchMonth + 2) / 5 + (d.day - 1) := rfl
  rw [BitVec.toNat_setWidth, BitVec.toNat_add, BitVec.toNat_sub, BitVec.toNat_udiv, BitVec.toNat_add, BitVec.toNat_mul, hday, hmonth,
    hdef]
  show ((2 ^ 32 - (153 * d.marchMonth % 2 ^ 32 + 2) % 2 ^ 32 / 5 + ((153 * d.marchMonth + 2) / 5 + (d.day - 1))) % 2 ^ 32 + 1) %
    2 ^ 32 % 2 ^ 8 = _
  rw [show (153 * d.marchMonth % 2 ^ 32 + 2) % 2 ^ 32 = 153 * d.marchMonth + 2 by omega]
  omega

theorem toNat_month {monthPrime : BitVec 32} (hmonth : monthPrime.toNat = d.marchMonth) :
    ((if monthPrime < 10 then monthPrime + 3 else monthPrime - 9).setWidth 8).toNat = d.month := by
  have hmonths := h.dateExists.month
  have hten : monthPrime < 10 ↔ d.marchMonth < 10 := by
    rw [← hmonth]
    exact BitVec.lt_def
  rw [BitVec.toNat_setWidth]
  by_cases hearly : d.month ≤ 2
  · have hdef : d.marchMonth = d.month + 9 := if_pos hearly
    rw [if_neg fun hnot => by have hless := hten.1 hnot; omega, BitVec.toNat_sub, hmonth]
    show (2 ^ 32 - 9 + d.marchMonth) % 2 ^ 32 % 2 ^ 8 = _
    omega
  · have hdef : d.marchMonth = d.month - 3 := if_neg hearly
    rw [if_pos (hten.2 (by omega)), BitVec.toNat_add, hmonth]
    show (d.marchMonth + 3) % 2 ^ 32 % 2 ^ 8 = _
    omega

theorem toNat_year {month : BitVec 8} {marchYear : BitVec 32} (hmonth : month.toNat = d.month) (hyear : marchYear.toNat = d.marchYear) :
    (if month ≤ 2 then marchYear + 1 else marchYear).toNat = d.year := by
  have hearly : month ≤ 2 ↔ d.month ≤ 2 := by
    rw [← hmonth]
    exact BitVec.le_def
  have hyears := h.year
  by_cases hmarch : d.month ≤ 2
  · have hdef : d.marchYear = d.year - 1 := if_pos hmarch
    rw [if_pos (hearly.2 hmarch), BitVec.toNat_add, hyear]
    show (d.marchYear + 1) % 2 ^ 32 = _
    omega
  · have hdef : d.marchYear = d.year := if_neg hmarch
    rw [if_neg fun hnot => hmarch (hearly.1 hnot), hyear, hdef]

end Words

theorem toNat_weekday {days : BitVec 64} (h : days.toNat ≤ 2932896) : (((days + 4).srem 7).setWidth 8).toNat = (4 + days.toNat) % 7 := by
  have hsum : (days + 4).toNat = 4 + days.toNat := by
    rw [BitVec.toNat_add]
    show (days.toNat + 4) % 2 ^ 64 = _
    omega
  rw [BitVec.toNat_setWidth, toNat_srem_of_lt (by omega) (by decide), hsum]
  show (4 + days.toNat) % 7 % 2 ^ 8 = _
  omega

/-- An epoch second has the date of its days and the time of the rest. -/
theorem wallClockEpochToDatetime_spec {seconds : BitVec 64} (h : seconds.toNat ≤ 253402300799) :
    ∃ datetime, wallClockEpochToDatetime seconds true = some datetime ∧ datetime.date = dateAfter (seconds.toNat / 86400) ∧
      datetime.weekday.toNat = (4 + seconds.toNat / 86400) % 7 ∧ datetime.hour.toNat = seconds.toNat % 86400 / 3600 ∧
      datetime.minute.toNat = seconds.toNat % 3600 / 60 ∧ datetime.second.toNat = seconds.toNat % 60 := by
  have hnumber := number_dateAfter (seconds.toNat / 86400)
  have hcalendar := inCalendar_dateAfter (show seconds.toNat / 86400 ≤ 2932896 by omega)
  generalize dateAfter (seconds.toNat / 86400) = d at *
  have hrange : ¬(seconds.slt 0 = true ∨ (253402300799#64).slt seconds = true) :=
    (not_slt_iff (by decide) (by decide)).2 ⟨Nat.zero_le _, h⟩
  unfold wallClockEpochToDatetime
  rw [if_neg fun hnot => hnot.elim (fun hnot => by cases hnot) hrange]
  dsimp only
  have hdays : (seconds.sdiv 86400).toNat = seconds.toNat / 86400 := toNat_sdiv_of_lt (by omega) (by decide)
  have hdaily : (seconds.srem 86400).toNat = seconds.toNat % 86400 := toNat_srem_of_lt (by omega) (by decide)
  generalize seconds.sdiv 86400 = days at *
  generalize seconds.srem 86400 = daily at *
  have hweekday := toNat_weekday (show days.toNat ≤ 2932896 by omega)
  have hshifted : (days + 719468).toNat = d.number := by
    rw [BitVec.toNat_add]
    show (days.toNat + 719468) % 2 ^ 64 = _
    omega
  generalize days + 719468 = shifted at *
  have hpositive : (0#64).sle shifted = true := by
    rw [sle_of_lt (by decide) (by omega)]
    exact decide_eq_true (Nat.zero_le _)
  rw [if_pos hpositive]
  have hera : (shifted.sdiv 146097).toNat = d.marchYear / 400 := by
    rw [toNat_sdiv_of_lt (by omega) (by decide), hshifted, ← Date.number_div hcalendar.dateExists]
    rfl
  generalize shifted.sdiv 146097 = era at *
  have hdayOfEra := toNat_dayOfEra hcalendar hshifted hera
  generalize (shifted - era * 146097).setWidth 32 = dayOfEra at *
  have hyearOfEra := toNat_yearOfEra hcalendar hdayOfEra
  generalize (dayOfEra - dayOfEra / 1460 + dayOfEra / 36524 - dayOfEra / 146096) / 365 = yearOfEra at *
  have hmarchYear := toNat_marchYear hcalendar hyearOfEra hera
  generalize yearOfEra + era.setWidth 32 * 400 = marchYear at *
  have hdayOfYear := toNat_dayOfYear hcalendar hdayOfEra hyearOfEra
  generalize dayOfEra - (365 * yearOfEra + yearOfEra / 4 - yearOfEra / 100) = dayOfYear at *
  have hmonthPrime := toNat_monthPrime hcalendar hdayOfYear
  generalize (5 * dayOfYear + 2) / 153 = monthPrime at *
  have hday := toNat_day hcalendar hdayOfYear hmonthPrime
  generalize (dayOfYear - (153 * monthPrime + 2) / 5 + 1).setWidth 8 = day at *
  have hmonth := toNat_month hcalendar hmonthPrime
  generalize (if monthPrime < 10 then monthPrime + 3 else monthPrime - 9).setWidth 8 = month at *
  have hyear := toNat_year hcalendar hmonth hmarchYear
  generalize (if month ≤ 2 then marchYear + 1 else marchYear) = year at *
  have hyears : ¬(year.slt 1970 = true ∨ (9999#32).slt year = true) :=
    (not_slt_iff (by decide) (by decide)).2 (by rw [hyear]; exact hcalendar.year)
  rw [if_neg hyears]
  refine ⟨_, rfl, ?_, ?_, ?_, ?_, ?_⟩
  · unfold Datetime.date
    rw [toNat_toInt_of_le (by rw [hyear]; exact hcalendar.year.2), hyear, hmonth, hday]
  · exact hweekday.trans (by rw [hdays])
  · dsimp only
    rw [BitVec.toNat_setWidth, toNat_sdiv_of_lt (by omega) (by decide), hdaily]
    show seconds.toNat % 86400 / 3600 % 2 ^ 8 = _
    omega
  · have hhourly : (daily.srem 3600).toNat = seconds.toNat % 3600 := by
      rw [toNat_srem_of_lt (by omega) (by decide), hdaily]
      show seconds.toNat % 86400 % 3600 = _
      omega
    dsimp only
    rw [BitVec.toNat_setWidth, toNat_sdiv_of_lt (by omega) (by decide), hhourly]
    show seconds.toNat % 3600 / 60 % 2 ^ 8 = _
    omega
  · dsimp only
    rw [BitVec.toNat_setWidth, toNat_srem_of_lt (by omega) (by decide), hdaily]
    show seconds.toNat % 86400 % 60 % 2 ^ 8 = _
    omega

/-! ## The conversions -/

/-- The first day, a Thursday. -/
def epochDay : CalendarDay := ⟨⟨1970, 1, 1⟩, 4⟩

/-- The date and the weekday of a date-time. -/
def Datetime.calendarDay (datetime : Datetime) : CalendarDay := ⟨datetime.date, datetime.weekday.toNat⟩

/-- The date and the time of a date-time, from the year to the second. -/
def Datetime.fields (datetime : Datetime) : List Nat :=
  [datetime.date.year, datetime.date.month, datetime.date.day, datetime.hour.toNat, datetime.minute.toNat, datetime.second.toNat]

/-- The order of the fields is that of the dates, and of the seconds of a day. -/
theorem fields_lt_iff (datetime datetime' : Datetime) : datetime.fields < datetime'.fields ↔
    datetime.date.Before datetime'.date ∨ datetime.date = datetime'.date ∧
      (datetime.hour.toNat < datetime'.hour.toNat ∨ datetime.hour.toNat = datetime'.hour.toNat ∧
        (datetime.minute.toNat < datetime'.minute.toNat ∨ datetime.minute.toNat = datetime'.minute.toNat ∧
          datetime.second.toNat < datetime'.second.toNat)) := by
  have hdate : datetime.date = datetime'.date ↔ datetime.date.year = datetime'.date.year ∧
      datetime.date.month = datetime'.date.month ∧ datetime.date.day = datetime'.date.day := by
    generalize datetime.date = d
    generalize datetime'.date = d'
    cases d
    cases d'
    exact Date.mk.injEq .. ▸ Iff.rfl
  unfold Datetime.fields Date.Before
  simp only [List.cons_lt_cons_iff, hdate, List.lt_irrefl, and_false, or_false, and_or_left, and_assoc, or_assoc]

/-- What a conversion of a date-time starts from. -/
theorem valid_of_toEpoch {datetime : Datetime} {seconds : BitVec 64}
    (h : wallClockDatetimeToEpoch (some datetime) true = some seconds) :
    InCalendar datetime.date ∧ datetime.TimeValid ∧
      seconds.toNat = (datetime.date.number - 719468) * 86400 + datetime.hour.toNat * 3600 + datetime.minute.toNat * 60 +
        datetime.second.toNat := by
  cases hvalid : wallClockDatetimeValid (some datetime) with
  | false =>
    rw [wallClockDatetimeToEpoch_of_invalid hvalid] at h
    cases h
  | true =>
    obtain ⟨hcalendar, htime⟩ := (wallClockDatetimeValid_iff datetime).1 hvalid
    obtain ⟨seconds', hseconds', hcount⟩ := wallClockDatetimeToEpoch_spec hcalendar htime
    obtain rfl := Option.some.inj (hseconds'.symm.trans h)
    exact ⟨hcalendar, htime, hcount⟩

/-- An epoch second is converted to the day of the calendar that it is in, and back. -/
theorem epoch_roundTrip {seconds : BitVec 64} (h : seconds.toNat ≤ 253402300799) :
    ∃ datetime, wallClockEpochToDatetime seconds true = some datetime ∧
      wallClockDatetimeToEpoch (some datetime) true = some seconds ∧
      datetime.calendarDay = CalendarDay.next^[seconds.toNat / 86400] epochDay := by
  obtain ⟨datetime, hdatetime, hdate, hweekday, hhour, hminute, hsecond⟩ := wallClockEpochToDatetime_spec h
  have hcalendar : InCalendar datetime.date := hdate ▸ inCalendar_dateAfter (by omega)
  have htime : datetime.TimeValid := ⟨by omega, by omega, by omega, by omega⟩
  obtain ⟨seconds', hseconds', hcount⟩ := wallClockDatetimeToEpoch_spec hcalendar htime
  refine ⟨datetime, hdatetime, hseconds'.trans (congrArg some (BitVec.eq_of_toNat_eq ?_)), ?_⟩
  · rw [hcount, hdate, number_dateAfter, hhour, hminute, hsecond]
    omega
  · rw [CalendarDay.iterate_eq (by decide)]
    unfold Datetime.calendarDay
    rw [hdate, hweekday]
    rfl

/-- A date-time that is valid is converted to its seconds, and back but for the weekday. -/
theorem datetime_roundTrip {datetime : Datetime} (h : wallClockDatetimeValid (some datetime) = true) :
    ∃ seconds datetime', wallClockDatetimeToEpoch (some datetime) true = some seconds ∧
      wallClockEpochToDatetime seconds true = some datetime' ∧ { datetime' with weekday := datetime.weekday } = datetime := by
  obtain ⟨hcalendar, htime⟩ := (wallClockDatetimeValid_iff datetime).1 h
  obtain ⟨seconds, hseconds, hcount⟩ := wallClockDatetimeToEpoch_spec hcalendar htime
  have hnumber := number_of_inCalendar hcalendar
  obtain ⟨hhour, hminute, hsecond, -⟩ := htime
  obtain ⟨datetime', hdatetime', hdate, -, hhour', hminute', hsecond'⟩ :=
    wallClockEpochToDatetime_spec (show seconds.toNat ≤ 253402300799 by omega)
  have hdays : seconds.toNat / 86400 = datetime.date.number - 719468 := by omega
  rw [hdays, dateAfter_number hcalendar] at hdate
  refine ⟨seconds, datetime', hseconds, hdatetime', ?_⟩
  have hyear : datetime'.year.toInt.toNat = datetime.year.toInt.toNat := congrArg Date.year hdate
  have hyear' : datetime'.year.toNat = datetime.year.toNat := by
    have hrange : 1970 ≤ datetime'.year.toInt.toNat ∧ datetime'.year.toInt.toNat ≤ 9999 := hyear.symm ▸ hcalendar.year
    exact (toNat_of_toInt hrange).symm.trans (hyear.trans (toNat_of_toInt hcalendar.year))
  have hmonth : datetime'.month.toNat = datetime.month.toNat := congrArg Date.month hdate
  have hday : datetime'.day.toNat = datetime.day.toNat := congrArg Date.day hdate
  cases datetime
  cases datetime'
  refine Datetime.mk.injEq .. ▸ ⟨BitVec.eq_of_toNat_eq hyear', BitVec.eq_of_toNat_eq hmonth, BitVec.eq_of_toNat_eq hday, rfl,
    BitVec.eq_of_toNat_eq ?_, BitVec.eq_of_toNat_eq ?_, BitVec.eq_of_toNat_eq ?_⟩
  · dsimp only at *
    omega
  · dsimp only at *
    omega
  · dsimp only at *
    omega

/-- The seconds are ordered as the date-times. -/
theorem toEpoch_lt_iff {datetime datetime' : Datetime} {seconds seconds' : BitVec 64}
    (h : wallClockDatetimeToEpoch (some datetime) true = some seconds)
    (h' : wallClockDatetimeToEpoch (some datetime') true = some seconds') :
    datetime.fields < datetime'.fields ↔ seconds.toInt < seconds'.toInt := by
  obtain ⟨hcalendar, htime, hcount⟩ := valid_of_toEpoch h
  obtain ⟨hcalendar', htime', hcount'⟩ := valid_of_toEpoch h'
  have hnumber := number_of_inCalendar hcalendar
  have hnumber' := number_of_inCalendar hcalendar'
  have hequal : datetime.date = datetime'.date ↔ datetime.date.number = datetime'.date.number :=
    ⟨congrArg Date.number, Date.number_injective hcalendar.dateExists hcalendar'.dateExists⟩
  obtain ⟨hhour, hminute, hsecond, -⟩ := htime
  obtain ⟨hhour', hminute', hsecond', -⟩ := htime'
  rw [fields_lt_iff, hequal, ← Date.number_lt_iff hcalendar.dateExists hcalendar'.dateExists,
    BitVec.toInt_eq_toNat_of_lt (by omega), BitVec.toInt_eq_toNat_of_lt (by omega)]
  omega

/-! ## The copies -/

theorem datetimeToEpoch_eq (datetime : Option Datetime) (given : Bool) :
    datetimeToEpoch datetime given = wallClockDatetimeToEpoch datetime given := by
  cases datetime <;> rfl

theorem epochToDatetime_eq (seconds : BitVec 64) (given : Bool) :
    epochToDatetime seconds given = wallClockEpochToDatetime seconds given := by
  unfold epochToDatetime wallClockEpochToDatetime
  refine if_congr ?_ rfl rfl
  rw [← or_assoc, or_comm]

/-- Every epoch second from 1970 to 9999 is converted to the day of the calendar that it is in and back; every valid date-time is
converted back but for its weekday; the seconds are ordered as the date-times; a date-time is accepted when its date exists from 1970 to
9999 and its time is one of a day; and the conversions of the SDK are the same. -/
theorem calendar_conversion :
    (∀ seconds : BitVec 64, 0 ≤ seconds.toInt → seconds.toInt ≤ 253402300799 →
      ∃ datetime, wallClockEpochToDatetime seconds true = some datetime ∧
        wallClockDatetimeToEpoch (some datetime) true = some seconds ∧
        datetime.calendarDay = CalendarDay.next^[seconds.toNat / 86400] epochDay) ∧
    (∀ datetime, wallClockDatetimeValid (some datetime) = true →
      ∃ seconds datetime', wallClockDatetimeToEpoch (some datetime) true = some seconds ∧
        wallClockEpochToDatetime seconds true = some datetime' ∧ { datetime' with weekday := datetime.weekday } = datetime) ∧
    (∀ datetime datetime' seconds seconds', wallClockDatetimeToEpoch (some datetime) true = some seconds →
      wallClockDatetimeToEpoch (some datetime') true = some seconds' →
      (datetime.fields < datetime'.fields ↔ seconds.toInt < seconds'.toInt)) ∧
    (∀ datetime, wallClockDatetimeValid (some datetime) = true ↔ InCalendar datetime.date ∧ datetime.TimeValid) ∧
    (∀ datetime, (wallClockDatetimeToEpoch (some datetime) true).isSome = wallClockDatetimeValid (some datetime)) ∧
    (∀ datetime given, datetimeToEpoch datetime given = wallClockDatetimeToEpoch datetime given) ∧
    ∀ seconds given, epochToDatetime seconds given = wallClockEpochToDatetime seconds given := by
  refine ⟨fun seconds hlow hhigh => epoch_roundTrip ?_, fun datetime h => datetime_roundTrip h,
    fun datetime datetime' seconds seconds' h h' => toEpoch_lt_iff h h', wallClockDatetimeValid_iff, fun datetime => ?_,
    datetimeToEpoch_eq, epochToDatetime_eq⟩
  · rw [BitVec.toInt_eq_toNat_cond] at hlow hhigh
    split at hhigh <;> omega
  · cases hvalid : wallClockDatetimeValid (some datetime) with
    | false => rw [wallClockDatetimeToEpoch_of_invalid hvalid]; rfl
    | true =>
      obtain ⟨hcalendar, htime⟩ := (wallClockDatetimeValid_iff datetime).1 hvalid
      obtain ⟨seconds, hseconds, -⟩ := wallClockDatetimeToEpoch_spec hcalendar htime
      rw [hseconds]
      rfl

/-- A leap day. -/
example : (wallClockEpochToDatetime 951827696 true).map Datetime.calendarDay = some ⟨⟨2000, 2, 29⟩, 2⟩ := by decide

end Clock
end TabOS
