import Mathlib.Logic.Function.Iterate
import Mathlib.Order.Basic

/-!
# The Gregorian calendar

The dates of the calendar follow each other by `next`. Their numbers count them, in years that begin in March so that a leap day is the
last day of its year: `number` takes a date to its number and `ofNumber` a number back to its date, both without a loop. Whatever the
calendar orders is ordered by the numbers.
-/

namespace Library

/-- A leap year. -/
def LeapYear (year : Nat) : Prop := year % 4 = 0 ∧ (year % 100 ≠ 0 ∨ year % 400 = 0)

instance (year : Nat) : Decidable (LeapYear year) := inferInstanceAs (Decidable (_ ∧ _))

/-- The number of the days of a month. -/
def monthLength (year month : Nat) : Nat :=
  if month = 2 then if LeapYear year then 29 else 28
  else if month = 4 ∨ month = 6 ∨ month = 9 ∨ month = 11 then 30
  else 31

theorem monthLength_pos (year month : Nat) : 0 < monthLength year month := by
  unfold monthLength
  split
  · split <;> decide
  · split <;> decide

theorem monthLength_le (year month : Nat) : monthLength year month ≤ 31 := by
  unfold monthLength
  split
  · split <;> decide
  · split <;> decide

/-- A year, a month and a day. -/
structure Date where
  year : Nat
  month : Nat
  day : Nat
  deriving DecidableEq, Repr

namespace Date

/-- The date is one of the calendar. -/
structure Exists (d : Date) : Prop where
  year : 0 < d.year
  month : 0 < d.month ∧ d.month ≤ 12
  day : 0 < d.day ∧ d.day ≤ monthLength d.year d.month

instance (d : Date) : Decidable d.Exists :=
  decidable_of_iff (0 < d.year ∧ (0 < d.month ∧ d.month ≤ 12) ∧ 0 < d.day ∧ d.day ≤ monthLength d.year d.month)
    ⟨fun h => ⟨h.1, h.2.1, h.2.2⟩, fun h => ⟨h.year, h.month, h.day⟩⟩

/-- The date of the next day. -/
def next (d : Date) : Date :=
  if d.day < monthLength d.year d.month then ⟨d.year, d.month, d.day + 1⟩
  else if d.month < 12 then ⟨d.year, d.month + 1, 1⟩
  else ⟨d.year + 1, 1, 1⟩

theorem Exists.next {d : Date} (h : d.Exists) : d.next.Exists := by
  unfold Date.next
  split
  · rename_i hday
    exact ⟨h.year, h.month, Nat.succ_pos _, hday⟩
  · split
    · rename_i hmonth
      exact ⟨h.year, ⟨Nat.succ_pos _, hmonth⟩, Nat.one_pos, monthLength_pos _ _⟩
    · exact ⟨Nat.succ_pos _, ⟨Nat.one_pos, by show 1 ≤ 12; decide⟩, Nat.one_pos, monthLength_pos _ _⟩

/-- The dates from a date on. -/
theorem exists_iterate {d : Date} (h : d.Exists) (days : Nat) : (Date.next^[days] d).Exists := by
  induction days with
  | zero => exact h
  | succ days ih =>
    rw [Function.iterate_succ_apply']
    exact ih.next

/-! ## The order -/

/-- A date is before another one: by its year, then by its month, then by its day. -/
def Before (d d' : Date) : Prop := d.year < d'.year ∨ d.year = d'.year ∧ (d.month < d'.month ∨ d.month = d'.month ∧ d.day < d'.day)

instance (d d' : Date) : Decidable (d.Before d') := inferInstanceAs (Decidable (_ ∨ _))

theorem Before.trans {d d' d'' : Date} (h : d.Before d') (h' : d'.Before d'') : d.Before d'' := by
  unfold Before at *
  omega

theorem not_before_self (d : Date) : ¬d.Before d := by
  unfold Before
  omega

theorem before_next (d : Date) : d.Before d.next := by
  unfold next Before
  split
  · exact Or.inr ⟨rfl, Or.inr ⟨rfl, Nat.lt_succ_self _⟩⟩
  · split
    · exact Or.inr ⟨rfl, Or.inl (Nat.lt_succ_self _)⟩
    · exact Or.inl (Nat.lt_succ_self _)

theorem before_iterate (d : Date) (days : Nat) : d.Before (Date.next^[days + 1] d) := by
  induction days with
  | zero => exact before_next d
  | succ days ih =>
    rw [Function.iterate_succ_apply']
    exact ih.trans (before_next _)

/-! ## The numbers of the days -/

/-- The year of a date when the years begin in March. -/
def marchYear (d : Date) : Nat := if d.month ≤ 2 then d.year - 1 else d.year

/-- The month of a date in a year that begins in March, from 0 on. -/
def marchMonth (d : Date) : Nat := if d.month ≤ 2 then d.month + 9 else d.month - 3

/-- The day of a date in a year that begins in March, from 0 on. -/
def marchDay (d : Date) : Nat := (153 * d.marchMonth + 2) / 5 + (d.day - 1)

/-- The number of the days before a year that begins in March. -/
def daysBefore (year : Nat) : Nat := 365 * year + year / 4 - year / 100 + year / 400

/-- The number of the day. -/
def number (d : Date) : Nat := daysBefore d.marchYear + d.marchDay

/-- A year that begins in March ends with the leap day of the next one. -/
theorem daysBefore_succ (year : Nat) : daysBefore (year + 1) = daysBefore year + if LeapYear (year + 1) then 366 else 365 := by
  have hless : year / 100 ≤ year / 4 := by omega
  unfold daysBefore
  by_cases hfour : (year + 1) % 4 = 0
  · have hfours : (year + 1) / 4 = year / 4 + 1 := by omega
    by_cases hcentury : (year + 1) % 100 = 0
    · have hcenturies : (year + 1) / 100 = year / 100 + 1 := by omega
      by_cases hera : (year + 1) % 400 = 0
      · have heras : (year + 1) / 400 = year / 400 + 1 := by omega
        rw [if_pos ⟨hfour, Or.inr hera⟩, hfours, hcenturies, heras]
        omega
      · have heras : (year + 1) / 400 = year / 400 := by omega
        rw [if_neg fun hleap => hleap.2.elim (absurd hcentury) hera, hfours, hcenturies, heras]
        omega
    · have hcenturies : (year + 1) / 100 = year / 100 := by omega
      have heras : (year + 1) / 400 = year / 400 := by omega
      rw [if_pos ⟨hfour, Or.inl hcentury⟩, hfours, hcenturies, heras]
      omega
  · have hfours : (year + 1) / 4 = year / 4 := by omega
    have hcenturies : (year + 1) / 100 = year / 100 := by omega
    have heras : (year + 1) / 400 = year / 400 := by omega
    rw [if_neg fun hleap => hfour hleap.1, hfours, hcenturies, heras]
    omega

theorem month_cases {month : Nat} (h : 0 < month ∧ month ≤ 12) :
    month = 1 ∨ month = 2 ∨ month = 3 ∨ month = 4 ∨ month = 5 ∨ month = 6 ∨ month = 7 ∨ month = 8 ∨ month = 9 ∨ month = 10 ∨
      month = 11 ∨ month = 12 := by omega

/-- The lengths of the months are those of the formula for the first day of a month, but for February, which ends the year. -/
theorem marchMonth_length {month : Nat} (h : 0 < month ∧ month ≤ 12) (hmonth : month ≠ 2) (year : Nat) :
    (153 * (if month ≤ 2 then month + 9 else month - 3) + 2) / 5 + monthLength year month =
      (153 * ((if month ≤ 2 then month + 9 else month - 3) + 1) + 2) / 5 := by
  unfold monthLength
  rw [if_neg hmonth]
  rcases month_cases h with rfl | rfl | rfl | rfl | rfl | rfl | rfl | rfl | rfl | rfl | rfl | rfl
  case inr.inl => exact absurd rfl hmonth
  all_goals rfl

/-- The numbers count the days. -/
theorem number_next {d : Date} (h : d.Exists) : d.next.number = d.number + 1 := by
  obtain ⟨hyear, hmonth, hpos, hday⟩ := h
  unfold next
  split
  · show daysBefore d.marchYear + ((153 * d.marchMonth + 2) / 5 + (d.day + 1 - 1)) =
      daysBefore d.marchYear + ((153 * d.marchMonth + 2) / 5 + (d.day - 1)) + 1
    omega
  rename_i hlast
  have hlast : d.day = monthLength d.year d.month := by omega
  have hlength := marchMonth_length hmonth
  obtain ⟨year, month, day⟩ := d
  unfold number marchDay marchYear marchMonth
  dsimp only at *
  subst hlast
  split
  · rename_i hless
    dsimp only
    by_cases hfebruary : month = 2
    · -- The day after the leap day begins a year.
      subst hfebruary
      have hyears := daysBefore_succ (year - 1)
      rw [Nat.sub_add_cancel hyear] at hyears
      unfold monthLength
      rw [if_pos rfl, if_neg (by decide), if_neg (by decide), if_pos (by decide), if_pos (by decide), hyears]
      split <;> omega
    · have hstart := hlength hfebruary year
      by_cases hearly : month ≤ 2
      · have hjanuary : month = 1 := by omega
        subst hjanuary
        rw [if_pos hearly] at hstart
        rw [if_pos (by decide), if_pos (by decide), if_pos (by decide), if_pos (by decide)]
        omega
      · rw [if_neg hearly] at hstart
        rw [if_neg hearly, if_neg hearly, if_neg (by omega), if_neg (by omega), show month + 1 - 3 = month - 3 + 1 by omega]
        omega
  · have hdecember : month = 12 := by omega
    subst hdecember
    have hstart := hlength (by decide) year
    rw [if_neg (by decide)] at hstart
    dsimp only
    rw [if_pos (by decide), if_pos (by decide), if_neg (by decide), if_neg (by decide), Nat.add_sub_cancel]
    omega

theorem number_iterate {d : Date} (h : d.Exists) (days : Nat) : (Date.next^[days] d).number = d.number + days := by
  induction days with
  | zero => rfl
  | succ days ih =>
    rw [Function.iterate_succ_apply', number_next (exists_iterate h days), ih, Nat.add_assoc]

/-! ## The dates of the numbers -/

/-- The year in its 400 years of a day of these. -/
def yearOfEra (day : Nat) : Nat := (day - day / 1460 + day / 36524 - day / 146096) / 365

/-- The date of a day of a year that begins in March. -/
def ofMarch (year day : Nat) : Date :=
  let month := (5 * day + 2) / 153
  ⟨if month < 10 then year else year + 1, if month < 10 then month + 3 else month - 9, day - (153 * month + 2) / 5 + 1⟩

/-- The date of a number. -/
def ofNumber (number : Nat) : Date :=
  let day := number % 146097
  let year := yearOfEra day
  ofMarch (number / 146097 * 400 + year) (day - (365 * year + year / 4 - year / 100))

/-- The day of a year that begins in March lies in the year, and in the month. -/
theorem marchDay_spec {d : Date} (h : d.Exists) :
    d.marchDay < (if LeapYear (d.marchYear + 1) then 366 else 365) ∧ (5 * d.marchDay + 2) / 153 = d.marchMonth := by
  obtain ⟨hyear, hmonth, hpos, hday⟩ := h
  have hlength := marchMonth_length hmonth
  obtain ⟨year, month, day⟩ := d
  unfold marchDay marchYear marchMonth
  dsimp only at *
  by_cases hfebruary : month = 2
  · subst hfebruary
    unfold monthLength at hday
    rw [if_pos rfl] at hday
    have hnext : (if 2 ≤ 2 then year - 1 else year) + 1 = year := Nat.sub_add_cancel hyear
    rw [hnext, if_pos (show 2 ≤ 2 by decide)]
    split at hday <;> rename_i hleap
    · rw [if_pos hleap]
      omega
    · rw [if_neg hleap]
      omega
  · have hstart := hlength hfebruary year
    have hmarch : (if month ≤ 2 then month + 9 else month - 3) ≤ 10 := by
      split <;> omega
    have hlong : 365 ≤ if LeapYear ((if month ≤ 2 then year - 1 else year) + 1) then 366 else 365 := by
      generalize (if month ≤ 2 then year - 1 else year) + 1 = next
      split <;> decide
    generalize (if month ≤ 2 then month + 9 else month - 3) = march at *
    omega

/-- A day of 400 years, by its hundred years, its four years, its year and its day. -/
theorem yearOfEra_eq {centuries fours years day : Nat} (hcenturies : centuries ≤ 3) (hfours : fours ≤ 24) (hyears : years ≤ 3)
    (hday : day ≤ 365) (hleap : day = 365 → years = 3 ∧ (fours = 24 → centuries = 3)) :
    yearOfEra (36524 * centuries + 1461 * fours + 365 * years + day) = 100 * centuries + 4 * fours + years := by
  unfold yearOfEra
  -- The last day of the 400 years is the only one that the three divisions count again.
  by_cases hlast : centuries = 3 ∧ fours = 24 ∧ years = 3 ∧ day = 365
  · obtain ⟨rfl, rfl, rfl, rfl⟩ := hlast
    rfl
  · have hsmall : 36524 * centuries + 1461 * fours + 365 * years + day < 36524 * (centuries + 1) := by omega
    have hcentury : (36524 * centuries + 1461 * fours + 365 * years + day) / 36524 = centuries := by omega
    have hera : (36524 * centuries + 1461 * fours + 365 * years + day) / 146096 = 0 := by omega
    rw [hcentury, hera]
    by_cases hcarry : 24 * centuries + fours + 365 * years + day < 1460
    · have hfour : (36524 * centuries + 1461 * fours + 365 * years + day) / 1460 = 25 * centuries + fours := by omega
      rw [hfour]
      omega
    · have hfour : (36524 * centuries + 1461 * fours + 365 * years + day) / 1460 = 25 * centuries + fours + 1 := by omega
      rw [hfour]
      omega

/-- A year of 400 years from a day of it. -/
theorem yearOfEra_daysBefore {year day : Nat} (hyear : year < 400) (hday : day < if LeapYear (year + 1) then 366 else 365) :
    yearOfEra (365 * year + year / 4 - year / 100 + day) = year := by
  have hspec := yearOfEra_eq (show year / 100 ≤ 3 by omega) (show year % 100 / 4 ≤ 24 by omega) (show year % 4 ≤ 3 by omega)
    (show day ≤ 365 by split at hday <;> omega)
  have hnumber : 36524 * (year / 100) + 1461 * (year % 100 / 4) + 365 * (year % 4) + day =
      365 * year + year / 4 - year / 100 + day := by omega
  rw [hnumber] at hspec
  rw [hspec]
  · omega
  · rintro rfl
    split at hday
    · rename_i hleap
      unfold LeapYear at hleap
      omega
    · omega

theorem ofMarch_marchDay {d : Date} (h : d.Exists) : ofMarch d.marchYear d.marchDay = d := by
  obtain ⟨-, hmonth⟩ := marchDay_spec h
  obtain ⟨hyear, hmonths, hpos, -⟩ := h
  unfold ofMarch
  dsimp only
  rw [hmonth]
  obtain ⟨year, month, day⟩ := d
  unfold marchDay marchYear marchMonth
  dsimp only at *
  by_cases hearly : month ≤ 2
  · rw [if_pos hearly, if_pos hearly, if_neg (by omega), if_neg (by omega)]
    congr 1 <;> omega
  · rw [if_neg hearly, if_neg hearly, if_pos (by omega), if_pos (by omega)]
    congr 1 <;> omega

/-- The day of the 400 years of a date. -/
theorem daysOfEra_lt {d : Date} (h : d.Exists) :
    365 * (d.marchYear % 400) + d.marchYear % 400 / 4 - d.marchYear % 400 / 100 + d.marchDay < 146097 := by
  have hday := (marchDay_spec h).1
  split at hday
  · rename_i hleap
    unfold LeapYear at hleap
    omega
  · omega

theorem number_eq (d : Date) : d.number = d.marchYear / 400 * 146097 +
    (365 * (d.marchYear % 400) + d.marchYear % 400 / 4 - d.marchYear % 400 / 100 + d.marchDay) := by
  have hfours : d.marchYear / 4 = d.marchYear / 400 * 100 + d.marchYear % 400 / 4 := by omega
  have hcenturies : d.marchYear / 100 = d.marchYear / 400 * 4 + d.marchYear % 400 / 100 := by omega
  unfold number daysBefore
  omega

theorem number_div {d : Date} (h : d.Exists) : d.number / 146097 = d.marchYear / 400 := by
  have hday := daysOfEra_lt h
  have hnumber := number_eq d
  omega

theorem number_mod {d : Date} (h : d.Exists) : d.number % 146097 =
    365 * (d.marchYear % 400) + d.marchYear % 400 / 4 - d.marchYear % 400 / 100 + d.marchDay := by
  have hday := daysOfEra_lt h
  have hnumber := number_eq d
  omega

theorem yearOfEra_number {d : Date} (h : d.Exists) : yearOfEra (d.number % 146097) = d.marchYear % 400 := by
  have hday := (marchDay_spec h).1
  have hleap : LeapYear (d.marchYear % 400 + 1) ↔ LeapYear (d.marchYear + 1) := by
    unfold LeapYear
    omega
  rw [number_mod h]
  exact yearOfEra_daysBefore (Nat.mod_lt _ (by decide)) (by simpa only [hleap] using hday)

/-- The number of a date gives the date back. -/
theorem ofNumber_number {d : Date} (h : d.Exists) : ofNumber d.number = d := by
  unfold ofNumber
  dsimp only
  rw [yearOfEra_number h, number_div h, number_mod h, show d.marchYear / 400 * 400 + d.marchYear % 400 = d.marchYear by omega,
    Nat.add_sub_cancel_left]
  exact ofMarch_marchDay h

theorem number_injective {d d' : Date} (h : d.Exists) (h' : d'.Exists) (heq : d.number = d'.number) : d = d' := by
  rw [← ofNumber_number h, heq, ofNumber_number h']

/-- Of two dates the one with the greater number comes after the other. -/
theorem eq_iterate {d d' : Date} (h : d.Exists) (h' : d'.Exists) (hle : d.number ≤ d'.number) :
    d' = Date.next^[d'.number - d.number] d := by
  refine number_injective h' (exists_iterate h _) ?_
  rw [number_iterate h, Nat.add_sub_cancel' hle]

/-- The numbers are ordered as the dates. -/
theorem number_lt_iff {d d' : Date} (h : d.Exists) (h' : d'.Exists) : d.number < d'.number ↔ d.Before d' := by
  constructor
  · intro hlt
    rw [eq_iterate h h' (Nat.le_of_lt hlt), show d'.number - d.number = d'.number - d.number - 1 + 1 by omega]
    exact before_iterate d _
  · intro hbefore
    by_contra hnot
    have heq := eq_iterate h' h (Nat.le_of_not_lt hnot)
    cases hdays : d.number - d'.number with
    | zero =>
      rw [hdays] at heq
      exact not_before_self d (heq ▸ hbefore)
    | succ days =>
      rw [hdays] at heq
      exact not_before_self d (hbefore.trans (heq ▸ before_iterate d' days))

end Date
/-! ## The weekdays -/

/-- A date and its weekday. -/
structure CalendarDay where
  date : Date
  weekday : Nat
  deriving DecidableEq, Repr

namespace CalendarDay

/-- The next day has the next date and the next weekday. -/
def next (d : CalendarDay) : CalendarDay := ⟨d.date.next, (d.weekday + 1) % 7⟩

theorem iterate_eq {d : CalendarDay} (h : d.weekday < 7) (days : Nat) :
    CalendarDay.next^[days] d = ⟨Date.next^[days] d.date, (d.weekday + days) % 7⟩ := by
  induction days with
  | zero => rw [Nat.add_zero, Nat.mod_eq_of_lt h]; rfl
  | succ days ih =>
    rw [Function.iterate_succ_apply', Function.iterate_succ_apply', ih]
    show CalendarDay.mk _ (((d.weekday + days) % 7 + 1) % 7) = _
    rw [Nat.mod_add_mod, Nat.add_assoc]

end CalendarDay

end Library
