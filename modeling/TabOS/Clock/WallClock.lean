import Mathlib.Data.BitVec
import TabOS.Library.Calendar

/-!
# The wall clock

The conversions between seconds and date-times, of `time/wall_clock.c` and, once more, of `sdk/lib/clock.c`. The words have the widths of
the source: a division of signed words is truncated, the others and the conversions between the widths wrap. A pointer to a date-time
may be `none`; of a pointer to a result it matters only whether it is given, and the result is the value that is written, if there is
one.
-/

namespace TabOS
namespace Clock

/-- `tabos_datetime_t`. -/
structure Datetime where
  year : BitVec 32
  month : BitVec 8
  day : BitVec 8
  weekday : BitVec 8
  hour : BitVec 8
  minute : BitVec 8
  second : BitVec 8
  deriving DecidableEq, Repr

/-! ## The kernel -/

/-- `leap_year`. -/
def leapYear (year : BitVec 32) : Bool :=
  decide (year.srem 4 = 0) && (decide (year.srem 100 ≠ 0) || decide (year.srem 400 = 0))

/-- The table of `days_in_month`. -/
def days : List (BitVec 8) := [31, 28, 31, 30, 31, 30, 31, 31, 30, 31, 30, 31]

/-- `days_in_month`, of a month from 1 to 12. -/
def daysInMonth (year : BitVec 32) (month : BitVec 8) : BitVec 8 :=
  if month = 2 ∧ leapYear year = true then 29 else days.getD (month.toNat - 1) 0

/-- `days_from_civil`. -/
def daysFromCivil (year : BitVec 32) (month day : BitVec 8) : BitVec 64 :=
  let adjustedYear := if month ≤ 2 then year.signExtend 64 - 1 else year.signExtend 64
  let era := if (0#64).sle adjustedYear then adjustedYear.sdiv 400 else (adjustedYear - 399).sdiv 400
  let yearOfEra := (adjustedYear - era * 400).setWidth 32
  let adjustedMonth := if 2 < month then month.setWidth 32 - 3 else month.setWidth 32 + 9
  let dayOfYear := (153 * adjustedMonth + 2) / 5 + day.setWidth 32 - 1
  let dayOfEra := yearOfEra * 365 + yearOfEra / 4 - yearOfEra / 100 + dayOfYear
  era * 146097 + dayOfEra.setWidth 64 - 719468

/-- `wall_clock_datetime_valid`. -/
def wallClockDatetimeValid : Option Datetime → Bool
  | none => false
  | some datetime =>
    if datetime.year.slt 1970 ∨ (9999#32).slt datetime.year ∨ datetime.month < 1 ∨ 12 < datetime.month ∨ datetime.day < 1 ∨
        23 < datetime.hour ∨ 59 < datetime.minute ∨ 59 < datetime.second ∨ 6 < datetime.weekday then false
    else decide (datetime.day ≤ daysInMonth datetime.year datetime.month)

/-- `wall_clock_datetime_to_epoch`. -/
def wallClockDatetimeToEpoch (datetime : Option Datetime) (given : Bool) : Option (BitVec 64) :=
  if wallClockDatetimeValid datetime = false ∨ given = false then none
  else
    match datetime with
    | none => none
    | some datetime =>
      let days := daysFromCivil datetime.year datetime.month datetime.day
      some (days * 86400 + datetime.hour.setWidth 64 * 3600 + datetime.minute.setWidth 64 * 60 + datetime.second.setWidth 64)

/-- `wall_clock_epoch_to_datetime`. -/
def wallClockEpochToDatetime (seconds : BitVec 64) (given : Bool) : Option Datetime :=
  if given = false ∨ seconds.slt 0 ∨ (253402300799#64).slt seconds then none
  else
    let days := seconds.sdiv 86400
    let daily := seconds.srem 86400
    let weekdayDays := days + 4
    let days := days + 719468
    let era := if (0#64).sle days then days.sdiv 146097 else (days - 146096).sdiv 146097
    let dayOfEra := (days - era * 146097).setWidth 32
    let yearOfEra := (dayOfEra - dayOfEra / 1460 + dayOfEra / 36524 - dayOfEra / 146096) / 365
    let year := yearOfEra + era.setWidth 32 * 400
    let dayOfYear := dayOfEra - (365 * yearOfEra + yearOfEra / 4 - yearOfEra / 100)
    let monthPrime := (5 * dayOfYear + 2) / 153
    let day := (dayOfYear - (153 * monthPrime + 2) / 5 + 1).setWidth 8
    let month := (if monthPrime < 10 then monthPrime + 3 else monthPrime - 9).setWidth 8
    let year := if month ≤ 2 then year + 1 else year
    if year.slt 1970 ∨ (9999#32).slt year then none
    else
      some {
        year := year
        month := month
        day := day
        weekday := (weekdayDays.srem 7).setWidth 8
        hour := (daily.sdiv 3600).setWidth 8
        minute := ((daily.srem 3600).sdiv 60).setWidth 8
        second := (daily.srem 60).setWidth 8 }

/-! ## The SDK -/

/-- `leap_year` of the SDK. -/
def sdkLeapYear (year : BitVec 32) : Bool :=
  decide (year.srem 4 = 0) && (decide (year.srem 100 ≠ 0) || decide (year.srem 400 = 0))

/-- The table of `days_in_month` of the SDK. -/
def sdkDays : List (BitVec 8) := [31, 28, 31, 30, 31, 30, 31, 31, 30, 31, 30, 31]

/-- `days_in_month` of the SDK. -/
def sdkDaysInMonth (year : BitVec 32) (month : BitVec 8) : BitVec 8 :=
  if month = 2 ∧ sdkLeapYear year = true then 29 else sdkDays.getD (month.toNat - 1) 0

/-- `datetime_valid`. -/
def datetimeValid : Option Datetime → Bool
  | none => false
  | some datetime =>
    if datetime.year.slt 1970 ∨ (9999#32).slt datetime.year ∨ datetime.month < 1 ∨ 12 < datetime.month ∨ datetime.day < 1 ∨
        23 < datetime.hour ∨ 59 < datetime.minute ∨ 59 < datetime.second ∨ 6 < datetime.weekday then false
    else decide (datetime.day ≤ sdkDaysInMonth datetime.year datetime.month)

/-- `datetime_to_epoch`. -/
def datetimeToEpoch (datetime : Option Datetime) (given : Bool) : Option (BitVec 64) :=
  if datetimeValid datetime = false ∨ given = false then none
  else
    match datetime with
    | none => none
    | some datetime =>
      let year := if datetime.month ≤ 2 then datetime.year.signExtend 64 - 1 else datetime.year.signExtend 64
      let era := if (0#64).sle year then year.sdiv 400 else (year - 399).sdiv 400
      let yearOfEra := (year - era * 400).setWidth 32
      let adjustedMonth := if 2 < datetime.month then datetime.month.setWidth 32 - 3 else datetime.month.setWidth 32 + 9
      let dayOfYear := (153 * adjustedMonth + 2) / 5 + datetime.day.setWidth 32 - 1
      let dayOfEra := yearOfEra * 365 + yearOfEra / 4 - yearOfEra / 100 + dayOfYear
      let days := era * 146097 + dayOfEra.setWidth 64 - 719468
      some (days * 86400 + datetime.hour.setWidth 64 * 3600 + datetime.minute.setWidth 64 * 60 + datetime.second.setWidth 64)

/-- `epoch_to_datetime`. -/
def epochToDatetime (seconds : BitVec 64) (given : Bool) : Option Datetime :=
  if seconds.slt 0 ∨ (253402300799#64).slt seconds ∨ given = false then none
  else
    let days := seconds.sdiv 86400
    let daily := seconds.srem 86400
    let weekdayDay := days + 4
    let days := days + 719468
    let era := if (0#64).sle days then days.sdiv 146097 else (days - 146096).sdiv 146097
    let dayOfEra := (days - era * 146097).setWidth 32
    let yearOfEra := (dayOfEra - dayOfEra / 1460 + dayOfEra / 36524 - dayOfEra / 146096) / 365
    let year := yearOfEra + era.setWidth 32 * 400
    let dayOfYear := dayOfEra - (365 * yearOfEra + yearOfEra / 4 - yearOfEra / 100)
    let monthPrime := (5 * dayOfYear + 2) / 153
    let day := (dayOfYear - (153 * monthPrime + 2) / 5 + 1).setWidth 8
    let month := (if monthPrime < 10 then monthPrime + 3 else monthPrime - 9).setWidth 8
    let year := if month ≤ 2 then year + 1 else year
    if year.slt 1970 ∨ (9999#32).slt year then none
    else
      some {
        year := year
        month := month
        day := day
        weekday := (weekdayDay.srem 7).setWidth 8
        hour := (daily.sdiv 3600).setWidth 8
        minute := ((daily.srem 3600).sdiv 60).setWidth 8
        second := (daily.srem 60).setWidth 8 }

end Clock
end TabOS
