import Mathlib.Algebra.Order.Ring.Int
import Mathlib.Data.List.Basic

/-! Dates of the Gregorian calendar as ordinals, and RFC 3339 texts as microseconds since the epoch. -/

namespace Callisto.Library.Dates

def number (digits : List Char) : Option ℕ :=
  if digits ≠ [] ∧ digits.all Char.isDigit then some (digits.foldl (fun value digit => 10 * value + (digit.toNat - '0'.toNat)) 0) else none

def isLeap (year : ℕ) : Bool := year % 4 = 0 ∧ (year % 100 ≠ 0 ∨ year % 400 = 0)

def daysInMonths (year : ℕ) : List ℕ := [31, if isLeap year then 29 else 28, 31, 30, 31, 30, 31, 31, 30, 31, 30, 31]

/-- `date(year, month, day).toordinal()` -/
def dateOrdinal (year month day : ℕ) : Option ℤ :=
  if 1 ≤ year ∧ 1 ≤ month ∧ month ≤ 12 ∧ 1 ≤ day ∧ day ≤ (daysInMonths year).getD (month - 1) 0 then
    some ((year - 1) * 365 + (year - 1) / 4 - (year - 1) / 100 + (year - 1) / 400 + ((daysInMonths year).take (month - 1)).sum + day : ℕ)
  else none

/-- `datetime.strptime(name, "%Y-%m-%d").date()` -/
def strptimeDay (name : String) : Option ℤ :=
  match name.toList.splitOn '-' with
  | [year, month, day] =>
    if year.length = 4 ∧ month.length ≤ 2 ∧ day.length ≤ 2 then do
      dateOrdinal (← number year) (← number month) (← number (if day.head? = some ' ' then day.tail else day))
    else none
  | _ => none

def readFraction : List Char → Option (ℕ × List Char)
  | '.' :: rest =>
    let digits := rest.takeWhile Char.isDigit
    if digits.length ≤ 6 then (number digits).map fun value => (value * 10 ^ (6 - digits.length), rest.dropWhile Char.isDigit) else none
  | rest => some (0, rest)

def readOffset : List Char → Option ℤ
  | ['Z'] => some 0
  | [sign, hourTens, hourUnits, ':', minuteTens, minuteUnits] => do
    let minutes := 60 * (← number [hourTens, hourUnits]) + (← number [minuteTens, minuteUnits])
    if minutes < 24 * 60 then
      if sign = '+' then some (minutes : ℤ) else if sign = '-' then some (-minutes : ℤ) else none
    else none
  | _ => none

/-- The instant of an RFC 3339 text that `datetime.fromisoformat` reads, with at most six digits of a fraction: microseconds since
1970-01-01 in UTC. Near the first and the last day it may be no `datetime`. -/
def rfc3339Micros (text : String) : Option ℤ :=
  let chars := text.toList
  let part (start length : ℕ) : Option ℕ := number ((chars.drop start).take length)
  if 20 ≤ chars.length ∧ [4, 7, 10, 13, 16].map (chars[·]?) = ['-', '-', 'T', ':', ':'].map some then do
    let ordinal ← dateOrdinal (← part 0 4) (← part 5 2) (← part 8 2)
    let hour ← part 11 2
    let minute ← part 14 2
    let second ← part 17 2
    let (micros, zone) ← readFraction (chars.drop 19)
    let offset ← readOffset zone
    if hour < 24 ∧ minute < 60 ∧ second < 60 then
      some ((((ordinal - 719163) * 86400 + hour * 3600 + minute * 60 + second - offset * 60) * 1000000 + micros : ℤ))
    else none
  else none

/-- The instants of `datetime.min` and `datetime.max` in UTC. -/
def minMicros : ℤ := (1 - 719163) * 86400 * 1000000

def maxMicros : ℤ := (3652060 - 719163) * 86400 * 1000000 - 1

end Callisto.Library.Dates
