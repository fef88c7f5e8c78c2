import Lifecycle.Number.Double
import Lifecycle.Text.Basic

namespace Lifecycle

structure CivilDay where
  year : Nat
  month : Nat
  day : Nat
deriving DecidableEq, Repr

namespace CivilDay

def maxYear : Nat := 9999

def isLeap (year : Nat) : Bool := year % 4 = 0 && (year % 100 != 0 || year % 400 = 0)

def monthLengths (leap : Bool) : List Nat :=
  [31, if leap then 29 else 28, 31, 30, 31, 30, 31, 31, 30, 31, 30, 31]

def daysInMonth (year month : Nat) : Nat := (monthLengths (isLeap year)).getD (month - 1) 0

def daysBeforeYear (year : Nat) : Nat :=
  let past := year - 1
  past * 365 + past / 4 - past / 100 + past / 400

def daysBeforeMonth (year month : Nat) : Nat :=
  ((monthLengths (isLeap year)).take (month - 1)).foldr (· + ·) 0

def number (c : CivilDay) : Nat :=
  daysBeforeYear c.year + daysBeforeMonth c.year c.month + c.day - 1

def monthOf : List Nat → Nat → Nat → Nat × Nat
  | [], month, rest => (month, rest + 1)
  | [_], month, rest => (month, rest + 1)
  | length :: lengths, month, rest =>
    if rest < length then (month, rest + 1) else monthOf lengths (month + 1) (rest - length)

-- Whole cycles of four hundred, one hundred, four and one years are taken off
-- in turn; the last day of a cycle belongs to the cycle's last year.
def ofNumber (n : Nat) : CivilDay :=
  let cycles := n / 146097
  let n := n % 146097
  let centuries := min (n / 36524) 3
  let n := n - centuries * 36524
  let fours := n / 1461
  let n := n % 1461
  let ones := min (n / 365) 3
  let rest := n - ones * 365
  let year := cycles * 400 + centuries * 100 + fours * 4 + ones + 1
  let (month, day) := monthOf (monthLengths (isLeap year)) 1 rest
  ⟨year, month, day⟩

def weekday (number : Nat) : Nat := number % 7

def weekOneMonday (year : Nat) : Int :=
  let first := daysBeforeYear year
  let monday : Int := (first : Int) - weekday first
  if 3 < weekday first then monday + 7 else monday

def hasLongWeeks (year : Nat) : Bool :=
  let first := weekday (daysBeforeYear year)
  first = 3 || (first = 2 && isLeap year)

def beforeAll : CivilDay := ⟨1, 0, 0⟩

def ofWeek? (year week weekday : Nat) : Option CivilDay :=
  if week = 0 || 53 < week || (week = 53 && !hasLongWeeks year) then none
  else if weekday = 0 || 7 < weekday then none
  else if year = 0 then some beforeAll
  else some (ofNumber (weekOneMonday year + ((week - 1) * 7 + (weekday - 1) : Nat)).toNat)

end CivilDay

-- A moment as some clock on Earth shows it: microseconds since the first day of
-- year one on that clock, and how far the clock is ahead of universal time.
structure Timestamp where
  clock : Int
  offset : Int
deriving DecidableEq, Repr

namespace Timestamp

def microsPerSecond : Nat := 1000000
def microsPerMinute : Nat := 60 * microsPerSecond
def microsPerHour : Nat := 60 * microsPerMinute
def microsPerDay : Nat := 24 * microsPerHour

def endOfTime : Int := ((CivilDay.daysBeforeYear (CivilDay.maxYear + 1) * microsPerDay : Nat) : Int)

def moment (t : Timestamp) : Int := t.clock - t.offset

def before (a b : Timestamp) : Bool := a.moment < b.moment

def shift? (t : Timestamp) (micros : Int) : Option Timestamp :=
  let clock := t.clock + micros
  if 0 ≤ clock && clock < endOfTime then some { t with clock } else none

def midnight (year month day : Nat) : Timestamp :=
  ⟨((CivilDay.number ⟨year, month, day⟩ * microsPerDay : Nat) : Int), 0⟩

def fractionText (micros : Nat) : String :=
  if micros = 0 then "" else "." ++ Text.padded 6 micros

def offsetText (offset : Int) : String :=
  let size := offset.natAbs
  let seconds := size / microsPerSecond % 60
  let micros := size % microsPerSecond
  let tail := if seconds = 0 && micros = 0 then "" else ":" ++ Text.padded 2 seconds ++ fractionText micros
  (if offset < 0 then "-" else "+") ++ Text.padded 2 (size / microsPerHour) ++ ":" ++
    Text.padded 2 (size / microsPerMinute % 60) ++ tail

def text (t : Timestamp) : String :=
  let clock := t.clock.toNat
  let day := CivilDay.ofNumber (clock / microsPerDay)
  Text.padded 4 day.year ++ "-" ++ Text.padded 2 day.month ++ "-" ++ Text.padded 2 day.day ++ "T" ++
    Text.padded 2 (clock / microsPerHour % 24) ++ ":" ++ Text.padded 2 (clock / microsPerMinute % 60) ++ ":" ++
    Text.padded 2 (clock / microsPerSecond % 60) ++ fractionText (clock % microsPerSecond) ++
    offsetText t.offset

-- Seconds, thousandths and the wanted unit, each rounded on the way.
def elapsed (later earlier : Timestamp) (unitMillis : Nat) : Double :=
  let seconds := Double.ofQuotient (later.moment - earlier.moment) microsPerSecond
  (seconds.mul (.ofQuotient 1000 1)).divNat unitMillis

end Timestamp
end Lifecycle
