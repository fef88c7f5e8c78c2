import Lifecycle.Number.Double
import Lifecycle.Timestamp.Basic
import Lifecycle.Text.Printable

namespace Lifecycle

inductive TimestampError where
  | malformed (text : String)
  | year (year : Nat)
  | month
  | day
  | hour
  | minute
  | second
  | offset (micros : Int)
deriving DecidableEq, Repr

def spanText (micros : Int) : String :=
  let day : Int := (Timestamp.microsPerDay : Int)
  let second : Int := (Timestamp.microsPerSecond : Int)
  let part (name : String) (n : Int) : List String :=
    if n = 0 then [] else [name ++ "=" ++ Text.decimalOfInt n]
  let parts := part "days" (micros / day) ++ part "seconds" (micros % day / second) ++
    part "microseconds" (micros % second)
  "datetime.timedelta(" ++ (if parts.isEmpty then "0" else ", ".intercalate parts) ++ ")"

def TimestampError.message : TimestampError → String
  | .malformed text => "Invalid isoformat string: " ++ Text.quoted text
  | .year n => "year " ++ Text.decimalOfNat n ++ " is out of range"
  | .month => "month must be in 1..12"
  | .day => "day is out of range for month"
  | .hour => "hour must be in 0..23"
  | .minute => "minute must be in 0..59"
  | .second => "second must be in 0..59"
  | .offset micros =>
    "offset must be a timedelta strictly between -timedelta(hours=24) and timedelta(hours=24), not " ++
      spanText micros ++ "."

namespace Timestamp

def decimals : Nat → List Char → Option (Nat × List Char)
  | 0, cs => some (0, cs)
  | n + 1, c :: cs =>
    if Text.isAsciiDigit c then do
      let (rest, tail) ← decimals n cs
      return (Text.asciiDigitValue c * tenPow n + rest, tail)
    else none
  | _ + 1, [] => none

def zeroChar : Char := '\x00'

-- How many characters belong to the date. A week date may or may not name its
-- weekday, and a following digit tells a weekday from a time.
def dateLength? (cs : List Char) : Option Nat :=
  let size := cs.length
  let charAt (i : Nat) := cs.getD i zeroChar
  if size < 7 then none
  else if size = 7 then some 7
  else if charAt 4 = '-' then
    if charAt 5 = 'W' then
      if 8 < size && charAt 8 = '-' then
        if size = 9 then none
        else if 10 < size && Text.isAsciiDigit (charAt 10) then some 8
        else some 10
      else some 8
    else some 10
  else if charAt 4 = 'W' then
    let run := 7 + ((cs.drop 7).takeWhile Text.isAsciiDigit).length
    if run < 9 then some run else if run % 2 = 0 then some 7 else some 8
  else some 8

def readWeek? (year : Nat) (dashed : Bool) (cs : List Char) : Option CivilDay := do
  let (week, rest) ← decimals 2 cs
  if rest.isEmpty then CivilDay.ofWeek? year week 1
  else
    let rest ← if dashed then (if rest.head? = some '-' then some rest.tail else none) else some rest
    let (weekday, _) ← decimals 1 rest
    CivilDay.ofWeek? year week weekday

def readMonthDay? (year : Nat) (dashed : Bool) (cs : List Char) : Option CivilDay := do
  let (month, rest) ← decimals 2 cs
  let rest ← if dashed then (if rest.head? = some '-' then some rest.tail else none) else some rest
  let (day, rest) ← decimals 2 rest
  if rest.isEmpty then some ⟨year, month, day⟩ else none

def readDate? (cs : List Char) : Option CivilDay := do
  let (year, rest) ← decimals 4 cs
  let dashed := rest.head? = some '-'
  match (if dashed then rest.tail else rest) with
  | 'W' :: week => readWeek? year dashed week
  | rest => readMonthDay? year dashed rest

structure Reading where
  hour : Nat
  minute : Nat
  second : Nat
  micros : Nat
  more : Bool

def Reading.ofParts (parts : List Nat) (micros : Nat) (more : Bool) : Reading :=
  ⟨parts.getD 0 0, parts.getD 1 0, parts.getD 2 0, micros, more⟩

def readFraction (parts : List Nat) (cs : List Char) (room : Nat) : Option Reading := do
  let count := min room 6
  let (value, rest) ← decimals count cs
  let tail := rest.dropWhile Text.isAsciiDigit
  return .ofParts parts (value * tenPow (6 - count)) (tail.headD zeroChar != zeroChar)

-- Hours, minutes and seconds, with colons between them or none at all; a point
-- or a comma may open the fraction after any of them. Room is how many
-- characters stand before the offset, and the last of them may be any ASCII mark.
def readParts : Nat → Bool → List Nat → List Char → Nat → Option Reading
  | 0, _, parts, cs, room => readFraction parts cs room
  | left + 1, colons, parts, cs, room => do
    let (value, rest) ← decimals 2 cs
    let parts := parts ++ [value]
    let mark := rest.headD zeroChar
    let colons := if left = 2 then mark = ':' else colons
    if 127 < mark.toNat then none
    else if room ≤ 3 then return .ofParts parts 0 (mark != zeroChar)
    else if colons && mark = ':' then readParts left colons parts rest.tail (room - 3)
    else if mark = '.' || mark = ',' then readFraction parts rest.tail (room - 3)
    else if !colons then readParts left colons parts rest (room - 2)
    else none

def readClock (cs : List Char) (room : Nat) : Option Reading := readParts 3 true [] cs room

def Reading.total (r : Reading) : Nat :=
  ((r.hour * 60 + r.minute) * 60 + r.second) * microsPerSecond + r.micros

def readOffset? (negative : Bool) (cs : List Char) : Option Int := do
  let r ← readClock cs cs.length
  if r.more then none
  else
    let size := if r.hour = 0 && r.minute = 0 && r.second = 0 then 0 else r.total
    return if negative then -(size : Int) else size

def isSign (c : Char) : Bool := c = '+' || c = '-'

def readTime? (cs : List Char) : Option (Reading × Option Int) := do
  let head := cs.takeWhile (!isSign ·)
  let r ← readClock cs head.length
  match cs.drop head.length with
  | [] => if r.more then none else some (r, none)
  | sign :: rest => do
    let offset ← readOffset? (sign = '-') rest
    return (r, some offset)

def midnightReading : Reading := ⟨0, 0, 0, 0, false⟩

def checkDay (d : CivilDay) : Except TimestampError Unit :=
  if d.year < 1 || CivilDay.maxYear < d.year then .error (.year d.year)
  else if d.month < 1 || 12 < d.month then .error .month
  else if d.day < 1 || CivilDay.daysInMonth d.year d.month < d.day then .error .day
  else .ok ()

def checkReading (r : Reading) : Except TimestampError Unit :=
  if 23 < r.hour then .error .hour
  else if 59 < r.minute then .error .minute
  else if 59 < r.second then .error .second
  else .ok ()

-- An offset stays short of a whole day; it is checked before the date.
def checkOffset (offset : Int) : Except TimestampError Unit :=
  if offset.natAbs < microsPerDay then .ok () else .error (.offset offset)

def readParts? (cs : List Char) : Option (CivilDay × Reading × Option Int) := do
  let size ← dateLength? cs
  let day ← readDate? (cs.take size)
  match cs.drop size with
  | [] => return (day, midnightReading, none)
  | _ :: time => do
    let (r, offset) ← readTime? time
    return (day, r, offset)

def parse (s : String) : Except TimestampError Timestamp :=
  match readParts? s.toList with
  | none => .error (.malformed s)
  | some (day, r, offset) => do
    let offset := offset.getD 0
    checkOffset offset
    checkDay day
    checkReading r
    return ⟨((day.number * microsPerDay + r.total : Nat) : Int), offset⟩

end Timestamp
end Lifecycle
