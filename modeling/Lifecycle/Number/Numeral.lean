import Lifecycle.Number.Double
import Lifecycle.Text.Basic
import Lifecycle.Text.Printable

namespace Lifecycle

inductive NumeralError where
  | notInteger (text : String)
  | tooManyDigits (count : Nat)
  | notReal (text : String)
  | infiniteInteger
  | nanInteger
  | realOverflow
deriving DecidableEq, Repr

def NumeralError.message : NumeralError → String
  | .notInteger text =>
    "invalid literal for int() with base 10: " ++ String.ofList ((Text.quoted text).toList.take 200)
  | .tooManyDigits count =>
    "Exceeds the limit (4300 digits) for integer string conversion: value has " ++
      Text.decimalOfNat count ++ " digits; use sys.set_int_max_str_digits() to increase the limit"
  | .notReal text => "could not convert string to float: " ++ Text.quoted text
  | .infiniteInteger => "cannot convert float infinity to integer"
  | .nanInteger => "cannot convert float NaN to integer"
  | .realOverflow => "int too large to convert to float"

namespace Numeral
open Text

def digitLimit : Nat := 4300

def plainChar (c : Char) : Char :=
  if c.toNat < 128 then c
  else if isBlank c then ' '
  else match digitValue? c with
    | some d => Nat.digitChar d
    | none => c

-- The separators among the ASCII controls are blanks, but none that a numeral
-- may have around it.
def isMargin (c : Char) : Bool := c = ' ' || (9 ≤ c.toNat && c.toNat ≤ 13)

def plain (s : String) : List Char :=
  (((s.toList.map plainChar).dropWhile isMargin).reverse.dropWhile isMargin).reverse

def splitSign : List Char → Bool × List Char
  | '-' :: rest => (true, rest)
  | '+' :: rest => (false, rest)
  | cs => (false, cs)

def signed (negative : Bool) (n : Nat) : Int := if negative then -(n : Int) else n

-- Digits with single underscores between them. The first part is the digits,
-- the second the rest; an underscore that no digit follows is left in the rest.
def splitGrouped : List Char → List Char × List Char
  | [] => ([], [])
  | '_' :: d :: rest =>
    if isAsciiDigit d then
      let (digits, tail) := splitGrouped rest
      (d :: digits, tail)
    else ([], '_' :: d :: rest)
  | c :: rest =>
    if isAsciiDigit c then
      let (digits, tail) := splitGrouped rest
      (c :: digits, tail)
    else ([], c :: rest)

-- A text read as an integer: blanks around it, a sign, digits of any script.
-- A misplaced underscore is noticed first; then the digits before the first
-- other character decide about the limit.
def readInteger (s : String) : Except NumeralError Int :=
  let (negative, body) := splitSign (plain s)
  match body with
  | '_' :: _ => .error (.notInteger s)
  | _ =>
    let (digits, rest) := splitGrouped body
    if rest.head? = some '_' then .error (.notInteger s)
    else if digitLimit < digits.length then .error (.tooManyDigits digits.length)
    else if digits.isEmpty || !rest.isEmpty then .error (.notInteger s)
    else .ok (signed negative (natOfAscii digits))

def splitExponent : List Char → Option (Int × List Char)
  | c :: rest =>
    if c = 'e' || c = 'E' then
      let (negative, body) := splitSign rest
      let digits := body.takeWhile isAsciiDigit
      if digits.isEmpty then none
      else some (signed negative (natOfAscii digits), body.dropWhile isAsciiDigit)
    else none
  | [] => none

def readDecimal (negative : Bool) (cs : List Char) : Option Double :=
  let whole := cs.takeWhile isAsciiDigit
  let afterWhole := cs.dropWhile isAsciiDigit
  let (fraction, rest) := match afterWhole with
    | '.' :: tail => (tail.takeWhile isAsciiDigit, tail.dropWhile isAsciiDigit)
    | _ => ([], afterWhole)
  if whole.isEmpty && fraction.isEmpty then none
  else
    let digits := natOfAscii (whole ++ fraction)
    match rest with
    | [] => some (.ofDecimal negative digits (-(fraction.length : Int)))
    | _ => match splitExponent rest with
      | some (exponent, []) => some (.ofDecimal negative digits (exponent - fraction.length))
      | _ => none

def dropUnderscores : Char → List Char → Option (List Char)
  | _, [] => some []
  | before, '_' :: d :: rest =>
    if isAsciiDigit before && isAsciiDigit d then (dropUnderscores d rest).map (d :: ·) else none
  | _, ['_'] => none
  | _, c :: rest => (dropUnderscores c rest).map (c :: ·)

def readNamed (negative : Bool) (cs : List Char) : Option Double :=
  let word := cs.map Char.toLower
  if word = "inf".toList || word = "infinity".toList then some (.infinite negative)
  else if word = "nan".toList then some (.nan false)
  else none

def readReal? (s : String) : Option Double := do
  let cs ← dropUnderscores ' ' (plain s)
  let (negative, body) := splitSign cs
  (readNamed negative body) <|> (readDecimal negative body)

def readReal (s : String) : Except NumeralError Double :=
  match readReal? s with
  | some d => .ok d
  | none => .error (.notReal s)

def truncate : Double → Except NumeralError Int
  | .nan _ => .error .nanInteger
  | .infinite _ => .error .infiniteInteger
  | .finite negative steps => .ok (signed negative (steps / Double.unit))

def realOfInteger (i : Int) : Except NumeralError Double :=
  match Double.ofInt? i with
  | some d => .ok d
  | none => .error .realOverflow

end Numeral
end Lifecycle

namespace Lifecycle.Double

def leadingExponent (steps : Nat) : Int :=
  if unit ≤ steps then (Nat.toDigits 10 (steps / unit)).length - 1
  else
    match (List.range 330).find? fun k => unit ≤ steps * tenPow (k + 1) with
    | some k => -(k + 1)
    | none => 0

-- The numbers that round to a given one form an interval around it. Its half
-- widths, in half steps, are the distances to the neighbours: below a power of
-- two the neighbour is only half as far. The ends belong to the interval when
-- the significand is even.
structure Interval where
  below : Nat
  above : Nat
  closed : Bool

def interval (steps : Nat) : Interval :=
  let shift := steps.log2 - 52
  let gap := twoPow shift
  { below := if 1 ≤ shift && steps = twoPow (52 + shift) then gap / 2 else gap
    above := gap
    closed := (steps / gap) % 2 = 0 }

-- A point of the decimal grid 10^exponent, taken when it lies in the interval.
-- The two points next to the value are tried; of two hits the nearer one wins,
-- and of two equally near ones the even one.
def gridPoint? (steps : Nat) (exponent : Int) : Option Nat :=
  let num := if exponent < 0 then steps * tenPow exponent.natAbs else steps
  let den := if exponent < 0 then unit else unit * tenPow exponent.toNat
  let scale := if exponent < 0 then tenPow exponent.natAbs else 1
  let i := interval steps
  let low := num / den
  let down := num - low * den
  let up := (low + 1) * den - num
  let fits (distance width : Nat) : Bool :=
    if i.closed then 2 * distance ≤ width * scale else 2 * distance < width * scale
  let lowFits := fits down i.below && 0 < low
  let highFits := fits up i.above
  if lowFits && highFits then
    if down < up then some low
    else if up < down then some (low + 1)
    else some (low + low % 2)
  else if lowFits then some low
  else if highFits then some (low + 1)
  else none

def shortest (steps : Nat) : Nat × Int :=
  let lead := leadingExponent steps
  let hit := (List.range 17).findSome? fun (k : Nat) =>
    (gridPoint? steps (lead - (k : Int))).map fun n => (n, lead - (k : Int))
  hit.getD (steps, 0)

def dropTrailingZeros (digits : List Char) : List Char :=
  (digits.reverse.dropWhile (· = '0')).reverse

-- Positional notation when the leading digit stands in the places from 10^-4 to
-- 10^15, always with a decimal; else scientific with two exponent digits at least.
def positional (digits : List Char) (lead : Int) : List Char :=
  if lead < 0 then '0' :: '.' :: (List.replicate (lead.natAbs - 1) '0' ++ digits)
  else
    let count := lead.toNat + 1
    let whole := digits.take count ++ List.replicate (count - digits.length) '0'
    let rest := digits.drop count
    whole ++ '.' :: (if rest.isEmpty then ['0'] else rest)

def scientific (digits : List Char) (lead : Int) : List Char :=
  let mantissa := match digits with
    | [] => []
    | [d] => [d]
    | d :: rest => d :: '.' :: rest
  mantissa ++ 'e' :: (if lead < 0 then '-' else '+') :: (Text.padded 2 lead.natAbs).toList

def magnitudeText (steps : Nat) : String :=
  if steps = 0 then "0.0"
  else
    let (n, last) := shortest steps
    let all := Nat.toDigits 10 n
    let lead := last + (all.length : Int) - 1
    let digits := dropTrailingZeros all
    String.ofList (if -4 ≤ lead && lead < 16 then positional digits lead else scientific digits lead)

def text : Double → String
  | .nan _ => "nan"
  | .infinite negative => if negative then "-inf" else "inf"
  | .finite negative steps => if negative then "-" ++ magnitudeText steps else magnitudeText steps

end Lifecycle.Double
