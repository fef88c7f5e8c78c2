namespace Lifecycle

def twoPow (n : Nat) : Nat := Nat.pow 2 n
def tenPow (n : Nat) : Nat := Nat.pow 10 n

-- A binary64 number. A finite one is a sign and a whole count of the smallest
-- positive step, 2^-1074, so sums, order and scaling are exact on whole numbers
-- and only the rounding below knows about the 53 bits of the significand. What
-- is no number is equal to nothing. It can only be told whether it is the one
-- constant that texts of the wire mean, or stands for itself.
inductive Double where
  | nan (constant : Bool)
  | infinite (negative : Bool)
  | finite (negative : Bool) (steps : Nat)
deriving DecidableEq, Repr, Inhabited

namespace Double

def unit : Nat := twoPow 1074

def overflowSteps : Nat := twoPow 2098

def nearest (num den : Nat) : Nat :=
  let q := num / den
  let r := num % den
  if 2 * r < den then q else if den < 2 * r then q + 1 else q + q % 2

def roundSteps (num den : Nat) : Nat :=
  let width := (num / den).log2 + 1
  if width ≤ 53 then nearest num den
  else nearest num (den * twoPow (width - 53)) * twoPow (width - 53)

def ofSteps (negative : Bool) (num den : Nat) : Double :=
  let steps := roundSteps num den
  if overflowSteps ≤ steps then .infinite negative else .finite negative steps

def ofQuotient (num : Int) (den : Nat) : Double :=
  ofSteps (num < 0) (num.natAbs * unit) den

def ofInt? (i : Int) : Option Double :=
  match ofQuotient i 1 with
  | .infinite _ => none
  | d => some d

-- digits * 10^scale. Far beyond either end of the range the powers of ten are
-- not formed: the number of digits and the scale decide.
def ofDecimal (negative : Bool) (digits : Nat) (scale : Int) : Double :=
  if digits = 0 then .finite negative 0
  else
    let magnitude := (Nat.toDigits 10 digits).length + scale
    if magnitude < -400 then .finite negative 0
    else if 400 < magnitude then .infinite negative
    else if 0 ≤ scale then ofSteps negative (digits * tenPow scale.toNat * unit) 1
    else ofSteps negative (digits * unit) (tenPow scale.natAbs)

def mul : Double → Double → Double
  | .nan _, _ => .nan false
  | _, .nan _ => .nan false
  | .infinite s, .infinite t => .infinite (s != t)
  | .infinite s, .finite t n => if n = 0 then .nan false else .infinite (s != t)
  | .finite s n, .infinite t => if n = 0 then .nan false else .infinite (s != t)
  | .finite s n, .finite t m => ofSteps (s != t) (n * m) unit

def divNat : Double → Nat → Double
  | .nan _, _ => .nan false
  | .infinite s, _ => .infinite s
  | .finite s n, k => ofSteps s n k

def signedSteps (negative : Bool) (steps : Nat) : Int :=
  if negative then -(steps : Int) else steps

def isNan : Double → Bool
  | .nan _ => true
  | _ => false

def isZero : Double → Bool
  | .finite _ n => n = 0
  | _ => false

def whole? : Double → Option Int
  | .finite s n => if n % unit = 0 then some (signedSteps s (n / unit)) else none
  | _ => none

end Double

inductive Number where
  | int (i : Int)
  | real (d : Double)
deriving DecidableEq, Repr, Inhabited

inductive Place where
  | bottom
  | point (steps : Int)
  | top
deriving DecidableEq, Repr

namespace Place

def lt : Place → Place → Bool
  | .bottom, .bottom => false
  | .bottom, _ => true
  | .point _, .bottom => false
  | .point a, .point b => a < b
  | .point _, .top => true
  | .top, _ => false

end Place

namespace Number

def place? : Number → Option Place
  | .int i => some (.point (i * (Double.unit : Int)))
  | .real (.nan _) => none
  | .real (.infinite negative) => some (if negative then .bottom else .top)
  | .real (.finite negative steps) => some (.point (Double.signedSteps negative steps))

def eq (a b : Number) : Bool :=
  match a.place?, b.place? with
  | some x, some y => x = y
  | _, _ => false

def lt (a b : Number) : Bool :=
  match a.place?, b.place? with
  | some x, some y => x.lt y
  | _, _ => false

def le (a b : Number) : Bool := a.lt b || a.eq b

def isZero : Number → Bool
  | .int i => i = 0
  | .real d => d.isZero

end Number
end Lifecycle
