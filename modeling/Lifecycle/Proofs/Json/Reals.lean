import Lifecycle.Proofs.Json.Numbers
import Mathlib.Data.List.DropRight

namespace Lifecycle

namespace Double

structure Leading (digits : List Char) : Prop where
  all : ∀ c ∈ digits, Text.isAsciiDigit c = true
  nonempty : digits ≠ []
  first : digits.head? ≠ some '0'

theorem toDigits_leading (pos : 0 < n) : Leading (Nat.toDigits 10 n) :=
  ⟨Json.toDigits_digits n, Nat.toDigits_ne_nil, Json.toDigits_leading pos⟩

end Double

namespace Json

def rereadReal (negative : Bool) (steps : Nat) : Double :=
  (Numeral.readDecimal negative (Double.magnitudeText steps).toList).getD (.finite negative steps)

end Json
end Lifecycle
