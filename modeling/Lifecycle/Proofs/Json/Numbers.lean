import Lifecycle.Json.Parser
import Lifecycle.Json.Printer
import Lifecycle.Proofs.Timestamp.Digits
import Mathlib.Algebra.GroupWithZero.Nat

namespace Lifecycle.Json

open Text

structure EndsNumber (tail : List Char) : Prop where
  digit : ∀ c ∈ tail.head?, isAsciiDigit c = false
  point : ∀ c ∈ tail.head?, c ≠ '.'
  power : ∀ c ∈ tail.head?, c ≠ 'e' ∧ c ≠ 'E'

theorem digits_end {cs tail : List Char} (digits : ∀ c ∈ cs, isAsciiDigit c = true)
    (ends : ∀ c ∈ tail.head?, isAsciiDigit c = false) :
    (cs ++ tail).takeWhile isAsciiDigit = cs ∧ (cs ++ tail).dropWhile isAsciiDigit = tail := by
  rw [List.takeWhile_append_of_pos digits, List.dropWhile_append_of_pos digits]
  cases tail with
  | nil => simp
  | cons c rest =>
    have other : isAsciiDigit c = false := ends c rfl
    simp [other]

-- The digits of a whole number as they are written: no zero comes first but the only one.
structure Whole (cs : List Char) : Prop where
  digits : ∀ c ∈ cs, isAsciiDigit c = true
  nonempty : cs ≠ []
  leading : cs.head? = some '0' → cs = ['0']

inductive Fraction : List Char → Prop where
  | none : Fraction []
  | digits (all : ∀ c ∈ cs, isAsciiDigit c = true) (nonempty : cs ≠ []) : Fraction ('.' :: cs)

inductive Power : List Char → Prop where
  | none : Power []
  | digits (signed : sign = '-' ∨ sign = '+') (all : ∀ c ∈ cs, isAsciiDigit c = true) (nonempty : cs ≠ []) :
    Power ('e' :: sign :: cs)

structure Numeral.Parts where
  negative : Bool
  whole : List Char
  fraction : List Char
  power : List Char

namespace Numeral.Parts

def chars (p : Numeral.Parts) : List Char :=
  (if p.negative then ['-'] else []) ++ (p.whole ++ (p.fraction ++ p.power))

structure Sound (p : Numeral.Parts) : Prop where
  whole : Whole p.whole
  fraction : Fraction p.fraction
  power : Power p.power

variable {p : Numeral.Parts}

end Numeral.Parts

theorem toDigits_digits (n : Nat) : ∀ c ∈ Nat.toDigits 10 n, isAsciiDigit c = true := by
  intro c member
  have range := Nat.isDigit_of_mem_toDigits (by decide) (by decide) member
  simpa [Char.isDigit, isAsciiDigit, Char.le_def] using range

theorem toDigits_leading (pos : 0 < n) : (Nat.toDigits 10 n).head? ≠ some '0' := by
  induction n using Nat.strongRecOn with
  | ind n ih =>
    by_cases single : n < 10
    · have other : n ≠ 0 := Nat.ne_of_gt pos
      rw [Nat.toDigits_of_lt_base single]
      simpa using other
    · have before := ih (n / 10) (Nat.div_lt_self pos (by decide)) (by omega)
      have some : Nat.toDigits 10 (n / 10) ≠ [] := Nat.toDigits_ne_nil
      obtain ⟨c, rest, shape⟩ := List.exists_cons_of_ne_nil some
      rw [Nat.toDigits_of_base_le (by decide) (Nat.not_lt.mp single), shape]
      rw [shape] at before
      exact before

theorem toDigits_whole (n : Nat) : Whole (Nat.toDigits 10 n) := by
  refine ⟨toDigits_digits n, Nat.toDigits_ne_nil, ?_⟩
  intro zero
  cases n with
  | zero => rfl
  | succ n => exact absurd zero (toDigits_leading (Nat.succ_pos n))

def integerParts (i : Int) : Numeral.Parts := ⟨i < 0, Nat.toDigits 10 i.natAbs, [], []⟩

theorem integer_chars (i : Int) : (Text.decimalOfInt i).toList = (integerParts i).chars := by
  unfold Text.decimalOfInt Text.decimalOfNat Numeral.Parts.chars integerParts
  by_cases negative : i < 0
  · have mark : "-".toList = ['-'] := rfl
    simp [negative, mark]
  · simp [negative]

end Lifecycle.Json
