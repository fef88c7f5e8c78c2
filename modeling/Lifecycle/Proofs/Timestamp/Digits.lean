import Lifecycle.Timestamp.Parser

namespace Lifecycle

namespace Text

theorem asciiDigit_exact : isAsciiDigit c = true ↔ 48 ≤ c.toNat ∧ c.toNat ≤ 57 := by
  simp only [isAsciiDigit, Bool.and_eq_true, decide_eq_true_eq]
  rfl

theorem asciiDigitValue_bound (digit : isAsciiDigit c = true) : asciiDigitValue c < 10 := by
  have range := asciiDigit_exact.mp digit
  change c.toNat - 48 < 10
  omega

theorem natOfAscii_chars (cs : List Char) : natOfAscii cs = Nat.ofDigitChars 10 cs 0 := by
  simp [natOfAscii, natOfDigits, asciiDigitValue, Nat.ofDigitChars_eq_foldl, List.foldl_map]

theorem natOfAscii_cons (c : Char) (cs : List Char) :
    natOfAscii (c :: cs) = asciiDigitValue c * tenPow cs.length + natOfAscii cs := by
  rw [natOfAscii_chars, natOfAscii_chars, Nat.ofDigitChars_cons, Nat.ofDigitChars_eq_ofDigitChars_zero,
    Nat.mul_zero, Nat.zero_add, Nat.mul_comm]
  rfl

section
variable {width n : Nat}

theorem padded_digits (digit : c ∈ (padded width n).toList) : isAsciiDigit c = true := by
  rw [padded, String.toList_ofList, List.mem_append] at digit
  rcases digit with zero | own
  · rw [List.eq_of_mem_replicate zero]
    rfl
  · have range := Nat.isDigit_of_mem_toDigits (by decide) (by decide) own
    simpa [Char.isDigit, isAsciiDigit, Char.le_def] using range

theorem padded_length (width : Nat) (wide : 0 < width) (small : n < tenPow width) :
    (padded width n).toList.length = width := by
  have fits : (Nat.toDigits 10 n).length ≤ width :=
    (Nat.length_toDigits_le_iff (by decide) wide).mpr small
  rw [padded, String.toList_ofList, List.length_append, List.length_replicate]
  omega

theorem padded_value (width n : Nat) : natOfAscii (padded width n).toList = n := by
  rw [natOfAscii_chars, padded, String.toList_ofList, Nat.ofDigitChars_append,
    Nat.ofDigitChars_replicate_zero, Nat.mul_zero, Nat.ofDigitChars_ten_toDigits]

end

end Text

namespace Timestamp
open Text

theorem decimals_digits (cs : List Char) (digits : ∀ c ∈ cs, isAsciiDigit c = true) (rest : List Char) :
    decimals cs.length (cs ++ rest) = some (natOfAscii cs, rest) := by
  induction cs with
  | nil => rfl
  | cons c cs ih =>
    have first : isAsciiDigit c = true := digits c List.mem_cons_self
    have others := ih fun d member => digits d (List.mem_cons_of_mem c member)
    rw [natOfAscii_cons]
    simp [decimals, first, others]

theorem decimals_padded (width : Nat) (wide : 0 < width) (small : n < tenPow width) (rest : List Char) :
    decimals width ((padded width n).toList ++ rest) = some (n, rest) := by
  have read := decimals_digits (padded width n).toList (fun _ digit => padded_digits digit) rest
  rwa [padded_length width wide small, padded_value] at read

theorem decimals_bound (read : decimals width cs = some (n, rest)) : n < tenPow width := by
  induction width generalizing cs n rest with
  | zero =>
    cases read
    decide
  | succ width ih =>
    cases cs with
    | nil => simp [decimals] at read
    | cons c cs =>
      simp only [decimals] at read
      split at read
      · rename_i digit
        obtain ⟨⟨value, tail⟩, others, read⟩ := Option.bind_eq_some_iff.mp read
        cases read
        have first := asciiDigitValue_bound digit
        have behind := ih others
        calc asciiDigitValue c * tenPow width + value
            < asciiDigitValue c * tenPow width + tenPow width := by omega
          _ = (asciiDigitValue c + 1) * tenPow width := (Nat.succ_mul _ _).symm
          _ ≤ 10 * tenPow width := Nat.mul_le_mul_right _ first
          _ = tenPow (width + 1) := (Nat.pow_succ').symm
      · cases read

end Timestamp
end Lifecycle
