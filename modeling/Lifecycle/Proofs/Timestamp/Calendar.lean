import Lifecycle.Timestamp.Basic
import Mathlib.Order.Monotone.Basic
import Mathlib.Tactic.IntervalCases

namespace Lifecycle.CivilDay

variable {year later month rest n centuries fours ones : Nat} {c : CivilDay}

structure Known (c : CivilDay) : Prop where
  year : 1 ≤ c.year ∧ c.year ≤ maxYear
  month : 1 ≤ c.month ∧ c.month ≤ 12
  day : 1 ≤ c.day ∧ c.day ≤ daysInMonth c.year c.month

def yearLength (year : Nat) : Nat := if isLeap year then 366 else 365

theorem leap_exact (year : Nat) :
    isLeap year = true ↔ year % 4 = 0 ∧ (year % 100 ≠ 0 ∨ year % 400 = 0) := by
  simp [isLeap]

theorem monthLengths_sum (year : Nat) : (monthLengths (isLeap year)).sum = yearLength year := by
  unfold yearLength
  cases isLeap year <;> rfl

theorem daysBeforeYear_next (known : 1 ≤ year) :
    daysBeforeYear (year + 1) = daysBeforeYear year + yearLength year := by
  obtain ⟨past, rfl⟩ : ∃ past, year = past + 1 := ⟨year - 1, by omega⟩
  have leap := leap_exact (past + 1)
  have fours : (past + 1) / 4 = _ := Nat.succ_div
  have centuries : (past + 1) / 100 = _ := Nat.succ_div
  have cycles : (past + 1) / 400 = _ := Nat.succ_div
  simp only [daysBeforeYear, yearLength, Nat.add_sub_cancel]
  cases long : isLeap (past + 1) with
  | true =>
    have parts := leap.mp long
    rw [if_pos (by omega)] at fours
    split at cycles <;> split at centuries <;> simp only [if_true] <;> omega
  | false =>
    have parts := mt leap.mpr (Bool.eq_false_iff.mp long)
    split at cycles <;> split at centuries <;> split at fours <;>
      simp only [Bool.false_eq_true, if_false] <;> omega

theorem daysBeforeYear_mono (upto : year ≤ later) : daysBeforeYear year ≤ daysBeforeYear later := by
  refine monotone_nat_of_le_succ ?_ upto
  intro year
  cases year with
  | zero => exact Nat.le_refl _
  | succ past =>
    rw [daysBeforeYear_next (Nat.le_add_left 1 past)]
    exact Nat.le_add_right _ _

theorem daysBeforeYear_parts (cycles : Nat) (century : centuries ≤ 3) (four : fours ≤ 24) (one : ones ≤ 3) :
    daysBeforeYear (cycles * 400 + centuries * 100 + fours * 4 + ones + 1) =
      cycles * 146097 + centuries * 36524 + fours * 1461 + ones * 365 := by
  have byFour : (cycles * 400 + centuries * 100 + fours * 4 + ones) / 4 =
      cycles * 100 + centuries * 25 + fours := by omega
  have byHundred : (cycles * 400 + centuries * 100 + fours * 4 + ones) / 100 = cycles * 4 + centuries := by
    omega
  have byCycle : (cycles * 400 + centuries * 100 + fours * 4 + ones) / 400 = cycles := by omega
  simp only [daysBeforeYear, Nat.add_sub_cancel, byFour, byHundred, byCycle]
  omega

theorem monthOf_place {lengths : List Nat} (month : Nat) (within : rest < lengths.sum) :
    ∃ k, k < lengths.length ∧ (lengths.take k).sum ≤ rest ∧
      rest - (lengths.take k).sum < lengths.getD k 0 ∧
      monthOf lengths month rest = (month + k, rest - (lengths.take k).sum + 1) := by
  induction lengths generalizing month rest with
  | nil => simp at within
  | cons length lengths ih =>
    by_cases inside : rest < length
    · refine ⟨0, by simp, by simp, by simpa using inside, ?_⟩
      cases lengths <;> simp [monthOf, inside]
    · cases lengths with
      | nil =>
        simp only [List.sum_cons, List.sum_nil] at within
        omega
      | cons next lengths =>
        have later : rest - length < (next :: lengths).sum := by
          rw [List.sum_cons] at within
          omega
        obtain ⟨k, bound, past, day, place⟩ := ih (month + 1) later
        refine ⟨k + 1, by simpa using bound, ?_, ?_, ?_⟩
        · rw [List.take_succ_cons, List.sum_cons]
          omega
        · rw [List.take_succ_cons, List.sum_cons, List.getD_cons_succ]
          omega
        · rw [monthOf, if_neg inside, place, List.take_succ_cons, List.sum_cons]
          · congr 1 <;> omega
          · simp

theorem ofNumber_place (n : Nat) :
    ∃ year rest, 1 ≤ year ∧ rest < yearLength year ∧ n = daysBeforeYear year + rest ∧
      ofNumber n = ⟨year, (monthOf (monthLengths (isLeap year)) 1 rest).1,
        (monthOf (monthLengths (isLeap year)) 1 rest).2⟩ := by
  refine ⟨_, _, ?_, ?_, ?_, rfl⟩
  · exact Nat.le_add_left 1 _
  · unfold yearLength
    split
    · omega
    · rename_i short
      have parts := mt (leap_exact _).mpr short
      omega
  · rw [daysBeforeYear_parts _ (Nat.min_le_right _ 3) (by omega) (Nat.min_le_right _ 3)]
    omega

theorem number_ofNumber (n : Nat) : (ofNumber n).number = n := by
  obtain ⟨year, rest, known, within, sum, place⟩ := ofNumber_place n
  rw [← monthLengths_sum] at within
  obtain ⟨k, bound, past, day, month⟩ := monthOf_place 1 within
  rw [place, number, month]
  have before : daysBeforeMonth year (1 + k) = ((monthLengths (isLeap year)).take k).sum := by
    rw [daysBeforeMonth, Nat.add_sub_cancel_left]
    rfl
  simp only [before]
  omega

theorem ofNumber_known (early : n < daysBeforeYear (maxYear + 1)) : (ofNumber n).Known := by
  obtain ⟨year, rest, known, within, sum, place⟩ := ofNumber_place n
  rw [← monthLengths_sum] at within
  obtain ⟨k, bound, past, day, month⟩ := monthOf_place 1 within
  have twelve : (monthLengths (isLeap year)).length = 12 := rfl
  have last : year ≤ maxYear := by
    by_contra late
    have reached := daysBeforeYear_mono (Nat.lt_of_not_le late)
    rw [Nat.succ_eq_add_one] at reached
    omega
  rw [place, month]
  refine ⟨⟨known, last⟩, ⟨Nat.le_add_right 1 k, show 1 + k ≤ 12 by omega⟩, ⟨Nat.le_add_left 1 _, ?_⟩⟩
  rw [daysInMonth, Nat.add_sub_cancel_left]
  exact day

theorem monthDays_within (year : Nat) (known : 1 ≤ month ∧ month ≤ 12) :
    daysBeforeMonth year month + daysInMonth year month ≤ yearLength year := by
  obtain ⟨first, last⟩ := known
  unfold daysBeforeMonth daysInMonth yearLength
  cases isLeap year <;> interval_cases month <;> decide

theorem daysInMonth_bound (year : Nat) (known : 1 ≤ month ∧ month ≤ 12) : daysInMonth year month ≤ 31 := by
  obtain ⟨first, last⟩ := known
  unfold daysInMonth
  cases isLeap year <;> interval_cases month <;> decide

theorem Known.number_bound (known : Known c) : c.number < daysBeforeYear (maxYear + 1) := by
  have inside := monthDays_within c.year known.month
  have next := daysBeforeYear_next known.year.1
  have last := daysBeforeYear_mono (Nat.succ_le_succ known.year.2)
  have day := known.day
  rw [Nat.succ_eq_add_one, Nat.succ_eq_add_one] at last
  unfold number
  omega

end Lifecycle.CivilDay
