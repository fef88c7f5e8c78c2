import Lifecycle.Json.Reading
import Lifecycle.Proofs.Timestamp.RoundTrip
import Mathlib.Data.List.Basic

namespace Lifecycle

namespace Timestamp
open Text

section
variable {day : CivilDay} {parts : List Nat} {cs : List Char} {r : Reading} {offset : Option Int} {t : Timestamp}

theorem readFraction_micros (read : readFraction parts cs room = some r) : r.micros < microsPerSecond := by
  unfold readFraction at read
  obtain ⟨⟨value, rest⟩, digits, read⟩ := Option.bind_eq_some_iff.mp read
  cases read
  have bound := decimals_bound digits
  have six : tenPow (min room 6) * tenPow (6 - min room 6) = microsPerSecond := by
    rw [tenPow, tenPow, Nat.pow_eq, Nat.pow_eq, ← Nat.pow_add, Nat.add_sub_cancel' (Nat.min_le_right room 6)]
    rfl
  have scale : 0 < tenPow (6 - min room 6) := Nat.pow_pos (by decide)
  calc value * tenPow (6 - min room 6)
      < tenPow (min room 6) * tenPow (6 - min room 6) := Nat.mul_lt_mul_of_pos_right bound scale
    _ = microsPerSecond := six

theorem readParts_micros (read : readParts left colons parts cs room = some r) : r.micros < microsPerSecond := by
  induction left generalizing colons parts cs room with
  | zero => exact readFraction_micros read
  | succ left ih =>
    obtain ⟨⟨value, rest⟩, _, read⟩ := Option.bind_eq_some_iff.mp read
    dsimp only at read
    generalize decide (if left = 2 then rest.headD zeroChar = ':' else colons = true) = joined at read
    split at read
    · cases read
    · split at read
      · cases read
        exact (by decide : 0 < microsPerSecond)
      · split at read
        · exact ih read
        · split at read
          · exact readFraction_micros read
          · split at read
            · exact ih read
            · cases read

theorem readOffset_whole {offset : Int} (read : readOffset? negative cs = some offset) :
    offset = 0 ∨ microsPerSecond ≤ offset.natAbs := by
  unfold readOffset? at read
  obtain ⟨r, clock, read⟩ := Option.bind_eq_some_iff.mp read
  split at read
  · cases read
  · have size : ∀ n : Nat, n = 0 ∨ microsPerSecond ≤ n →
        (if negative then -(n : Int) else n) = 0 ∨
          microsPerSecond ≤ (if negative then -(n : Int) else n).natAbs := by
      intro n whole
      split <;> omega
    cases read
    apply size
    split
    · exact .inl rfl
    · rename_i some
      simp only [Bool.and_eq_true, decide_eq_true_eq] at some
      have one : 1 ≤ (r.hour * 60 + r.minute) * 60 + r.second := by omega
      exact .inr (Nat.le_trans (Nat.mul_le_mul_right microsPerSecond one) (Nat.le_add_right _ _))

theorem readTime_parts (read : readTime? cs = some (r, offset)) :
    r.micros < microsPerSecond ∧
      ∀ micros : Int, offset = some micros → micros = 0 ∨ microsPerSecond ≤ micros.natAbs := by
  unfold readTime? at read
  obtain ⟨found, clock, read⟩ := Option.bind_eq_some_iff.mp read
  have small := readParts_micros clock
  split at read
  · split at read
    · cases read
    · cases read
      exact ⟨small, by simp⟩
  · obtain ⟨size, signed, read⟩ := Option.bind_eq_some_iff.mp read
    cases read
    refine ⟨small, ?_⟩
    rintro micros ⟨⟩
    exact readOffset_whole signed

theorem readParts_parts (read : readParts? cs = some (day, r, offset)) :
    r.micros < microsPerSecond ∧ (offset.getD 0 = 0 ∨ microsPerSecond ≤ (offset.getD 0).natAbs) := by
  unfold readParts? at read
  obtain ⟨size, _, read⟩ := Option.bind_eq_some_iff.mp read
  obtain ⟨found, _, read⟩ := Option.bind_eq_some_iff.mp read
  split at read
  · cases read
    exact ⟨by decide, .inl rfl⟩
  · obtain ⟨⟨time, shift⟩, timed, read⟩ := Option.bind_eq_some_iff.mp read
    cases read
    obtain ⟨small, whole⟩ := readTime_parts timed
    refine ⟨small, ?_⟩
    cases offset with
    | none => exact .inl rfl
    | some micros => exact whole micros rfl

theorem checkDay_known (checked : checkDay day = .ok ()) : day.Known := by
  unfold checkDay at checked
  split at checked
  · cases checked
  · split at checked
    · cases checked
    · split at checked
      · cases checked
      · rename_i year month days
        simp only [Bool.or_eq_true, decide_eq_true_eq, not_or, Nat.not_lt] at year month days
        exact ⟨year, month, days⟩

theorem checkReading_within (checked : checkReading r = .ok ()) (small : r.micros < microsPerSecond) :
    r.total < microsPerDay := by
  unfold checkReading at checked
  split at checked
  · cases checked
  · split at checked
    · cases checked
    · split at checked
      · cases checked
      · simp only [Reading.total, microsPerDay, microsPerHour, microsPerMinute, microsPerSecond] at small ⊢
        omega

theorem parse_readable (parsed : parse s = .ok t) : t.Readable := by
  unfold parse at parsed
  split at parsed
  · cases parsed
  · rename_i day r offset read
    obtain ⟨small, whole⟩ := readParts_parts read
    obtain ⟨_, short, parsed⟩ := bind_ok.mp parsed
    obtain ⟨_, known, parsed⟩ := bind_ok.mp parsed
    obtain ⟨_, timed, parsed⟩ := bind_ok.mp parsed
    cases parsed
    have within := checkReading_within timed small
    have bound := (checkDay_known known).number_bound
    refine ⟨Int.natCast_nonneg _, ?_, ?_, whole⟩
    · rw [endOfTime]
      refine Int.ofNat_lt.mpr ?_
      calc day.number * microsPerDay + r.total
          < day.number * microsPerDay + microsPerDay := Nat.add_lt_add_left within _
        _ = (day.number + 1) * microsPerDay := (Nat.succ_mul _ _).symm
        _ ≤ CivilDay.daysBeforeYear (CivilDay.maxYear + 1) * microsPerDay := Nat.mul_le_mul_right _ bound
    · unfold checkOffset at short
      split at short
      · assumption
      · cases short
theorem offsetText_plain {offset : Int} (member : c ∈ (offsetText offset).toList) :
    isAsciiDigit c = true ∨ isSign c = true ∨ c = ':' ∨ c = '.' := by
  by_cases rough : offset.natAbs / microsPerSecond % 60 = 0 ∧ offset.natAbs % microsPerSecond = 0
  · rw [offsetText_short offset rough.1 rough.2] at member
    simp only [List.mem_cons, List.mem_append] at member
    rcases member with rfl | digit | colon | digit
    · exact .inr (.inl (sign_isSign offset))
    · exact .inl (padded_digits digit)
    · exact .inr (.inr (.inl colon))
    · exact .inl (padded_digits digit)
  · rw [offsetText_long offset rough] at member
    rcases List.mem_cons.mp member with rfl | inside
    · exact .inr (.inl (sign_isSign offset))
    · exact (clockText_plain inside).imp_right .inr

theorem text_noMark (t : Timestamp) : 'Z' ∉ t.text.toList := by
  have noDigit : isAsciiDigit 'Z' ≠ true := by decide
  rw [text_chars, dateText_chars]
  simp only [List.mem_append, List.mem_cons]
  rintro ((year | dash | month | dash | day) | mark | clock | offset)
  · exact noDigit (padded_digits year)
  · cases dash
  · exact noDigit (padded_digits month)
  · cases dash
  · exact noDigit (padded_digits day)
  · cases mark
  · rcases clockText_plain clock with digit | colon | point
    · exact noDigit digit
    · cases colon
    · cases point
  · rcases offsetText_plain offset with digit | sign | colon | point
    · exact noDigit digit
    · cases sign
    · cases colon
    · cases point

theorem text_ne_empty (t : Timestamp) : t.text ≠ "" := by
  intro empty
  have chars := text_chars t
  rw [empty] at chars
  simp at chars

end

end Timestamp

namespace Json

theorem toTimestamp_text (some : s ≠ "") (plain : 'Z' ∉ s.toList) (parsed : Timestamp.parse s = .ok t) :
    toTimestamp? (.text s) = .ok (Option.some t) := by
  have same : (s.toList.flatMap fun c => if c = 'Z' then "+00:00".toList else [c]) = s.toList := by
    rw [List.flatMap_congr (g := fun c => [c]), List.flatMap_singleton']
    intro c member
    have other : c ≠ 'Z' := by
      rintro rfl
      exact plain member
    rw [if_neg other]
  unfold toTimestamp?
  split
  · contradiction
  · rename_i empty
    cases empty
    contradiction
  · simp only [display, same, String.ofList_toList, parsed]

@[simp]
theorem toTimestamp_written (readable : t.Readable) : toTimestamp? (ofTimestamp t) = .ok (some t) := by
  exact toTimestamp_text t.text_ne_empty t.text_noMark (Timestamp.parse_text readable)

theorem toTimestamp_readable (read : toTimestamp? v = .ok (some t)) : t.Readable := by
  unfold toTimestamp? at read
  split at read
  · cases read
  · cases read
  · dsimp only at read
    split at read
    · cases read
      exact Timestamp.parse_readable ‹_›
    · cases read

end Json
end Lifecycle
