import Lifecycle.Proofs.Outcome
import Lifecycle.Proofs.Timestamp.Calendar
import Lifecycle.Proofs.Timestamp.Clock
import Mathlib.Data.List.GetD

namespace Lifecycle.Timestamp
open Text

section
variable {year : Nat} {day : CivilDay} {cs : List Char} {t : Timestamp}

def dateText (day : CivilDay) : String :=
  padded 4 day.year ++ "-" ++ padded 2 day.month ++ "-" ++ padded 2 day.day

theorem dateText_chars (day : CivilDay) :
    (dateText day).toList = (padded 4 day.year).toList ++ '-' ::
      ((padded 2 day.month).toList ++ '-' :: (padded 2 day.day).toList) := by
  simp [dateText]

theorem padded_head (width n : Nat) (rest : List Char) :
    isAsciiDigit (((padded width n).toList ++ rest).headD zeroChar) = true := by
  have some : (padded width n).toList ≠ [] := by
    rw [padded, String.toList_ofList]
    simp
  obtain ⟨c, cs, chars⟩ := List.exists_cons_of_ne_nil some
  rw [chars]
  exact padded_digits (chars ▸ List.mem_cons_self)

theorem digit_noWeek (digit : isAsciiDigit c = true) : c ≠ 'W' := by
  rintro rfl
  cases digit

theorem readDate_dashed (small : year < tenPow 4) (month : isAsciiDigit (cs.headD zeroChar) = true) :
    readDate? ((padded 4 year).toList ++ '-' :: cs) = readMonthDay? year true cs := by
  have read := decimals_padded 4 (by decide) small ('-' :: cs)
  cases cs with
  | nil => cases month
  | cons c cs =>
    simp only [readDate?, read, Option.bind_eq_bind, Option.bind_some, List.head?_cons, decide_true, if_true,
      List.tail_cons]
    split
    · rename_i week
      cases week
      exact absurd rfl (digit_noWeek month)
    · rfl

theorem dateLength_dashed (small : year < tenPow 4) (month : isAsciiDigit (cs.headD zeroChar) = true)
    (long : 2 < cs.length) : dateLength? ((padded 4 year).toList ++ '-' :: cs) = some 10 := by
  have four := padded_length 4 (by decide) small
  have dash : ((padded 4 year).toList ++ '-' :: cs).getD 4 zeroChar = '-' := by
    rw [List.getD_append_right _ _ _ _ (by omega), four]
    rfl
  have noWeek : ((padded 4 year).toList ++ '-' :: cs).getD 5 zeroChar ≠ 'W' := by
    rw [List.getD_append_right _ _ _ _ (by omega), four]
    cases cs with
    | nil => cases month
    | cons c cs => exact digit_noWeek month
  have size : ((padded 4 year).toList ++ '-' :: cs).length = cs.length + 5 := by
    rw [List.length_append, four, List.length_cons]
    omega
  simp only [dateLength?, size, dash, noWeek]
  rw [if_neg (by omega), if_neg (by omega)]
  rfl

theorem known_widths (known : day.Known) :
    day.year < tenPow 4 ∧ day.month < tenPow 2 ∧ day.day < tenPow 2 := by
  have last := CivilDay.daysInMonth_bound day.year known.month
  exact ⟨Nat.lt_succ_of_le known.year.2, Nat.lt_of_le_of_lt known.month.2 (by decide),
    Nat.lt_of_le_of_lt (Nat.le_trans known.day.2 last) (by decide)⟩

theorem dateText_length (known : day.Known) : (dateText day).toList.length = 10 := by
  obtain ⟨year, month, days⟩ := known_widths known
  simp only [dateText_chars, List.length_append, List.length_cons, padded_length 4 (by decide) year,
    padded_length 2 (by decide) month, padded_length 2 (by decide) days]

theorem readDate_text (known : day.Known) : readDate? (dateText day).toList = some day := by
  obtain ⟨year, month, days⟩ := known_widths known
  have second := decimals_padded 2 (by decide) month ('-' :: (padded 2 day.day).toList)
  have third := decimals_padded 2 (by decide) days []
  rw [List.append_nil] at third
  rw [dateText_chars, readDate_dashed year (padded_head 2 day.month _)]
  simp [readMonthDay?, second, third]

theorem dateLength_text (known : day.Known) (time : List Char) :
    dateLength? ((dateText day).toList ++ 'T' :: time) = some 10 := by
  obtain ⟨year, month, days⟩ := known_widths known
  rw [dateText_chars, List.append_assoc, List.cons_append, List.append_assoc]
  refine dateLength_dashed year (padded_head 2 day.month _) ?_
  rw [List.length_append, padded_length 2 (by decide) month, List.length_append, List.length_cons]
  omega

theorem digit_noSign (digit : isAsciiDigit c = true) : isSign c = false := by
  cases signed : isSign c with
  | false => rfl
  | true => rcases sign_exact.mp signed with rfl | rfl <;> cases digit

theorem fractionText_plain (member : c ∈ (fractionText micros).toList) : isAsciiDigit c = true ∨ c = '.' := by
  by_cases none : micros = 0
  · subst none
    cases member
  · rw [fractionText_chars none] at member
    rcases List.mem_cons.mp member with point | digit
    · exact .inr point
    · exact .inl (padded_digits digit)

theorem clockText_plain (member : c ∈ (clockText hour minute second micros).toList) :
    isAsciiDigit c = true ∨ c = ':' ∨ c = '.' := by
  simp only [clockText_chars, List.mem_append, List.mem_cons] at member
  rcases member with digit | colon | digit | colon | digit | fraction
  · exact .inl (padded_digits digit)
  · exact .inr (.inl colon)
  · exact .inl (padded_digits digit)
  · exact .inr (.inl colon)
  · exact .inl (padded_digits digit)
  · exact (fractionText_plain fraction).imp_right .inr

theorem readTime_signed {clock rest : List Char} {r : Reading} {offset : Int} {mark : Char}
    (noSign : ∀ c ∈ clock, isSign c = false) (signed : isSign mark = true)
    (reading : readClock (clock ++ mark :: rest) clock.length = some r)
    (read : readOffset? (mark = '-') rest = some offset) :
    readTime? (clock ++ mark :: rest) = some (r, some offset) := by
  have head : (clock ++ mark :: rest).takeWhile (!isSign ·) = clock := by
    have all : ∀ c ∈ clock, (!isSign c) = true := by
      intro c member
      rw [noSign c member, Bool.not_false]
    rw [List.takeWhile_append_of_pos all, List.takeWhile_cons, signed]
    exact List.append_nil clock
  simp only [readTime?, head, reading, List.drop_left, read, Option.bind_eq_bind, Option.bind_some]
  rfl

theorem readTime_text (hours : hour < 100) (minutes : minute < 100) (seconds : second < 100)
    (small : micros < microsPerSecond) (readable : t.Readable) :
    readTime? ((clockText hour minute second micros).toList ++ (offsetText t.offset).toList) =
      some (⟨hour, minute, second, micros, true⟩, some t.offset) := by
  obtain ⟨rest, spelled, offset⟩ := readable.readOffset
  have signed := sign_isSign t.offset
  have ends : Ends (sign t.offset :: rest) := by
    intro c first
    cases first
    exact signed
  have noSign : ∀ c ∈ (clockText hour minute second micros).toList, isSign c = false := by
    intro c member
    rcases clockText_plain member with digit | rfl | rfl
    · exact digit_noSign digit
    · rfl
    · rfl
  rw [spelled]
  exact readTime_signed noSign signed (readClock_text hours minutes seconds small ends) offset

theorem text_parts (t : Timestamp) :
    t.text = dateText (CivilDay.ofNumber (t.clock.toNat / microsPerDay)) ++ "T" ++
      clockText (t.clock.toNat / microsPerHour % 24) (t.clock.toNat / microsPerMinute % 60)
        (t.clock.toNat / microsPerSecond % 60) (t.clock.toNat % microsPerSecond) ++ offsetText t.offset := by
  simp only [text, dateText, clockText, String.append_assoc]

theorem text_chars (t : Timestamp) :
    t.text.toList = (dateText (CivilDay.ofNumber (t.clock.toNat / microsPerDay))).toList ++ 'T' ::
      ((clockText (t.clock.toNat / microsPerHour % 24) (t.clock.toNat / microsPerMinute % 60)
        (t.clock.toNat / microsPerSecond % 60) (t.clock.toNat % microsPerSecond)).toList ++
        (offsetText t.offset).toList) := by
  simp [text_parts]

theorem Readable.day_known (readable : t.Readable) :
    (CivilDay.ofNumber (t.clock.toNat / microsPerDay)).Known := by
  refine CivilDay.ofNumber_known (Nat.div_lt_of_lt_mul ?_)
  have started := readable.started
  have ended := readable.ended
  rw [endOfTime] at ended
  rw [Nat.mul_comm]
  omega

theorem readParts_text (readable : t.Readable) :
    readParts? t.text.toList =
      some (CivilDay.ofNumber (t.clock.toNat / microsPerDay),
        ⟨t.clock.toNat / microsPerHour % 24, t.clock.toNat / microsPerMinute % 60,
          t.clock.toNat / microsPerSecond % 60, t.clock.toNat % microsPerSecond, true⟩, some t.offset) := by
  have known := readable.day_known
  have ten := dateText_length known
  have small : t.clock.toNat % microsPerSecond < microsPerSecond := Nat.mod_lt _ (by decide)
  rw [text_chars]
  unfold readParts?
  refine Option.bind_eq_some_iff.mpr ⟨10, dateLength_text known _, ?_⟩
  rw [List.take_left' ten, List.drop_left' ten]
  refine Option.bind_eq_some_iff.mpr ⟨_, readDate_text known, ?_⟩
  exact Option.bind_eq_some_iff.mpr ⟨_, readTime_text (by omega) (by omega) (by omega) small readable, rfl⟩

theorem parse_parts {r : Reading} {offset : Option Int} (read : readParts? s.toList = some (day, r, offset))
    (short : checkOffset (offset.getD 0) = .ok ()) (known : checkDay day = .ok ())
    (timed : checkReading r = .ok ()) :
    parse s = .ok ⟨((day.number * microsPerDay + r.total : Nat) : Int), offset.getD 0⟩ := by
  unfold parse
  rw [read]
  exact bind_ok.mpr ⟨(), short, bind_ok.mpr ⟨(), known, bind_ok.mpr ⟨(), timed, rfl⟩⟩⟩

theorem checkDay_ok (known : day.Known) : checkDay day = .ok () := by
  obtain ⟨year, month, days⟩ := known
  unfold checkDay
  rw [if_neg (by simp; omega), if_neg (by simp; omega), if_neg (by simp; omega)]

theorem parse_text (readable : t.Readable) : parse t.text = .ok t := by
  have short : checkOffset t.offset = .ok () := if_pos readable.short
  have timed : checkReading ⟨t.clock.toNat / microsPerHour % 24, t.clock.toNat / microsPerMinute % 60,
      t.clock.toNat / microsPerSecond % 60, t.clock.toNat % microsPerSecond, true⟩ = .ok () := by
    unfold checkReading
    rw [if_neg (by simp; omega), if_neg (by simp; omega), if_neg (by simp; omega)]
  have clock : t.clock.toNat / microsPerDay * microsPerDay + t.clock.toNat % microsPerDay = t.clock.toNat := by
    rw [Nat.mul_comm]
    exact Nat.div_add_mod _ _
  rw [parse_parts (readParts_text readable) short (checkDay_ok readable.day_known) timed,
    CivilDay.number_ofNumber, total_parts, clock, Int.toNat_of_nonneg readable.started]
  rfl

end

end Lifecycle.Timestamp
