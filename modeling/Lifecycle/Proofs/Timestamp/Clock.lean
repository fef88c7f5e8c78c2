import Lifecycle.Proofs.Timestamp.Digits

namespace Lifecycle.Timestamp
open Text

def Ends (rest : List Char) : Prop := ∀ c ∈ rest.head?, isSign c = true

section
variable {left value hour minute second micros room : Nat} {colons : Bool} {parts : List Nat}
  {rest : List Char}

theorem sign_exact : isSign c = true ↔ c = '+' ∨ c = '-' := by
  simp [isSign]

theorem Ends.ascii (ends : Ends rest) : (rest.headD zeroChar).toNat ≤ 127 := by
  cases rest with
  | nil => decide
  | cons c rest =>
    rcases sign_exact.mp (ends c rfl) with rfl | rfl
    · exact (by decide : '+'.toNat ≤ 127)
    · exact (by decide : '-'.toNat ≤ 127)

theorem Ends.more (ends : Ends rest) : (rest.headD zeroChar != zeroChar) = !rest.isEmpty := by
  cases rest with
  | nil => rfl
  | cons c rest => rcases sign_exact.mp (ends c rfl) with rfl | rfl <;> rfl

theorem Ends.noDigits (ends : Ends rest) : rest.dropWhile isAsciiDigit = rest := by
  cases rest with
  | nil => rfl
  | cons c rest => rcases sign_exact.mp (ends c rfl) with rfl | rfl <;> rfl

theorem readParts_colon (small : value < 100) (wide : 3 < room) :
    readParts (left + 1) true parts ((padded 2 value).toList ++ ':' :: rest) room =
      readParts left true (parts ++ [value]) rest (room - 3) := by
  have read := decimals_padded 2 (by decide) small (':' :: rest)
  simp [readParts, read, Nat.not_le.mpr wide]

theorem readParts_point (small : value < 100) (wide : 3 < room) :
    readParts 1 true parts ((padded 2 value).toList ++ '.' :: rest) room =
      readFraction (parts ++ [value]) rest (room - 3) := by
  have read := decimals_padded 2 (by decide) small ('.' :: rest)
  simp [readParts, read, Nat.not_le.mpr wide]

theorem readParts_last (small : value < 100) (narrow : room ≤ 3) (ends : Ends rest) :
    readParts (left + 1) colons parts ((padded 2 value).toList ++ rest) room =
      some (.ofParts (parts ++ [value]) 0 (!rest.isEmpty)) := by
  have read := decimals_padded 2 (by decide) small rest
  rw [← ends.more]
  simp only [readParts, read, Option.bind_eq_bind, Option.bind_some, Nat.not_lt.mpr ends.ascii, narrow,
    if_false, if_true]
  rfl

theorem readFraction_padded (small : micros < microsPerSecond) (ends : Ends rest) :
    readFraction parts ((padded 6 micros).toList ++ rest) 6 =
      some (.ofParts parts micros (!rest.isEmpty)) := by
  have read := decimals_padded 6 (by decide) small rest
  rw [← ends.more]
  simp [readFraction, read, ends.noDigits, tenPow]

def clockText (hour minute second micros : Nat) : String :=
  padded 2 hour ++ ":" ++ padded 2 minute ++ ":" ++ padded 2 second ++ fractionText micros

theorem clockText_chars (hour minute second micros : Nat) :
    (clockText hour minute second micros).toList =
      (padded 2 hour).toList ++ ':' :: ((padded 2 minute).toList ++ ':' ::
        ((padded 2 second).toList ++ (fractionText micros).toList)) := by
  simp [clockText]

theorem fractionText_chars (fraction : micros ≠ 0) :
    (fractionText micros).toList = '.' :: (padded 6 micros).toList := by
  simp [fractionText, fraction]

theorem readClock_text (hours : hour < 100) (minutes : minute < 100) (seconds : second < 100)
    (small : micros < microsPerSecond) (ends : Ends rest) :
    readClock ((clockText hour minute second micros).toList ++ rest)
      (clockText hour minute second micros).toList.length =
        some ⟨hour, minute, second, micros, !rest.isEmpty⟩ := by
  have two : ∀ {n}, n < 100 → (padded 2 n).toList.length = 2 := fun small => padded_length 2 (by decide) small
  have long : (clockText hour minute second micros).toList.length =
      8 + (fractionText micros).toList.length := by
    simp only [clockText_chars, List.length_append, List.length_cons, two hours, two minutes, two seconds]
    omega
  rw [long, clockText_chars, readClock]
  simp only [List.append_assoc, List.cons_append]
  rw [readParts_colon hours (by omega), readParts_colon minutes (by omega)]
  by_cases none : micros = 0
  · subst none
    exact readParts_last seconds (by decide) ends
  · rw [fractionText_chars none, List.length_cons, padded_length 6 (by decide) small, List.cons_append,
      readParts_point seconds (by decide), readFraction_padded small ends]
    rfl

theorem readClock_short (hours : hour < 100) (minutes : minute < 100) :
    readClock ((padded 2 hour).toList ++ ':' :: (padded 2 minute).toList) 5 =
      some ⟨hour, minute, 0, 0, false⟩ := by
  have nothing : Ends [] := by simp [Ends]
  rw [readClock, readParts_colon hours (by decide), ← List.append_nil (padded 2 minute).toList,
    readParts_last minutes (by decide) nothing]
  rfl

theorem total_parts (n : Nat) (more : Bool) :
    Reading.total ⟨n / microsPerHour % 24, n / microsPerMinute % 60, n / microsPerSecond % 60,
      n % microsPerSecond, more⟩ = n % microsPerDay := by
  simp only [Reading.total, microsPerDay, microsPerHour, microsPerMinute, microsPerSecond]
  omega

end

-- A moment that can be read: within the years of a clock, its offset short of
-- a day, and of a second or more unless there is none.
structure Readable (t : Timestamp) : Prop where
  started : 0 ≤ t.clock
  ended : t.clock < endOfTime
  short : t.offset.natAbs < microsPerDay
  whole : t.offset = 0 ∨ microsPerSecond ≤ t.offset.natAbs

def sign (offset : Int) : Char := if offset < 0 then '-' else '+'

section
variable {offset : Int} {t : Timestamp}

theorem sign_isSign (offset : Int) : isSign (sign offset) = true := by
  unfold sign
  split <;> rfl

theorem offsetText_short (offset : Int) (none : offset.natAbs / microsPerSecond % 60 = 0)
    (exact : offset.natAbs % microsPerSecond = 0) :
    (offsetText offset).toList = sign offset :: ((padded 2 (offset.natAbs / microsPerHour)).toList ++
      ':' :: (padded 2 (offset.natAbs / microsPerMinute % 60)).toList) := by
  simp only [offsetText, none, exact, sign]
  split <;> simp

theorem offsetText_long (offset : Int)
    (finer : ¬(offset.natAbs / microsPerSecond % 60 = 0 ∧ offset.natAbs % microsPerSecond = 0)) :
    (offsetText offset).toList = sign offset ::
      (clockText (offset.natAbs / microsPerHour) (offset.natAbs / microsPerMinute % 60)
        (offset.natAbs / microsPerSecond % 60) (offset.natAbs % microsPerSecond)).toList := by
  simp only [offsetText, Bool.and_eq_true, decide_eq_true_eq, finer, clockText_chars, sign]
  split <;> simp

theorem readOffset_total {cs : List Char} {r : Reading} (read : readClock cs cs.length = some r)
    (all : r.more = false) (small : r.micros < microsPerSecond)
    (whole : r.total = 0 ∨ microsPerSecond ≤ r.total) (negative : Bool) :
    readOffset? negative cs = some (if negative then -(r.total : Int) else r.total) := by
  have size : (if r.hour = 0 && r.minute = 0 && r.second = 0 then 0 else r.total) = r.total := by
    split
    · rename_i none
      simp only [Bool.and_eq_true, decide_eq_true_eq] at none
      simp only [Reading.total, none] at whole ⊢
      omega
    · rfl
  simp only [readOffset?, read, Option.bind_eq_bind, Option.bind_some, all, Bool.false_eq_true, if_false, size]
  rfl

theorem sign_size (offset : Int) :
    (if decide (sign offset = '-') then -(offset.natAbs : Int) else offset.natAbs) = offset := by
  unfold sign
  by_cases negative : offset < 0
  · simp only [negative, if_true, decide_true]
    omega
  · simp only [negative, if_false]
    rw [if_neg (by decide)]
    omega

theorem Readable.readOffset (readable : t.Readable) :
    ∃ rest, (offsetText t.offset).toList = sign t.offset :: rest ∧
      readOffset? (sign t.offset = '-') rest = some t.offset := by
  have short := readable.short
  have days : t.offset.natAbs / microsPerHour < 24 := by
    simp only [microsPerDay, microsPerHour, microsPerMinute, microsPerSecond] at short ⊢
    omega
  have total : Reading.total ⟨t.offset.natAbs / microsPerHour, t.offset.natAbs / microsPerMinute % 60,
      t.offset.natAbs / microsPerSecond % 60, t.offset.natAbs % microsPerSecond, false⟩ =
        t.offset.natAbs := by
    have parts := total_parts t.offset.natAbs false
    rwa [Nat.mod_eq_of_lt days, Nat.mod_eq_of_lt short] at parts
  have small : t.offset.natAbs % microsPerSecond < microsPerSecond := Nat.mod_lt _ (by decide)
  have whole : t.offset.natAbs = 0 ∨ microsPerSecond ≤ t.offset.natAbs :=
    readable.whole.imp_left Int.natAbs_eq_zero.mpr
  have hours : t.offset.natAbs / microsPerHour < 100 := by omega
  have minutes : t.offset.natAbs / microsPerMinute % 60 < 100 := by omega
  by_cases rough : t.offset.natAbs / microsPerSecond % 60 = 0 ∧ t.offset.natAbs % microsPerSecond = 0
  · refine ⟨_, offsetText_short t.offset rough.1 rough.2, ?_⟩
    have read := readClock_short hours minutes
    rw [rough.1, rough.2] at total
    have length : ((padded 2 (t.offset.natAbs / microsPerHour)).toList ++
        ':' :: (padded 2 (t.offset.natAbs / microsPerMinute % 60)).toList).length = 5 := by
      rw [List.length_append, List.length_cons, padded_length 2 (by decide) hours,
        padded_length 2 (by decide) minutes]
    rw [← length] at read
    rw [readOffset_total read rfl (show 0 < microsPerSecond by decide) (by rwa [total]), total, sign_size]
  · refine ⟨_, offsetText_long t.offset rough, ?_⟩
    have seconds : t.offset.natAbs / microsPerSecond % 60 < 100 := by omega
    have nothing : Ends [] := by simp [Ends]
    have read := readClock_text hours minutes seconds small nothing
    rw [List.append_nil] at read
    rw [readOffset_total read rfl small (by rwa [List.isEmpty_nil, Bool.not_true, total]), List.isEmpty_nil,
      Bool.not_true, total, sign_size]

end

end Lifecycle.Timestamp
