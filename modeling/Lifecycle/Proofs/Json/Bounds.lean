import Lifecycle.Json.Parser
import Lifecycle.Json.Printer
import Lifecycle.Proofs.Json.Fields
import Lifecycle.Proofs.Timestamp.Digits
import Mathlib.Algebra.GroupWithZero.Nat
import Mathlib.Tactic.SplitIfs

namespace Lifecycle

namespace Double

-- No further from zero than doubles go.
structure InRange (d : Double) : Prop where
  below : ∀ negative steps, d = .finite negative steps → steps < overflowSteps

theorem nan_inRange (constant : Bool) : (nan constant).InRange := ⟨nofun⟩

theorem infinite_inRange (negative : Bool) : (infinite negative).InRange := ⟨nofun⟩

theorem ofSteps_inRange (negative : Bool) (num den : Nat) : (ofSteps negative num den).InRange := by
  constructor
  intro sign steps same
  unfold ofSteps at same
  generalize overflowSteps = top at same ⊢
  simp only at same
  split at same
  · cases same
  · rename_i small
    cases same
    exact Nat.lt_of_not_le small

theorem ofQuotient_inRange (num : Int) (den : Nat) : (ofQuotient num den).InRange := by
  unfold ofQuotient
  exact ofSteps_inRange _ _ _

-- Compared at an argument, the two sides would be evaluated, and with them the first count beyond the doubles.
theorem ofInt_inRange (found : ofInt? i = some d) : d.InRange := by
  have shape : ofInt? = ofInt? := rfl
  conv at shape =>
    rhs
    delta ofInt?
  have ranged := ofQuotient_inRange i 1
  have chosen := (congrFun shape i).symm.trans found
  generalize ofQuotient i 1 = quotient at chosen ranged
  cases quotient with
  | nan | finite =>
    injection chosen with same
    exact same ▸ ranged
  | infinite => cases chosen

theorem twoPow_pos (n : Nat) : 0 < twoPow n := Nat.pow_pos (by decide)

theorem twoPow_add (m n : Nat) : twoPow (m + n) = twoPow m * twoPow n := Nat.pow_add 2 m n

theorem twoPow_tenPow (fewer : m ≤ n) : twoPow m ≤ 10 ^ n :=
  Nat.le_trans (Nat.pow_le_pow_left (by decide) m) (Nat.pow_le_pow_right (by decide) fewer)

theorem overflowSteps_units : overflowSteps = unit * twoPow 1024 := by
  rw [overflowSteps, unit, ← twoPow_add]

theorem zero_inRange (negative : Bool) : (Double.finite negative 0).InRange := by
  constructor
  intro sign steps same
  cases same
  rw [overflowSteps]
  exact twoPow_pos _

theorem ofDecimal_inRange (negative : Bool) (digits : Nat) (scale : Int) : (ofDecimal negative digits scale).InRange := by
  unfold ofDecimal
  simp only
  split
  · exact zero_inRange _
  · split
    · exact zero_inRange _
    · split
      · exact infinite_inRange _
      · split
        · exact ofSteps_inRange _ _ _
        · exact ofSteps_inRange _ _ _

theorem unit_range (inRange : (finite negative steps).InRange) : steps / unit < twoPow 1024 := by
  have small := inRange.below negative steps rfl
  rw [overflowSteps_units] at small
  exact Nat.div_lt_of_lt_mul small

end Double

theorem Text.natOfAscii_bound (digits : ∀ c ∈ cs, isAsciiDigit c = true) : natOfAscii cs < 10 ^ cs.length := by
  induction cs with
  | nil => exact Nat.one_pos
  | cons c cs ih =>
    obtain ⟨first, others⟩ := List.forall_mem_cons.mp digits
    have digit : asciiDigitValue c + 1 ≤ 10 := asciiDigitValue_bound first
    rw [natOfAscii_cons, List.length_cons]
    calc asciiDigitValue c * 10 ^ cs.length + natOfAscii cs
        < (asciiDigitValue c + 1) * 10 ^ cs.length := by
          rw [Nat.add_mul, Nat.one_mul]
          exact Nat.add_lt_add_left (ih others) _
      _ ≤ 10 * 10 ^ cs.length := Nat.mul_le_mul_right _ digit
      _ = 10 ^ (cs.length + 1) := (Nat.pow_succ').symm

namespace Numeral
open Text

structure Short (i : Int) : Prop where
  few : i.natAbs < 10 ^ digitLimit

theorem signed_short (small : n < 10 ^ digitLimit) (negative : Bool) : Short (signed negative n) := by
  constructor
  cases negative
  all_goals
    rw [signed]
    simpa only [Bool.false_eq_true, if_false, if_true, Int.natAbs_neg, Int.natAbs_natCast] using small

theorem digits_short (digits : ∀ c ∈ cs, isAsciiDigit c = true) (few : cs.length ≤ digitLimit) (negative : Bool) :
    Short (signed negative (natOfAscii cs)) :=
  signed_short (Nat.lt_of_lt_of_le (natOfAscii_bound digits) (Nat.pow_le_pow_right (by decide) few)) negative

theorem splitGrouped_digits (cs : List Char) : ∀ c ∈ (splitGrouped cs).1, isAsciiDigit c = true := by
  fun_induction splitGrouped cs <;> simp_all

theorem readInteger_short (read : readInteger s = .ok i) : Short i := by
  unfold readInteger at read
  simp only at read
  generalize (splitSign (plain s)).1 = negative at read
  generalize (splitSign (plain s)).2 = body at read
  have digits := splitGrouped_digits body
  split at read
  · cases read
  · split_ifs at read with stray many other
    cases read
    exact digits_short digits (Nat.le_of_not_lt many) negative

theorem truncate_short {d : Double} (inRange : d.InRange) (read : truncate d = .ok i) : Short i := by
  cases d with
  | nan => cases read
  | infinite => cases read
  | finite negative steps =>
    cases read
    exact signed_short (Nat.lt_of_lt_of_le (Double.unit_range inRange) (Double.twoPow_tenPow (by decide))) negative

theorem readDecimal_inRange (read : readDecimal negative cs = some d) : d.InRange := by
  unfold readDecimal at read
  simp only at read
  split at read
  all_goals
    simp only at read
    split at read
    · cases read
    · split at read
      · cases read
        exact Double.ofDecimal_inRange _ _ _
      · split at read
        · cases read
          exact Double.ofDecimal_inRange _ _ _
        · cases read

theorem readNamed_inRange (read : readNamed negative cs = some d) : d.InRange := by
  unfold readNamed at read
  simp only at read
  split at read
  · cases read
    exact Double.infinite_inRange _
  · split at read
    · cases read
      exact Double.nan_inRange _
    · cases read

theorem readReal_inRange (read : readReal s = .ok d) : d.InRange := by
  unfold readReal at read
  split at read
  · rename_i found
    cases read
    obtain ⟨cs, _, found⟩ := Option.bind_eq_some_iff.mp found
    cases named : readNamed (splitSign cs).1 (splitSign cs).2 with
    | some word =>
      simp [named] at found
      cases found
      exact readNamed_inRange named
    | none =>
      simp [named] at found
      exact readDecimal_inRange found
  · cases read

theorem realOfInteger_exact (i : Int) :
    realOfInteger i = (Double.ofInt? i).elim (.error .realOverflow) .ok := by
  have shape : realOfInteger = realOfInteger := rfl
  conv at shape =>
    rhs
    delta realOfInteger
  rw [congrFun shape i]
  generalize Double.ofInt? i = found
  cases found <;> rfl

theorem realOfInteger_inRange (read : realOfInteger i = .ok d) : d.InRange := by
  rw [realOfInteger_exact] at read
  cases found : Double.ofInt? i with
  | none => simp [found] at read
  | some nearest =>
    rw [found] at read
    cases read
    exact Double.ofInt_inRange found

end Numeral

namespace Json

mutual
-- Whole numbers with no more digits than are read, and finite numbers within the range of doubles.
def Bounded : Json → Prop
  | .int i => Numeral.Short i
  | .real d => d.InRange
  | .list xs => BoundedItems xs
  | .record fs => BoundedFields fs
  | _ => True

def BoundedItems : List Json → Prop
  | [] => True
  | x :: xs => Bounded x ∧ BoundedItems xs

def BoundedFields : List (String × Json) → Prop
  | [] => True
  | (_, v) :: rest => Bounded v ∧ BoundedFields rest
end

@[simp]
theorem bounded_null : Bounded .null := trivial

@[simp]
theorem bounded_bool (b : Bool) : Bounded (.bool b) := trivial

@[simp]
theorem bounded_text (s : String) : Bounded (.text s) := trivial

@[simp]
theorem bounded_int : Bounded (.int i) ↔ Numeral.Short i := Iff.rfl

@[simp]
theorem bounded_real : Bounded (.real d) ↔ d.InRange := Iff.rfl

@[simp]
theorem bounded_list : Bounded (.list xs) ↔ ∀ x ∈ xs, x.Bounded := by
  rw [Bounded]
  induction xs with
  | nil => simp [BoundedItems]
  | cons x xs ih => simp [BoundedItems, ih]

theorem bounded_record : Bounded (.record fs) ↔ ∀ k v, (k, v) ∈ fs → v.Bounded := by
  rw [Bounded]
  induction fs with
  | nil => simp [BoundedFields]
  | cons f fs ih =>
    simp only [BoundedFields, ih, List.mem_cons]
    constructor
    · rintro ⟨first, others⟩ k v (rfl | member)
      · exact first
      · exact others k v member
    · intro all
      exact ⟨all f.1 f.2 (Or.inl rfl), fun k v member => all k v (Or.inr member)⟩

@[simp]
theorem bounded_empty : Bounded (.record []) := by
  simp [bounded_record]

@[simp]
theorem bounded_cons : Bounded (.record ((k, v) :: fs)) ↔ v.Bounded ∧ Bounded (.record fs) := by
  rw [Bounded, BoundedFields, Bounded]

theorem lookup_mem {fs : List (String × Json)} (found : fs.lookup key = some v) : (key, v) ∈ fs := by
  obtain ⟨before, after, rfl, _⟩ := List.lookup_eq_some_iff.mp found
  exact List.mem_append_right before List.mem_cons_self

theorem field_bounded (bounded : v.Bounded) (found : field v key = .ok w) : w.Bounded := by
  unfold field at found
  split at found
  · split at found
    · rename_i hit
      cases found
      exact bounded_record.mp bounded key w (lookup_mem hit)
    · cases found
  · cases found

theorem tryField_bounded (bounded : v.Bounded) (found : field? v key = .ok (some w)) : w.Bounded := by
  unfold field? at found
  split at found
  · injection found with hit
    exact bounded_record.mp bounded key w (lookup_mem hit)
  · cases found

theorem fieldOr_bounded (bounded : v.Bounded) (fallback : other.Bounded) (found : fieldOr v key other = .ok w) :
    w.Bounded := by
  unfold fieldOr at found
  split at found
  · rename_i given read
    cases found
    cases given with
    | none => exact fallback
    | some w => exact tryField_bounded bounded read
  · cases found

theorem fieldOrNull_bounded (bounded : v.Bounded) (found : fieldOrNull v key = .ok w) : w.Bounded :=
  fieldOr_bounded bounded bounded_null found

theorem items_bounded (bounded : v.Bounded) (found : items v = .ok xs) : ∀ x ∈ xs, x.Bounded := by
  unfold items at found
  split at found
  · cases found
    exact bounded_list.mp bounded
  · cases found
    simp
  · cases found
    intro x member
    obtain ⟨f, _, rfl⟩ := List.mem_map.mp member
    exact bounded_text f.1
  · cases found

theorem toInt_short (bounded : v.Bounded) (read : toInt v = .ok i) : Numeral.Short i := by
  cases v with
  | bool b =>
    cases read
    have one : 1 < 10 ^ Numeral.digitLimit := Nat.one_lt_pow (by decide) (by decide)
    cases b with
    | false => exact ⟨Nat.lt_trans Nat.one_pos one⟩
    | true => exact ⟨one⟩
  | int i =>
    cases read
    exact bounded
  | real d => exact Numeral.truncate_short bounded (mapError_ok.mp read)
  | text s => exact Numeral.readInteger_short (mapError_ok.mp read)
  | null | list | record => cases read

theorem toReal_inRange (bounded : v.Bounded) (read : toReal v = .ok d) : d.InRange := by
  cases v with
  | bool b =>
    rw [toReal, Except.ok.injEq] at read
    subst read
    split
    · exact Double.ofQuotient_inRange 1 1
    · exact Double.zero_inRange false
  | int i =>
    rw [toReal, mapError_ok] at read
    exact Numeral.realOfInteger_inRange read
  | real d =>
    cases read
    exact bounded
  | text s => exact Numeral.readReal_inRange (mapError_ok.mp read)
  | null | list | record => cases read

end Json
end Lifecycle
