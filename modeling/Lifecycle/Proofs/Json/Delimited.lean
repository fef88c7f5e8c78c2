import Lifecycle.Proofs.Json.Escapes
import Lifecycle.Proofs.Json.Numbers

namespace Lifecycle

-- A way of writing that shows where it ends: what follows cannot be taken for a part of it.
def Delimited {α : Type} (write : α → List Char) : Prop :=
  ∀ a b front back, write a ++ front = write b ++ back → a = b ∧ front = back

section
variable {α : Type} {write : α → List Char} {xs ys : List α}

theorem delimited_width (wide : ∀ a, (write a).length = width) (single : ∀ a b, write a = write b → a = b) :
    Delimited write := by
  intro a b front back same
  obtain ⟨written, rest⟩ := List.append_inj same (by rw [wide, wide])
  exact ⟨single a b written, rest⟩

theorem delimited_flatMap (delimited : Delimited write) (count : xs.length = ys.length)
    (same : xs.flatMap write = ys.flatMap write) : xs = ys := by
  induction xs generalizing ys with
  | nil => exact (List.length_eq_zero_iff.mp count.symm).symm
  | cons x xs ih =>
    obtain ⟨y, ys, rfl⟩ := List.exists_cons_of_length_eq_add_one count.symm
    obtain ⟨rfl, rest⟩ := delimited x y _ _ same
    rw [ih (Nat.succ.inj count) rest]

def listed (write : α → List Char) : List α → List Char
  | [] => [']']
  | [a] => write a ++ [']']
  | a :: b :: rest => write a ++ ',' :: listed write (b :: rest)

theorem listed_cons (write : α → List Char) (a : α) (rest : List α) :
    ∃ mark more, (mark = ']' ↔ rest = []) ∧ listed write (a :: rest) = write a ++ mark :: more ∧
      (rest ≠ [] → more = listed write rest) := by
  cases rest with
  | nil => exact ⟨']', [], iff_of_true rfl rfl, rfl, fun some => absurd rfl some⟩
  | cons b rest => exact ⟨',', _, iff_of_false (by decide) (List.cons_ne_nil _ _), rfl, fun _ => rfl⟩

theorem listed_inj (delimited : Delimited write) (opens : ∀ a rest, write a ++ rest ≠ [']'])
    (same : listed write xs = listed write ys) : xs = ys := by
  induction xs generalizing ys with
  | nil =>
    cases ys with
    | nil => rfl
    | cons y ys =>
      obtain ⟨mark, more, _, shape, _⟩ := listed_cons write y ys
      rw [shape] at same
      exact absurd same.symm (opens y _)
  | cons x xs ih =>
    obtain ⟨mark, more, last, shape, behind⟩ := listed_cons write x xs
    cases ys with
    | nil =>
      rw [shape] at same
      exact absurd same (opens x _)
    | cons y ys =>
      obtain ⟨other, rest, ends, shown, follows⟩ := listed_cons write y ys
      rw [shape, shown] at same
      obtain ⟨rfl, tails⟩ := delimited x y _ _ same
      obtain ⟨rfl, rfl⟩ := List.cons.inj tails
      by_cases done : xs = []
      · rw [done, ends.mp (last.mpr done)]
      · have goes : ys ≠ [] := fun none => done (last.mp (ends.mpr none))
        rw [ih ((behind done).symm.trans (follows goes))]

end

namespace Json

theorem escaped_delimited : Delimited fun s => (escaped s).toList := by
  intro s t front back same
  simp only [escaped_chars, List.cons_append, List.append_assoc, List.nil_append, List.cons.injEq, true_and] at same
  have left : s.toList.length < s.toList.length + t.toList.length + 1 := by omega
  have right : t.toList.length < s.toList.length + t.toList.length + 1 := by omega
  obtain ⟨_, one⟩ := readText_escaped 0 s.toList front [] 0 left
  obtain ⟨_, other⟩ := readText_escaped 0 t.toList back [] 0 right
  rw [same, other] at one
  simp only [List.reverse_nil, List.nil_append, String.ofList_toList, Except.ok.injEq, Prod.mk.injEq] at one
  obtain ⟨rfl, rest⟩ := one
  cases rest
  exact ⟨rfl, rfl⟩

theorem digits_inj (other : Text.isAsciiDigit c = false)
    (same : Nat.toDigits 10 m ++ c :: front = Nat.toDigits 10 n ++ c :: back) : m = n ∧ front = back := by
  have ends (rest : List Char) : ∀ d ∈ (c :: rest).head?, Text.isAsciiDigit d = false := by
    rintro d ⟨⟩
    exact other
  obtain ⟨taken, left⟩ := digits_end (toDigits_digits m) (ends front)
  obtain ⟨digits, rest⟩ := digits_end (toDigits_digits n) (ends back)
  rw [same] at taken left
  refine ⟨?_, (List.cons.inj (left.symm.trans rest)).2⟩
  rw [← Nat.ofDigitChars_ten_toDigits (n := m), ← taken, digits, Nat.ofDigitChars_ten_toDigits]

theorem integer_delimited (other : Text.isAsciiDigit c = false) :
    Delimited fun i => (Text.decimalOfInt i).toList ++ [c] := by
  intro i j front back same
  simp only [integer_chars, Numeral.Parts.chars, integerParts, List.append_nil, List.append_assoc,
    List.cons_append, List.nil_append] at same
  have minus (n : Nat) (rest behind : List Char) : '-' :: rest ≠ Nat.toDigits 10 n ++ behind := by
    intro begun
    obtain ⟨d, digits, shape⟩ := List.exists_cons_of_ne_nil (toDigits_whole n).nonempty
    have digit := toDigits_digits n d (shape ▸ List.mem_cons_self)
    rw [shape] at begun
    cases begun
    revert digit
    decide
  by_cases negative : i < 0
  · by_cases below : j < 0
    · simp only [negative, below, decide_true, if_true, List.cons_append, List.nil_append, List.cons.injEq,
        true_and] at same
      obtain ⟨size, rest⟩ := digits_inj other same
      exact ⟨by omega, rest⟩
    · simp [negative, below] at same
      exact absurd same (minus _ _ _)
  · by_cases below : j < 0
    · simp [negative, below] at same
      exact absurd same.symm (minus _ _ _)
    · simp only [negative, below, decide_false, Bool.false_eq_true, if_false, List.nil_append] at same
      obtain ⟨size, rest⟩ := digits_inj other same
      exact ⟨by omega, rest⟩

end Json
end Lifecycle
