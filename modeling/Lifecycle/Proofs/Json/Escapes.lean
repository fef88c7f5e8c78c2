import Lifecycle.Json.Parser
import Lifecycle.Json.Printer

namespace Lifecycle

namespace Text

theorem hexOfNat_last (wide : 0 < width) (n : Nat) :
    (hexOfNat (width + 1) n).toList = (hexOfNat width (n / 16)).toList ++ [Nat.digitChar (n % 16)] := by
  simp only [hexOfNat, String.toList_ofList]
  by_cases single : n < 16
  · have first : n / 16 = 0 := Nat.div_eq_of_lt single
    have zeros : List.replicate width '0' = List.replicate (width - 1) '0' ++ ['0'] := by
      rw [← List.replicate_succ', Nat.sub_add_cancel wide]
    rw [Nat.toDigits_of_lt_base single, first, Nat.toDigits_zero, Nat.mod_eq_of_lt single]
    simp [zeros]
  · rw [Nat.toDigits_of_base_le (by decide) (Nat.not_lt.mp single), List.length_append, List.length_singleton,
      Nat.add_sub_add_right, List.append_assoc]

theorem hexOfNat_four (unit : n < 65536) : (hexOfNat 4 n).toList =
    [Nat.digitChar (n / 4096), Nat.digitChar (n / 256 % 16), Nat.digitChar (n / 16 % 16), Nat.digitChar (n % 16)] := by
  have single : (hexOfNat 1 (n / 4096)).toList = [Nat.digitChar (n / 4096)] := by
    rw [hexOfNat, Nat.toDigits_of_lt_base (by omega), String.toList_ofList]
    rfl
  rw [hexOfNat_last (by decide), hexOfNat_last (by decide), hexOfNat_last (by decide), Nat.div_div_eq_div_mul,
    Nat.div_div_eq_div_mul, single]
  simp only [List.cons_append, List.nil_append, Nat.div_div_eq_div_mul]

end Text

namespace Json

theorem hexDigit_digitChar (small : d < 16) : hexDigit? (Nat.digitChar d) = some d := by
  have all : ∀ d : Fin 16, hexDigit? (Nat.digitChar d) = some d.val := by decide
  exact all ⟨d, small⟩

theorem unit_hexOfNat (unit : n < 65536) (c : Char) (rest : List Char) :
    unit? ((Text.hexOfNat 4 n).toList ++ c :: rest) = some (n, c :: rest) := by
  have first : n / 4096 < 16 := by omega
  have digit (m : Nat) : m % 16 < 16 := Nat.mod_lt m (by decide)
  have value : ((n / 4096 * 16 + n / 256 % 16) * 16 + n / 16 % 16) * 16 + n % 16 = n := by omega
  rw [Text.hexOfNat_four unit]
  simp [unit?, hexDigit_digitChar first, hexDigit_digitChar (digit _), value]

def shortEscaped : List Char := ['"', '\\', '\n', '\r', '\t', '\x08', '\x0c']

theorem escapedChar_short (short : c ∈ shortEscaped) :
    ∃ mark, (escapedChar c).toList = ['\\', mark] ∧ shortEscape? mark = some c ∧ mark ≠ 'u' := by
  simp only [shortEscaped, List.mem_cons, List.not_mem_nil, or_false] at short
  rcases short with rfl | rfl | rfl | rfl | rfl | rfl | rfl
  all_goals exact ⟨_, rfl, rfl, by decide⟩

theorem escapedChar_long (long : c ∉ shortEscaped) : escapedChar c =
    if 32 ≤ c.toNat && c.toNat ≤ 126 then c.toString
    else if c.toNat < 0x10000 then "\\u" ++ Text.hexOfNat 4 c.toNat
    else "\\u" ++ Text.hexOfNat 4 (unitPair c.toNat).1 ++ "\\u" ++ Text.hexOfNat 4 (unitPair c.toNat).2 := by
  simp only [shortEscaped, List.mem_cons, List.not_mem_nil, or_false, not_or] at long
  obtain ⟨quote, backslash, newline, return', tab, back, feed⟩ := long
  have eight : c.toNat ≠ 8 := fun number => back (Char.toNat_inj.mp number)
  have twelve : c.toNat ≠ 12 := fun number => feed (Char.toNat_inj.mp number)
  rw [escapedChar, if_neg quote, if_neg backslash, if_neg newline, if_neg return', if_neg tab, if_neg eight,
    if_neg twelve]

section
variable (start fuel : Nat) (acc : List Char) (position : Nat) (rest : List Char)

theorem readText_plain (quote : c ≠ '"') (backslash : c ≠ '\\') (visible : 32 ≤ c.toNat) :
    readText start (fuel + 1) acc ⟨position, c :: rest⟩ = readText start fuel (c :: acc) ⟨position + 1, rest⟩ := by
  have shown : ¬ c.toNat < 32 := Nat.not_lt.mpr visible
  rw [readText]
  · rw [if_neg shown]
  · exact quote
  · exact fun same _ => backslash same
  · exact fun _ same _ => backslash same
  · exact fun _ _ same _ => backslash same

theorem readText_short (read : shortEscape? mark = some c) (other : mark ≠ 'u') :
    readText start (fuel + 1) acc ⟨position, '\\' :: mark :: rest⟩ =
      readText start fuel (c :: acc) ⟨position + 2, rest⟩ := by
  rw [readText]
  · rw [read]
  · exact other

theorem readText_unit (unit : unit? rest = some (n, after)) (joined : joinUnits n after = some (c, tail, more)) :
    readText start (fuel + 1) acc ⟨position, '\\' :: 'u' :: rest⟩ =
      readText start fuel (c :: acc) ⟨position + 6 + more, tail⟩ := by
  rw [readText, unit]
  simp only [joined]

theorem joinUnits_single (c : Char) : joinUnits c.toNat rest = some (c, rest, 0) := by
  have valid : c.toNat < 0xD800 ∨ 0xDFFF < c.toNat := by
    rcases c.valid with low | high
    · exact .inl low
    · exact .inr high.1
  have first : ¬ (decide (0xD800 ≤ c.toNat) && decide (c.toNat < 0xDC00)) = true := by
    simp only [Bool.and_eq_true, decide_eq_true_eq]
    omega
  have second : ¬ (decide (0xDC00 ≤ c.toNat) && decide (c.toNat < 0xE000)) = true := by
    simp only [Bool.and_eq_true, decide_eq_true_eq]
    omega
  unfold joinUnits
  rw [if_neg first, if_neg second, Char.ofNat_toNat]

theorem unitPair_range (c : Char) (large : 0x10000 ≤ c.toNat) :
    0xD800 ≤ (unitPair c.toNat).1 ∧ (unitPair c.toNat).1 < 0xDC00 ∧
    0xDC00 ≤ (unitPair c.toNat).2 ∧ (unitPair c.toNat).2 < 0xE000 ∧
    0x10000 + ((unitPair c.toNat).1 - 0xD800) * 0x400 + ((unitPair c.toNat).2 - 0xDC00) = c.toNat := by
  have bound : c.toNat < 0x110000 := by
    rcases c.valid with low | high
    · exact Nat.lt_trans low (by decide)
    · exact high.2
  simp only [unitPair]
  omega

theorem joinUnits_pair (c next : Char) (large : 0x10000 ≤ c.toNat) :
    joinUnits (unitPair c.toNat).1 ('\\' :: 'u' :: ((Text.hexOfNat 4 (unitPair c.toNat).2).toList ++ next :: rest)) =
      some (c, next :: rest, 6) := by
  obtain ⟨fromHigh, toHigh, fromLow, toLow, joined⟩ := unitPair_range c large
  have read := unit_hexOfNat (Nat.lt_trans toLow (by decide)) next rest
  simp only [joinUnits, fromHigh, toHigh, decide_true, Bool.and_self, if_true, read, fromLow, toLow, joined,
    Char.ofNat_toNat]

theorem readText_escapedChar (c next : Char) :
    ∃ after, readText start (fuel + 1) acc ⟨position, (escapedChar c).toList ++ next :: rest⟩ =
      readText start fuel (c :: acc) ⟨after, next :: rest⟩ := by
  by_cases short : c ∈ shortEscaped
  · obtain ⟨mark, text, read, other⟩ := escapedChar_short short
    rw [text]
    exact ⟨_, readText_short start fuel acc position (next :: rest) read other⟩
  · have quote : c ≠ '"' := by
      rintro rfl
      exact short (by decide)
    have backslash : c ≠ '\\' := by
      rintro rfl
      exact short (by decide)
    rw [escapedChar_long short]
    split
    · rename_i range
      simp only [Bool.and_eq_true, decide_eq_true_eq] at range
      have text : c.toString.toList = [c] := by simp
      rw [text]
      exact ⟨_, readText_plain start fuel acc position (next :: rest) quote backslash range.1⟩
    split
    · rename_i unit
      have mark : "\\u".toList = ['\\', 'u'] := rfl
      have read := readText_unit start fuel acc position _ (unit_hexOfNat unit next rest) (joinUnits_single _ c)
      rw [String.toList_append, mark]
      exact ⟨_, read⟩
    · rename_i large
      have mark : "\\u".toList = ['\\', 'u'] := rfl
      have unit : (unitPair c.toNat).1 < 65536 :=
        Nat.lt_trans (unitPair_range c (Nat.not_lt.mp large)).2.1 (by decide)
      have read := readText_unit start fuel acc position _ (unit_hexOfNat unit '\\'
        ('u' :: ((Text.hexOfNat 4 (unitPair c.toNat).2).toList ++ next :: rest)))
        (joinUnits_pair _ c next (Nat.not_lt.mp large))
      simp only [String.toList_append, mark, List.append_assoc]
      exact ⟨_, read⟩

end

theorem readText_escaped (start : Nat) (cs tail : List Char) (acc : List Char) (position : Nat)
    (enough : cs.length < fuel) :
    ∃ after, readText start fuel acc ⟨position, cs.flatMap (fun c => (escapedChar c).toList) ++ '"' :: tail⟩ =
      .ok (String.ofList (acc.reverse ++ cs), ⟨after, tail⟩) := by
  induction cs generalizing fuel acc position with
  | nil =>
    cases fuel with
    | zero => cases enough
    | succ fuel =>
      rw [List.append_nil]
      exact ⟨_, rfl⟩
  | cons c rest ih =>
    cases fuel with
    | zero => cases enough
    | succ fuel =>
      obtain ⟨next, behind, shape⟩ : ∃ next behind,
          rest.flatMap (fun c => (escapedChar c).toList) ++ '"' :: tail = next :: behind :=
        List.exists_cons_of_ne_nil (by simp)
      obtain ⟨moved, first⟩ := readText_escapedChar start fuel acc position behind c next
      obtain ⟨after, later⟩ := ih (c :: acc) moved (Nat.lt_of_succ_lt_succ enough)
      rw [List.flatMap_cons, List.append_assoc, shape, first, ← shape, later, List.reverse_cons, List.append_assoc]
      exact ⟨after, rfl⟩

theorem escaped_chars (s : String) :
    (escaped s).toList = '"' :: (s.toList.flatMap (fun c => (escapedChar c).toList) ++ ['"']) := by
  have mark : "\"".toList = ['"'] := rfl
  rw [escaped, String.toList_append, String.toList_append, String.toList_join, List.flatMap_map, mark]
  rfl

end Json
end Lifecycle
