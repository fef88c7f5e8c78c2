import Lifecycle.Proofs.Formula.RoundTrip

namespace Lifecycle.Formula

def ReadsBack (v : String) : Prop := ∃ last, scan (literal v) = [⟨.value, v, 0⟩, ⟨.endOfText, "", last⟩]

-- What no number of the scanner holds, though one of the printer may: a line end
-- and a digit of another script.
def IsForeign (c : Char) : Prop := c = '\n' ∨ Text.isDigit c = true ∧ Text.isAsciiDigit c = false

def IsMisread (v : String) : Prop := isNumberText v.toList = true ∧ ∃ c ∈ v.toList, IsForeign c

instance (c : Char) : Decidable (IsForeign c) := inferInstanceAs (Decidable (_ ∨ _))

instance (v : String) : Decidable (IsMisread v) :=
  decidable_of_iff ((isNumberText v.toList && v.toList.any fun c => decide (IsForeign c)) = true) (by simp [IsMisread])

theorem digit_ascii (digit : Text.isDigit c = true) (near : c.toNat ≤ 122) : Text.isAsciiDigit c = true := by
  have zeros : ∀ first ∈ Text.digitZeros, first = 0x30 ∨ 0x660 ≤ first := by decide
  simp only [Text.isDigit, Text.digitValue?, Option.isSome_map, List.find?_isSome, Bool.and_eq_true,
    decide_eq_true_eq] at digit
  obtain ⟨first, listed, range⟩ := digit
  rw [digit_range]
  rcases zeros first listed with rfl | far
  · omega
  · omega

theorem number_native (number : isNumberChar c = true) : ¬IsForeign c := by
  have range := number_range number
  rintro (rfl | ⟨digit, foreign⟩)
  · revert range
    decide
  · rw [digit_ascii digit (by omega)] at foreign
    cases foreign

-- What the printer takes for a number: a sign, digits, a point with digits
-- behind it and a line end. Only the first digits have to be there.
structure IsNumeral (sign whole fraction line : List Char) : Prop where
  signed : sign = [] ∨ sign = ['-']
  present : whole ≠ []
  digits : ∀ c ∈ whole, Text.isDigit c = true
  pointed : fraction = [] ∨ ∃ digits, fraction = '.' :: digits ∧ ∀ c ∈ digits, Text.isDigit c = true
  ended : line = [] ∨ line = ['\n']

theorem unsigned_parts {cs rest : List Char} (present : (!(cs.takeWhile Text.isDigit).isEmpty) = true)
    (left : (match cs.dropWhile Text.isDigit with
      | '.' :: tail => if (tail.takeWhile Text.isDigit).isEmpty then '.' :: tail else tail.dropWhile Text.isDigit
      | tail => tail) = rest)
    (ended : rest.isEmpty = true ∨ decide (rest = ['\n']) = true) :
    ∃ whole fraction line, cs = whole ++ fraction ++ line ∧ IsNumeral [] whole fraction line := by
  simp only [Bool.not_eq_true', List.isEmpty_eq_false_iff, List.isEmpty_iff, decide_eq_true_eq] at present ended
  have digits : ∀ {cs : List Char}, ∀ c ∈ cs.takeWhile Text.isDigit, Text.isDigit c = true :=
    fun c => List.mem_takeWhile_imp
  have whole : cs = cs.takeWhile Text.isDigit ++ cs.dropWhile Text.isDigit := List.takeWhile_append_dropWhile.symm
  split at left
  · rename_i tail opened
    split at left
    · subst left
      simp at ended
    · subst left
      refine ⟨_, '.' :: tail.takeWhile Text.isDigit, _, ?_, .inl rfl, present, digits, .inr ⟨_, rfl, digits⟩, ended⟩
      rw [List.append_assoc, List.cons_append, List.takeWhile_append_dropWhile, ← opened, ← whole]
  · subst left
    exact ⟨_, [], _, by rwa [List.append_nil], .inl rfl, present, digits, .inl rfl, ended⟩

theorem numeral_parts {cs : List Char} (numeral : isNumberText cs = true) : ∃ sign whole fraction line,
    cs = sign ++ whole ++ fraction ++ line ∧ IsNumeral sign whole fraction line := by
  unfold isNumberText at numeral
  dsimp only at numeral
  split at numeral
  all_goals
    rw [Bool.and_eq_true, Bool.or_eq_true] at numeral
    obtain ⟨whole, fraction, line, split, parts⟩ := unsigned_parts numeral.1 rfl numeral.2
  · exact ⟨['-'], whole, fraction, line, congrArg ('-' :: ·) split, { parts with signed := .inr rfl }⟩
  · exact ⟨[], whole, fraction, line, split, parts⟩

theorem numeral_chars {cs : List Char} (numeral : isNumberText cs = true) :
    ∀ c ∈ cs, c = '-' ∨ c = '.' ∨ c = '\n' ∨ Text.isDigit c = true := by
  obtain ⟨sign, whole, fraction, line, rfl, parts⟩ := numeral_parts numeral
  intro c member
  simp only [List.mem_append] at member
  rcases member with ((signs | wholes) | fractions) | lines
  · rcases parts.signed with rfl | rfl
    · cases signs
    · exact .inl (List.mem_singleton.mp signs)
  · exact .inr (.inr (.inr (parts.digits c wholes)))
  · rcases parts.pointed with rfl | ⟨digits, rfl, behind⟩
    · cases fractions
    · rcases List.mem_cons.mp fractions with point | later
      · exact .inr (.inl point)
      · exact .inr (.inr (.inr (behind c later)))
  · rcases parts.ended with rfl | rfl
    · cases lines
    · exact .inr (.inr (.inl (List.mem_singleton.mp lines)))

theorem numeral_front {cs : List Char} (numeral : isNumberText cs = true) : ∃ c rest, cs = c :: rest ∧
    (Text.isDigit c = true ∨ c = '-' ∧ ∃ d more, rest = d :: more ∧ Text.isDigit d = true) := by
  obtain ⟨sign, whole, fraction, line, rfl, parts⟩ := numeral_parts numeral
  obtain ⟨d, more, rfl⟩ := List.exists_cons_of_ne_nil parts.present
  have digit := parts.digits d List.mem_cons_self
  rcases parts.signed with rfl | rfl
  · exact ⟨d, _, rfl, .inl digit⟩
  · exact ⟨'-', _, rfl, .inr ⟨rfl, d, _, rfl, digit⟩⟩

theorem numeral_unquoted {cs : List Char} (numeral : isNumberText cs = true) : ∀ c ∈ cs, ¬IsQuote c := by
  intro c member quote
  rcases numeral_chars numeral c member with rfl | rfl | rfl | digit
  · exact absurd quote (by decide)
  · exact absurd quote (by decide)
  · exact absurd quote (by decide)
  · have := quote_code quote
    have := digit_range.mp (digit_ascii digit (by omega))
    omega

theorem numeral_letter {c : Char} (first : Text.isDigit c = true ∨ c = '-') (letter : isWordChar c = true) :
    Text.isAsciiDigit c = true := by
  rcases first with digit | rfl
  · have range := word_range letter
    exact digit_ascii digit (by omega)
  · cases letter

theorem native_number {cs : List Char} (numeral : isNumberText cs = true) (native : ∀ c ∈ cs, ¬IsForeign c) :
    ∃ c rest, cs = c :: rest ∧ opensNumber c rest = true ∧ ∀ d ∈ rest, isNumberChar d = true := by
  have ascii : ∀ c ∈ cs, Text.isDigit c = true → Text.isAsciiDigit c = true := by
    intro c member digit
    cases known : Text.isAsciiDigit c with
    | true => rfl
    | false => exact absurd (.inr ⟨digit, known⟩) (native c member)
  have numeric : ∀ c ∈ cs, isNumberChar c = true := by
    intro c member
    rcases numeral_chars numeral c member with rfl | rfl | rfl | digit
    · rfl
    · rfl
    · exact absurd (.inl rfl) (native _ member)
    · simp [isNumberChar, ascii c member digit]
  obtain ⟨c, rest, rfl, first⟩ := numeral_front numeral
  refine ⟨c, rest, rfl, ?_, fun d member => numeric d (List.mem_cons_of_mem _ member)⟩
  rcases first with digit | ⟨rfl, d, more, rfl, digit⟩
  · simp [opensNumber, ascii c (by simp) digit]
  · simp [opensNumber, ascii d (by simp) digit]

theorem lex_number (opens : opensNumber c cs = true) : lex c cs =
    (some (.value, String.ofList (c :: cs.takeWhile isNumberChar)), (cs.takeWhile isNumberChar).length) := by
  have number := opensNumber_char opens
  have solid := solid_inside separator_no_number number
  rw [lex_solid solid (number_unquoted number), if_pos opens]

theorem scan_alone {s : String} (spelled : s.toList = c :: cs) (found : lex c cs = (some (kind, text), more))
    (whole : cs.length ≤ more) : scan s = [⟨kind, text, 0⟩, ⟨.endOfText, "", (0 + 1 + more : Nat)⟩] := by
  rw [scan, spelled, scanFrom_token found, scanFrom_covered whole]
  rfl

theorem number_scans {v : String} (numeral : isNumberText v.toList = true) (native : ∀ c ∈ v.toList, ¬IsForeign c) :
    ∃ last, scan v = [⟨.value, v, 0⟩, ⟨.endOfText, "", last⟩] := by
  obtain ⟨c, rest, spelled, opens, numeric⟩ := native_number numeral native
  have found := lex_number opens
  rw [List.takeWhile_eq_self_iff.mpr numeric, ← spelled, String.ofList_toList] at found
  exact ⟨_, scan_alone spelled found (Nat.le_refl _)⟩

theorem quoted_scans {s v : String} (quote : IsQuote c) (inside : c ∉ v.toList)
    (spelled : s.toList = c :: (v.toList ++ [c])) : ∃ last, scan s = [⟨.value, v, 0⟩, ⟨.endOfText, "", last⟩] := by
  have found := lex_quote quote (v.toList ++ [c])
  rw [takeWhile_quoted inside, String.ofList_toList] at found
  exact ⟨_, scan_alone spelled found (by simp)⟩

theorem literal_reads {v : String} (oneQuote : ¬('\'' ∈ v.toList ∧ '"' ∈ v.toList)) (read : ¬IsMisread v) :
    ReadsBack v := by
  unfold ReadsBack
  have printed := literal_printed v
  generalize literal v = s at printed ⊢
  cases printed with
  | number numeral => exact number_scans numeral fun c member foreign => read ⟨numeral, c, member, foreign⟩
  | truth plain => rcases plain with rfl | rfl <;> exact ⟨_, rfl⟩
  | single _ marked =>
    apply quoted_scans (.inl rfl) fun other => oneQuote ⟨other, marked⟩
    simp
  | double _ unmarked =>
    apply quoted_scans (.inr rfl) unmarked
    simp

theorem number_chars {text : String} (spelled : text.toList = c :: digits) (opens : opensNumber c rest = true)
    (numeric : ∀ d ∈ digits, isNumberChar d = true) : ∀ d ∈ text.toList, isNumberChar d = true := by
  rw [spelled, List.forall_mem_cons]
  exact ⟨opensNumber_char opens, numeric⟩

theorem value_front (covers : Covers .value text chars rest) (first : chars.head? = some d) :
    IsQuote d ∧ d ∉ text.toList ∨ isWordChar d = true ∧ Text.isAsciiDigit d = false ∨
      isNumberChar d = true ∧ ∀ e ∈ text.toList, isNumberChar e = true := by
  cases covers with
  | truth word =>
    right; left
    exact ⟨word.letters d (List.mem_of_head? first), word.noDigit d first⟩
  | number spelled opens numeric =>
    right; right
    have numbers := number_chars spelled opens numeric
    exact ⟨numbers d (List.mem_of_head? first), numbers⟩
  | quoted quote inside | unclosed quote inside =>
    left
    cases first
    exact ⟨quote, inside⟩

theorem ReadsBack.front (readsBack : ReadsBack v) (first : (literal v).toList.head? = some d) :
    IsQuote d ∧ d ∉ v.toList ∨ isWordChar d = true ∧ Text.isAsciiDigit d = false ∨
      isNumberChar d = true ∧ ∀ e ∈ v.toList, isNumberChar e = true := by
  obtain ⟨last, tokens⟩ := readsBack
  have member : (⟨.value, v, 0⟩ : Token) ∈ scan (literal v) := by
    rw [tokens]
    exact List.mem_cons_self
  obtain ⟨front, chars, back, split, start, covers⟩ := token_covers member (nofun)
  obtain rfl : front = [] := by
    rw [← List.length_eq_zero_iff]
    dsimp only at start
    omega
  obtain ⟨c, more, rfl⟩ := List.exists_cons_of_ne_nil covers.present
  rw [split] at first
  exact value_front covers first

theorem numeral_bare (numeral : isNumberText v.toList = true) : literal v = v := by
  rw [literal, if_pos (by simp [numeral])]

theorem misread_lost (misread : IsMisread v) : ¬ReadsBack v := by
  intro readsBack
  obtain ⟨numeral, c, member, foreign⟩ := misread
  obtain ⟨d, rest, spelled, opens⟩ := numeral_front numeral
  rcases readsBack.front (by rw [numeral_bare numeral, spelled]; rfl) with ⟨quote, _⟩ | ⟨letter, noDigit⟩ | ⟨_, numeric⟩
  · exact numeral_unquoted numeral d (by simp [spelled]) quote
  · rw [numeral_letter (opens.imp_right And.left) letter] at noDigit
    cases noDigit
  · exact number_native (numeric c member) foreign

theorem quotes_lost (single : '\'' ∈ v.toList) (double : '"' ∈ v.toList) : ¬ReadsBack v := by
  intro readsBack
  have first : (literal v).toList.head? = some '\'' := by
    have printed := literal_printed v
    generalize literal v = s at printed ⊢
    cases printed with
    | number numeral => exact absurd (.inl rfl) (numeral_unquoted numeral _ single)
    | truth plain =>
      revert single
      rcases plain with rfl | rfl <;> decide
    | single => simp
    | double _ unmarked => exact absurd double unmarked
  rcases readsBack.front first with ⟨_, inside⟩ | ⟨letter, _⟩ | ⟨number, _⟩
  · exact inside single
  · cases letter
  · cases number

theorem readsBack_exact (v : String) : ReadsBack v ↔ ¬('\'' ∈ v.toList ∧ '"' ∈ v.toList) ∧ ¬IsMisread v := by
  constructor
  · intro readsBack
    exact ⟨fun both => quotes_lost both.1 both.2 readsBack, fun misread => misread_lost misread readsBack⟩
  · intro fits
    exact literal_reads fits.1 fits.2

theorem lower_char (c : Char) : c.toLower = c ∨ 65 ≤ c.toNat ∧ c.toNat ≤ 90 ∧ c.toLower.toNat = c.toNat + 32 := by
  unfold Char.toLower
  split
  · rename_i range
    right
    rw [ge_iff_le, UInt32.le_iff_toNat_le, UInt32.le_iff_toNat_le] at range
    change 65 ≤ c.toNat ∧ c.toNat ≤ 90 at range
    have moved : (c.val + 32).toNat = (c.toNat + 32) % 2 ^ 32 := UInt32.toNat_add _ _
    refine ⟨range.1, range.2, ?_⟩
    change (c.val + 32).toNat = c.toNat + 32
    omega
  · exact .inl rfl

theorem lower_word (letter : isWordChar c = true) :
    isWordChar c.toLower = true ∧ Text.isAsciiDigit c.toLower = Text.isAsciiDigit c := by
  rcases lower_char c with same | ⟨low, high, moved⟩
  · rw [same]
    exact ⟨letter, rfl⟩
  · have small : 'a' ≤ c.toLower ∧ c.toLower ≤ 'z' := by
      rw [Char.le_def, Char.le_def, UInt32.le_iff_toNat_le, UInt32.le_iff_toNat_le]
      change 97 ≤ c.toLower.toNat ∧ c.toLower.toNat ≤ 122
      omega
    refine ⟨by simp [isWordChar, small], ?_⟩
    rw [Bool.eq_iff_iff, digit_range, digit_range]
    omega

theorem value_quotes (covers : Covers .value text chars rest) : ¬('\'' ∈ text.toList ∧ '"' ∈ text.toList) := by
  rintro ⟨single, double⟩
  cases covers with
  | truth word =>
    rw [Text.lower, String.toList_ofList, String.toList_ofList, List.mem_map] at single
    obtain ⟨d, member, same⟩ := single
    exact word_unquoted (lower_word (word.letters d member)).1 (.inl same)
  | number spelled opens numeric =>
    exact number_unquoted (number_chars spelled opens numeric _ single) (.inl rfl)
  | quoted quote inside | unclosed quote inside =>
    rcases quote with rfl | rfl
    · exact inside single
    · exact inside double

theorem unquoted_native (covers : Covers .value text chars rest) (plain : ∀ c ∈ chars, ¬IsQuote c) :
    ¬IsMisread text := by
  rintro ⟨numeral, c, member, foreign⟩
  cases covers with
  | truth word =>
    obtain ⟨d, more, lowered, first⟩ := numeral_front numeral
    rw [Text.lower, String.toList_ofList, String.toList_ofList] at lowered
    obtain ⟨e, es, rfl, rfl, _⟩ := List.map_eq_cons_iff.mp lowered
    obtain ⟨letter, same⟩ := lower_word (word.letters e List.mem_cons_self)
    have digit := numeral_letter (first.imp_right And.left) letter
    rw [same, word.noDigit e rfl] at digit
    cases digit
  | number spelled opens numeric => exact number_native (number_chars spelled opens numeric c member) foreign
  | quoted quote | unclosed quote => exact plain _ List.mem_cons_self quote

end Lifecycle.Formula
