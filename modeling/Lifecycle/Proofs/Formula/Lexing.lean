import Lifecycle.Formula.Token
import Mathlib.Data.List.TakeWhile

namespace Lifecycle.Formula

def isSeparator (c : Char) : Bool := Text.isBlank c || c = '(' || c = ')'

def Separated (rest : List Char) : Prop := ∀ c, rest.head? = some c → isSeparator c = true

theorem digit_range : Text.isAsciiDigit c = true ↔ 48 ≤ c.toNat ∧ c.toNat ≤ 57 := by
  simp [Text.isAsciiDigit, Char.le_def, UInt32.le_iff_toNat_le]

theorem number_range (number : isNumberChar c = true) : 45 ≤ c.toNat ∧ c.toNat ≤ 57 := by
  simp only [isNumberChar, Bool.or_eq_true, decide_eq_true_eq, digit_range] at number
  rcases number with (digit | rfl) | rfl
  · omega
  all_goals decide

theorem word_range (word : isWordChar c = true) : 46 ≤ c.toNat ∧ c.toNat ≤ 122 ∨ c.toNat = 33 := by
  simp only [isWordChar, Bool.or_eq_true, Bool.and_eq_true, decide_eq_true_eq, Char.le_def,
    UInt32.le_iff_toNat_le, digit_range] at word
  rcases word with (((((((letter | letter) | digit) | rfl) | rfl) | rfl) | rfl) | rfl) | rfl
  · change 97 ≤ c.toNat ∧ c.toNat ≤ 122 at letter
    omega
  · change 65 ≤ c.toNat ∧ c.toNat ≤ 90 at letter
    omega
  · omega
  all_goals decide

theorem separator_range (separator : isSeparator c = true) :
    c.toNat < 33 ∨ 122 < c.toNat ∨ c.toNat = 40 ∨ c.toNat = 41 := by
  simp only [isSeparator, Text.isBlank, Bool.or_eq_true, Bool.and_eq_true, decide_eq_true_eq,
    beq_iff_eq] at separator
  rcases separator with (blank | rfl) | rfl
  · omega
  all_goals decide

theorem separator_no_number (separator : isSeparator c = true) : isNumberChar c = false := by
  apply Bool.eq_false_iff.mpr
  intro number
  have := separator_range separator
  have := number_range number
  omega

theorem separator_no_word (separator : isSeparator c = true) : isWordChar c = false := by
  apply Bool.eq_false_iff.mpr
  intro word
  have := separator_range separator
  have := word_range word
  omega

theorem separator_no_digit (separator : isSeparator c = true) : Text.isAsciiDigit c = false := by
  apply Bool.eq_false_iff.mpr
  intro digit
  have := separator_range separator
  have := digit_range.mp digit
  omega

theorem solid_inside {p : Char → Bool} (stops : isSeparator c = true → p c = false) (inside : p c = true) :
    isSeparator c = false := by
  rw [Bool.eq_false_iff]
  intro separator
  rw [stops separator] at inside
  cases inside

theorem takeWhile_separated (cs : List Char) (separated : Separated rest)
    (stops : ∀ c, isSeparator c = true → p c = false) :
    (cs ++ rest).takeWhile p = cs.takeWhile p := by
  have nothing : rest.takeWhile p = [] := by
    cases rest with
    | nil => rfl
    | cons c rest => simp [stops c (separated c rfl)]
  rw [List.takeWhile_append, nothing]
  split
  · rename_i whole
    rw [List.append_nil, (List.takeWhile_prefix p).eq_of_length whole]
  · rfl

theorem lex_quote (quote : c = '\'' ∨ c = '"') (cs : List Char) :
    lex c cs = (some (.value, String.ofList (cs.takeWhile (· != c))), (cs.takeWhile (· != c)).length + 1) := by
  rcases quote with rfl | rfl <;> rfl

theorem lex_solid (solid : isSeparator c = false) (unquoted : ¬(c = '\'' ∨ c = '"')) (cs : List Char) : lex c cs =
    if opensNumber c cs then
      (some (.value, String.ofList (c :: cs.takeWhile isNumberChar)), (cs.takeWhile isNumberChar).length)
    else if isWordChar c then
      let (kind, text, size) := classify (c :: cs.takeWhile isWordChar)
      (some (kind, text), size - 1)
    else (none, 0) := by
  simp only [isSeparator, Bool.or_eq_false_iff, decide_eq_false_iff_not] at solid
  simp [lex, solid, unquoted]

-- A token that ends within the text is the same whatever comes behind a
-- separator. Only a quote may look further.
theorem lex_append (c : Char) (separated : Separated rest) (within : (lex c cs).2 ≤ cs.length) :
    lex c (cs ++ rest) = lex c cs := by
  by_cases quote : c = '\'' ∨ c = '"'
  · rw [lex_quote quote] at within
    have body : (cs ++ rest).takeWhile (· != c) = cs.takeWhile (· != c) := by
      rw [List.takeWhile_append, if_neg (by omega)]
    rw [lex_quote quote, lex_quote quote, body]
  · have digit : opensNumber c (cs ++ rest) = opensNumber c cs := by
      cases cs with
      | cons d cs => rfl
      | nil =>
        cases rest with
        | nil => rfl
        | cons d rest => simp [opensNumber, separator_no_digit (separated d rfl)]
    have number := takeWhile_separated cs separated fun _ => separator_no_number
    have word := takeWhile_separated cs separated fun _ => separator_no_word
    have unquoted : ¬(decide (c = '\'') || decide (c = '"')) = true := by simpa using quote
    simp only [lex, if_neg unquoted, digit, number, word]

theorem scanFrom_nil : scanFrom covered position [] = [⟨.endOfText, "", (position + covered : Nat)⟩] := by
  cases covered <;> rfl

theorem scanFrom_inside : scanFrom (covered + 1) position (c :: cs) = scanFrom covered (position + 1) cs := rfl

theorem scanFrom_token (found : lex c cs = (some (kind, text), more)) :
    scanFrom 0 position (c :: cs) = ⟨kind, text, position⟩ :: scanFrom more (position + 1) cs := by
  rw [scanFrom.eq_def]
  dsimp only
  rw [found]

theorem scanFrom_skip (skipped : lex c cs = (none, more)) :
    scanFrom 0 position (c :: cs) = scanFrom more (position + 1) cs := by
  rw [scanFrom.eq_def]
  dsimp only
  rw [skipped]

theorem scanFrom_ne_nil : scanFrom covered position cs ≠ [] := by
  induction cs generalizing covered position with
  | nil => simp [scanFrom_nil]
  | cons c cs ih =>
    cases covered with
    | succ covered => exact ih
    | zero =>
      rcases found : lex c cs with ⟨_ | ⟨kind, text⟩, more⟩
      · rw [scanFrom_skip found]
        exact ih
      · simp [scanFrom_token found]

theorem getLast_token (t : Token) :
    (t :: scanFrom covered position cs).getLast? = (scanFrom covered position cs).getLast? := by
  rw [List.getLast?_cons, List.getLast?_eq_some_getLast scanFrom_ne_nil]
  rfl

-- Every token ends within the text: the end token stands at its end, so no
-- quote is left open.
def Closed (covered position : Nat) (cs : List Char) : Prop :=
  (scanFrom covered position cs).getLast? = some ⟨.endOfText, "", (position + cs.length : Nat)⟩

theorem scanFrom_covered (past : cs.length ≤ covered) :
    scanFrom covered position cs = [⟨.endOfText, "", (position + covered : Nat)⟩] := by
  induction cs generalizing covered position with
  | nil => exact scanFrom_nil
  | cons c cs ih =>
    cases covered with
    | zero => simp at past
    | succ covered =>
      rw [scanFrom_inside, ih (by simpa using past)]
      congr 3
      omega

theorem closed_within (closed : Closed covered position cs) : covered ≤ cs.length := by
  rcases Nat.le_total covered cs.length with inside | past
  · exact inside
  · rw [Closed, scanFrom_covered past] at closed
    simp at closed
    omega

theorem scanFrom_append (closed : Closed covered position cs) (separated : Separated rest) :
    scanFrom covered position (cs ++ rest) =
      (scanFrom covered position cs).dropLast ++ scanFrom 0 (position + cs.length) rest := by
  induction cs generalizing covered position with
  | nil =>
    have nothing := closed_within closed
    simp only [List.length_nil, Nat.le_zero] at nothing
    subst nothing
    simp [scanFrom_nil]
  | cons c cs ih =>
    have shift : position + (c :: cs).length = position + 1 + cs.length := by
      rw [List.length_cons]
      omega
    rw [Closed, shift] at closed
    rw [shift, List.cons_append]
    cases covered with
    | succ covered => exact ih closed
    | zero =>
      rcases found : lex c cs with ⟨_ | ⟨kind, text⟩, more⟩
      · rw [scanFrom_skip found] at closed ⊢
        have same := lex_append c separated (by rw [found]; exact closed_within closed)
        rw [scanFrom_skip (same.trans found), ih closed]
      · rw [scanFrom_token found] at closed ⊢
        have later : Closed more (position + 1) cs := by rwa [getLast_token] at closed
        have same := lex_append c separated (by rw [found]; exact closed_within later)
        rw [scanFrom_token (same.trans found), ih later, List.dropLast_cons_of_ne_nil scanFrom_ne_nil]
        rfl

def Token.shift (offset : Nat) (t : Token) : Token := { t with position := t.position + offset }

theorem scanFrom_shift (offset : Nat) :
    scanFrom covered (position + offset) cs = (scanFrom covered position cs).map (·.shift offset) := by
  induction cs generalizing covered position with
  | nil =>
    simp only [scanFrom_nil, List.map_cons, List.map_nil, Token.shift]
    congr 2
    omega
  | cons c cs ih =>
    have next : position + offset + 1 = position + 1 + offset := by omega
    cases covered with
    | succ covered => rw [scanFrom_inside, scanFrom_inside, next, ih]
    | zero =>
      rcases found : lex c cs with ⟨_ | ⟨kind, text⟩, more⟩
      · rw [scanFrom_skip found, scanFrom_skip found, next, ih]
      · rw [scanFrom_token found, scanFrom_token found, next, ih]
        simp [Token.shift]

theorem closed_shift (closed : Closed covered position cs) (offset : Nat) :
    Closed covered (position + offset) cs := by
  rw [Closed] at closed ⊢
  rw [scanFrom_shift, List.getLast?_map, closed]
  simp only [Option.map_some, Token.shift]
  congr 2
  omega

inductive Classified (word : List Char) : TokenKind × String × Nat → Prop where
  | conj (spelled : Text.upper (String.ofList word) = "AND") : Classified word (.conj, "AND", word.length)
  | disj (spelled : Text.upper (String.ofList word) = "OR") : Classified word (.disj, "OR", word.length)
  | truth (spelled : Text.upper (String.ofList word) = "TRUE" ∨ Text.upper (String.ofList word) = "FALSE") :
      Classified word (.value, Text.lower (String.ofList word), word.length)
  | operator (leading : leadingOperator? word = some op) : Classified word (.operator, op, op.length)
  | field (plain : Text.upper (String.ofList word) ∉ ["AND", "OR", "TRUE", "FALSE"])
      (free : leadingOperator? word = none) : Classified word (.field, String.ofList word, word.length)

theorem classify_classified (word : List Char) : Classified word (classify word) := by
  unfold classify
  dsimp only
  split
  · exact .conj ‹_›
  split
  · exact .disj ‹_›
  split
  · rename_i spelled
    exact .truth (by simpa using spelled)
  split
  · exact .operator ‹_›
  · rename_i noConj noDisj noTruth _ free
    exact .field (by simpa [noConj, noDisj] using noTruth) free

theorem leadingOperator_front (leading : leadingOperator? word = some op) :
    op ∈ operatorTexts ∧ op.toList <+: word :=
  ⟨List.mem_of_find?_eq_some leading, List.isPrefixOf_iff_prefix.mp
    (List.find?_some (p := fun op : String => op.toList.isPrefixOf word) leading)⟩

inductive Lexed (c : Char) (cs : List Char) : Option (TokenKind × String) × Nat → Prop where
  | blank (blank : Text.isBlank c = true) : Lexed c cs (none, 0)
  | opening (mark : c = '(') : Lexed c cs (some (.openParen, "("), 0)
  | closing (mark : c = ')') : Lexed c cs (some (.closeParen, ")"), 0)
  | quoted (quote : c = '\'' ∨ c = '"') : Lexed c cs
      (some (.value, String.ofList (cs.takeWhile (· != c))), (cs.takeWhile (· != c)).length + 1)
  | number (opens : opensNumber c cs = true) : Lexed c cs
      (some (.value, String.ofList (c :: cs.takeWhile isNumberChar)), (cs.takeWhile isNumberChar).length)
  | word (letter : isWordChar c = true) (known : classify (c :: cs.takeWhile isWordChar) = (kind, text, size))
      (noNumber : opensNumber c cs = false) : Lexed c cs (some (kind, text), size - 1)
  | skipped (noMark : c ≠ '(' ∧ c ≠ ')') (unquoted : ¬(c = '\'' ∨ c = '"')) (noNumber : opensNumber c cs = false)
      (noLetter : isWordChar c = false) : Lexed c cs (none, 0)

theorem lex_lexed (c : Char) (cs : List Char) : Lexed c cs (lex c cs) := by
  unfold lex
  rcases known : classify (c :: cs.takeWhile isWordChar) with ⟨kind, text, size⟩
  dsimp only
  split
  · exact .blank ‹_›
  split
  · exact .opening ‹_›
  split
  · exact .closing ‹_›
  split
  · rename_i quote
    exact .quoted (by simpa using quote)
  split
  · exact .number ‹_›
  rename_i noNumber
  split
  · exact .word ‹_› known (Bool.eq_false_iff.mpr noNumber)
  · rename_i opening closing unquoted noLetter
    exact .skipped ⟨opening, closing⟩ (by simpa using unquoted) (Bool.eq_false_iff.mpr noNumber)
      (Bool.eq_false_iff.mpr noLetter)

theorem scanFrom_blank (blank : Text.isBlank c = true) :
    scanFrom 0 position (c :: cs) = scanFrom 0 (position + 1) cs :=
  scanFrom_skip (by rw [lex, if_pos blank])

theorem scanFrom_blanks (blanks : ∀ c ∈ cs, Text.isBlank c = true) :
    scanFrom 0 position cs = [⟨.endOfText, "", (position + cs.length : Nat)⟩] := by
  induction cs generalizing position with
  | nil => rfl
  | cons c cs ih =>
    rw [scanFrom_blank (blanks c (by simp)), ih fun d member => blanks d (by simp [member])]
    simp only [List.length_cons]
    congr 3
    omega

theorem trimmed_blanks (nothing : Text.trimChars cs = []) : ∀ c ∈ cs, Text.isBlank c = true := by
  have behind : ∀ c ∈ cs.dropWhile Text.isBlank, Text.isBlank c = true := by
    rw [Text.trimChars, List.reverse_eq_nil_iff, List.dropWhile_eq_nil_iff] at nothing
    exact fun c member => nothing c (List.mem_reverse.mpr member)
  intro c member
  rw [← List.takeWhile_append_dropWhile (p := Text.isBlank) (l := cs)] at member
  rcases List.mem_append.mp member with first | second
  · exact List.mem_takeWhile_imp first
  · exact behind c second

end Lifecycle.Formula
