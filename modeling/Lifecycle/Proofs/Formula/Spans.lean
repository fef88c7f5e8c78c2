import Lifecycle.Proofs.Formula.Lexing

namespace Lifecycle.Formula

def IsQuote (c : Char) : Prop := c = '\'' ∨ c = '"'

instance (c : Char) : Decidable (IsQuote c) := inferInstanceAs (Decidable (c = '\'' ∨ c = '"'))

-- All the word characters that stand together; a digit in front would have made
-- a number of them.
structure IsWord (chars rest : List Char) : Prop where
  present : chars ≠ []
  noDigit : ∀ c, chars.head? = some c → Text.isAsciiDigit c = false
  letters : ∀ c ∈ chars, isWordChar c = true
  whole : ∀ c, rest.head? = some c → isWordChar c = false

-- The characters that a token stands for, and what follows them. A quote that
-- nothing closes reaches to the end of the text.
inductive Covers : TokenKind → String → List Char → List Char → Prop where
  | opening : Covers .openParen "(" ['('] rest
  | closing : Covers .closeParen ")" [')'] rest
  | conj (word : IsWord chars rest) (spelled : Text.upper (String.ofList chars) = "AND") :
      Covers .conj "AND" chars rest
  | disj (word : IsWord chars rest) (spelled : Text.upper (String.ofList chars) = "OR") :
      Covers .disj "OR" chars rest
  | truth (word : IsWord chars rest) (spelled : Text.upper (String.ofList chars) ∈ ["TRUE", "FALSE"]) :
      Covers .value (Text.lower (String.ofList chars)) chars rest
  | operator (known : text ∈ operatorTexts) : Covers .operator text text.toList rest
  | field (word : IsWord text.toList rest) (plain : Text.upper text ∉ ["AND", "OR", "TRUE", "FALSE"])
      (free : ∀ op ∈ operatorTexts, ¬op.toList <+: text.toList) : Covers .field text text.toList rest
  | number (spelled : text.toList = c :: digits) (opens : opensNumber c (digits ++ rest) = true)
      (numeric : ∀ d ∈ digits, isNumberChar d = true) (whole : ∀ d, rest.head? = some d → isNumberChar d = false) :
      Covers .value text text.toList rest
  | quoted (quote : IsQuote c) (inside : c ∉ text.toList) : Covers .value text (c :: (text.toList ++ [c])) rest
  | unclosed (quote : IsQuote c) (inside : c ∉ text.toList) : Covers .value text (c :: text.toList) []

-- What no token covers: a blank, or a character that can start none.
def Idle (c : Char) (rest : List Char) : Prop :=
  Text.isBlank c = true ∨
    c ≠ '(' ∧ c ≠ ')' ∧ ¬IsQuote c ∧ opensNumber c rest = false ∧ isWordChar c = false

def quoteAfter : Option Char → List Char → Option Char
  | quote, [] => quote
  | none, c :: rest => quoteAfter (if IsQuote c then some c else none) rest
  | some quote, c :: rest => quoteAfter (if c = quote then none else some quote) rest

theorem quoteAfter_append (quote : Option Char) (front back : List Char) :
    quoteAfter quote (front ++ back) = quoteAfter (quoteAfter quote front) back := by
  induction front generalizing quote with
  | nil => cases quote <;> rfl
  | cons c front ih => cases quote <;> exact ih _

theorem quoteAfter_plain (plain : ∀ c ∈ chars, ¬IsQuote c) : quoteAfter none chars = none := by
  induction chars with
  | nil => rfl
  | cons c chars ih =>
    rw [quoteAfter, if_neg (plain c (by simp))]
    exact ih fun d member => plain d (by simp [member])

theorem quoteAfter_inside (inside : c ∉ chars) : quoteAfter (some c) chars = some c := by
  induction chars with
  | nil => rfl
  | cons d chars ih =>
    rw [List.mem_cons, not_or] at inside
    rw [quoteAfter, if_neg (Ne.symm inside.1)]
    exact ih inside.2

theorem quoteAfter_opened (quote : IsQuote c) (inside : c ∉ chars) : quoteAfter none (c :: chars) = some c := by
  rw [quoteAfter, if_pos quote]
  exact quoteAfter_inside inside

theorem quoteAfter_closed (quote : IsQuote c) (inside : c ∉ chars) :
    quoteAfter none (c :: (chars ++ [c])) = none := by
  rw [← List.cons_append, quoteAfter_append, quoteAfter_opened quote inside, quoteAfter, if_pos rfl]
  rfl

theorem quote_code (quote : IsQuote c) : c.toNat = 39 ∨ c.toNat = 34 := by
  rcases quote with rfl | rfl
  · exact .inl rfl
  · exact .inr rfl

theorem word_unquoted (word : isWordChar c = true) : ¬IsQuote c := by
  intro quote
  have := word_range word
  have := quote_code quote
  omega

theorem number_unquoted (number : isNumberChar c = true) : ¬IsQuote c := by
  intro quote
  have := number_range number
  have := quote_code quote
  omega

theorem opensNumber_char (opens : opensNumber c rest = true) : isNumberChar c = true := by
  simp only [opensNumber, Bool.or_eq_true, Bool.and_eq_true, decide_eq_true_eq] at opens
  rcases opens with digit | ⟨rfl, _⟩
  · simp [isNumberChar, digit]
  · rfl

theorem operator_present : ∀ op ∈ operatorTexts, op.toList ≠ [] := by decide

theorem Idle.unquoted (idle : Idle c rest) : ¬IsQuote c := by
  rcases idle with blank | ⟨_, _, unquoted, _⟩
  · intro quote
    have separator : isSeparator c = true := by simp [isSeparator, blank]
    have := separator_range separator
    have := quote_code quote
    omega
  · exact unquoted

theorem Covers.present (covers : Covers kind text chars rest) : chars ≠ [] := by
  cases covers with
  | opening | closing | quoted | unclosed => simp
  | conj word | disj word | truth word | field word => exact word.present
  | operator known => exact operator_present _ known
  | number spelled => simp [spelled]

theorem Covers.proper (covers : Covers kind text chars rest) : kind ≠ .endOfText := by
  cases covers <;> decide

theorem dropWhile_head (p : Char → Bool) (cs : List Char) : ∀ d, (cs.dropWhile p).head? = some d → p d = false := by
  intro d first
  have stops := List.head?_dropWhile_not p cs
  rwa [first] at stops

theorem lex_idle (skipped : lex c cs = (none, more)) : more = 0 ∧ Idle c cs := by
  have lexed := lex_lexed c cs
  rw [skipped] at lexed
  cases lexed with
  | blank blank => exact ⟨rfl, .inl blank⟩
  | skipped noMark unquoted noNumber noLetter => exact ⟨rfl, .inr ⟨noMark.1, noMark.2, unquoted, noNumber, noLetter⟩⟩

theorem word_covers (letter : isWordChar c = true) (noNumber : opensNumber c cs = false) :
    IsWord (c :: cs.takeWhile isWordChar) (cs.dropWhile isWordChar) := by
  refine ⟨by simp, fun d first => ?_, fun d member => ?_, dropWhile_head isWordChar cs⟩
  · cases first
    rw [opensNumber, Bool.or_eq_false_iff] at noNumber
    exact noNumber.1
  · rcases List.mem_cons.mp member with rfl | later
    · exact letter
    · exact List.mem_takeWhile_imp later

theorem classified_covers (word : IsWord chars rest) (known : classify chars = (kind, text, size)) :
    ∃ front, front <+: chars ∧ front.length = size ∧ Covers kind text front (chars.drop size ++ rest) := by
  have classified := classify_classified chars
  rw [known] at classified
  cases classified with
  | conj spelled => exact ⟨chars, List.prefix_rfl, rfl, by simpa using .conj word spelled⟩
  | disj spelled => exact ⟨chars, List.prefix_rfl, rfl, by simpa using .disj word spelled⟩
  | truth spelled => exact ⟨chars, List.prefix_rfl, rfl, by simpa using .truth word (by simpa using spelled)⟩
  | operator leading =>
    obtain ⟨listed, front⟩ := leadingOperator_front leading
    exact ⟨_, front, String.length_toList, .operator listed⟩
  | field plain free =>
    have same : (String.ofList chars).toList = chars := String.toList_ofList
    have covers : Covers .field (String.ofList chars) (String.ofList chars).toList rest := by
      refine .field (by rwa [same]) plain fun op listed front => ?_
      rw [same] at front
      exact absurd (List.isPrefixOf_iff_prefix.mpr front) (List.find?_eq_none.mp free op listed)
    rw [same] at covers
    exact ⟨chars, List.prefix_rfl, rfl, by simpa using covers⟩

theorem takeWhile_unclosed {body : List Char} (inside : c ∉ body) : body.takeWhile (· != c) = body := by
  rw [List.takeWhile_eq_self_iff]
  intro d member
  simpa using ne_of_mem_of_not_mem member inside

theorem takeWhile_quoted {body : List Char} (inside : c ∉ body) : (body ++ c :: rest).takeWhile (· != c) = body := by
  rw [List.takeWhile_append, takeWhile_unclosed inside, if_pos rfl, List.takeWhile_cons_of_neg (by simp), List.append_nil]

theorem lex_covers (found : lex c cs = (some (kind, text), more)) :
    (∃ chars rest, c :: cs = chars ++ rest ∧ chars.length = more + 1 ∧ Covers kind text chars rest ∧
      quoteAfter none chars = none) ∨
    IsQuote c ∧ c ∉ cs ∧ kind = .value ∧ text = String.ofList cs ∧ more = cs.length + 1 := by
  have lexed := lex_lexed c cs
  rw [found] at lexed
  cases lexed with
  | opening mark =>
    subst mark
    exact .inl ⟨['('], cs, rfl, rfl, .opening, by decide⟩
  | closing mark =>
    subst mark
    exact .inl ⟨[')'], cs, rfl, rfl, .closing, by decide⟩
  | quoted quote =>
    by_cases closed : c ∈ cs
    · left
      obtain ⟨body, rest, rfl, inside⟩ := List.eq_append_cons_of_mem closed
      rw [takeWhile_quoted inside]
      have covers : Covers .value (String.ofList body) (c :: ((String.ofList body).toList ++ [c])) rest :=
        .quoted quote (by rwa [String.toList_ofList])
      rw [String.toList_ofList] at covers
      exact ⟨_, rest, by simp, by simp, covers, quoteAfter_closed quote inside⟩
    · right
      have whole : cs.takeWhile (· != c) = cs := takeWhile_unclosed closed
      rw [whole]
      exact ⟨quote, closed, rfl, rfl, rfl⟩
  | number opens =>
    left
    have whole : cs = cs.takeWhile isNumberChar ++ cs.dropWhile isNumberChar := List.takeWhile_append_dropWhile.symm
    have numeric : ∀ d ∈ cs.takeWhile isNumberChar, isNumberChar d = true := fun d => List.mem_takeWhile_imp
    have same : (String.ofList (c :: cs.takeWhile isNumberChar)).toList = c :: cs.takeWhile isNumberChar :=
      String.toList_ofList
    have covers : Covers .value (String.ofList (c :: cs.takeWhile isNumberChar)) _ (cs.dropWhile isNumberChar) :=
      .number same (by rwa [← whole]) numeric (dropWhile_head isNumberChar cs)
    rw [same] at covers
    refine ⟨_, _, by rw [List.cons_append, ← whole], rfl, covers, quoteAfter_plain fun d member => ?_⟩
    rcases List.mem_cons.mp member with rfl | later
    · exact number_unquoted (opensNumber_char opens)
    · exact number_unquoted (numeric d later)
  | word letter known noNumber =>
    left
    have word := word_covers letter noNumber
    obtain ⟨front, ⟨behind, split⟩, size, covers⟩ := classified_covers word known
    subst size
    have whole : c :: cs = front ++ (behind ++ cs.dropWhile isWordChar) := by
      rw [← List.append_assoc, split, List.cons_append, List.takeWhile_append_dropWhile]
    rw [← split, List.drop_left] at covers
    have positive := List.length_pos_iff.mpr covers.present
    refine ⟨front, _, whole, by omega, covers, quoteAfter_plain fun d member => word_unquoted (word.letters d ?_)⟩
    rw [← split]
    exact List.mem_append_left _ member

theorem scanFrom_drop (inside : covered ≤ cs.length) :
    scanFrom covered position cs = scanFrom 0 (position + covered) (cs.drop covered) := by
  induction covered generalizing position cs with
  | zero => rfl
  | succ covered ih =>
    cases cs with
    | nil => cases inside
    | cons c cs =>
      rw [scanFrom_inside, ih (Nat.le_of_succ_le_succ inside), List.drop_succ_cons]
      congr 1
      omega

structure Span where
  kind : TokenKind
  text : String
  start : Nat
  chars : List Char

def Span.stop (span : Span) : Nat := span.start + span.chars.length

def Span.token (span : Span) : Token := ⟨span.kind, span.text, span.start⟩

inductive Reads : Nat → List Char → List Span → Nat → Prop where
  | ended : Reads position [] [] position
  | idle (idle : Idle c cs) (later : Reads (position + 1) cs spans last) : Reads position (c :: cs) spans last
  | covered (covers : Covers kind text chars cs) (closed : quoteAfter none chars = none)
      (later : Reads (position + chars.length) cs spans last) :
      Reads position (chars ++ cs) (⟨kind, text, position, chars⟩ :: spans) last
  | unclosed (quote : IsQuote c) (inside : c ∉ cs) :
      Reads position (c :: cs) [⟨.value, String.ofList cs, position, c :: cs⟩] (position + cs.length + 2)

theorem scanFrom_reads (position : Nat) (cs : List Char) : ∃ spans last,
    scanFrom 0 position cs = spans.map Span.token ++ [⟨.endOfText, "", (last : Nat)⟩] ∧ Reads position cs spans last := by
  induction size : cs.length using Nat.strongRecOn generalizing position cs with
  | ind n ih =>
    cases cs with
    | nil => exact ⟨[], position, rfl, .ended⟩
    | cons c cs =>
      rw [List.length_cons] at size
      rcases found : lex c cs with ⟨_ | ⟨kind, text⟩, more⟩
      · obtain ⟨rfl, idle⟩ := lex_idle found
        obtain ⟨spans, last, tokens, later⟩ := ih cs.length (by omega) (position + 1) cs rfl
        exact ⟨spans, last, by rw [scanFrom_skip found, tokens], .idle idle later⟩
      · rw [scanFrom_token found]
        rcases lex_covers found with ⟨chars, rest, split, length, covers, closed⟩ | ⟨quote, inside, rfl, rfl, rfl⟩
        · have total := congrArg List.length split
          rw [List.length_cons, List.length_append] at total
          have behind : cs.drop more = rest := by
            rw [← List.drop_succ_cons (a := c), split, ← length, List.drop_left]
          obtain ⟨spans, last, tokens, later⟩ := ih rest.length (by omega) (position + chars.length) rest rfl
          have place : position + 1 + more = position + chars.length := by omega
          rw [scanFrom_drop (by omega), behind, place, tokens, split]
          exact ⟨_, last, rfl, .covered covers closed later⟩
        · rw [scanFrom_covered (Nat.le_succ _)]
          have place : position + 1 + (cs.length + 1) = position + cs.length + 2 := by omega
          rw [place]
          exact ⟨_, _, rfl, .unclosed quote inside⟩

theorem Reads.start (reads : Reads position cs spans last) : ∀ span ∈ spans, position ≤ span.start := by
  induction reads with
  | ended => simp
  | idle _ _ ih => exact fun span member => Nat.le_of_succ_le (ih span member)
  | covered _ _ _ ih =>
    rw [List.forall_mem_cons]
    exact ⟨Nat.le_refl _, fun span member => Nat.le_trans (Nat.le_add_right _ _) (ih span member)⟩
  | unclosed => simp

theorem Reads.apart (reads : Reads position cs spans last) :
    spans.Pairwise fun before after => before.stop ≤ after.start := by
  induction reads with
  | ended => exact .nil
  | idle _ _ ih => exact ih
  | covered _ _ later ih => exact .cons later.start ih
  | unclosed => simp

theorem Reads.placed (reads : Reads position cs spans last) : ∀ span ∈ spans, ∃ front back,
    cs = front ++ span.chars ++ back ∧ span.start = position + front.length ∧
      Covers span.kind span.text span.chars back := by
  induction reads with
  | ended => simp
  | @idle c _ _ _ _ _ _ ih =>
    intro span member
    obtain ⟨front, back, rfl, start, covers⟩ := ih span member
    refine ⟨c :: front, back, rfl, ?_, covers⟩
    rw [start, List.length_cons]
    omega
  | @covered _ _ chars cs _ _ _ covers _ _ ih =>
    rw [List.forall_mem_cons]
    refine ⟨⟨[], cs, rfl, rfl, covers⟩, fun span member => ?_⟩
    obtain ⟨front, back, rfl, start, covers⟩ := ih span member
    refine ⟨chars ++ front, back, by simp, ?_, covers⟩
    rw [start, List.length_append, Nat.add_assoc]
  | @unclosed c cs _ quote inside =>
    rw [List.forall_mem_singleton]
    have covers : Covers .value (String.ofList cs) (c :: (String.ofList cs).toList) [] :=
      .unclosed quote (by rwa [String.toList_ofList])
    rw [String.toList_ofList] at covers
    exact ⟨[], [], by simp, rfl, covers⟩

theorem Reads.last_place (reads : Reads position cs spans last) :
    last = position + cs.length + if quoteAfter none cs = none then 0 else 1 := by
  induction reads with
  | ended => rfl
  | idle idle _ ih =>
    rw [quoteAfter, if_neg idle.unquoted, ih, List.length_cons]
    omega
  | covered _ closed _ ih =>
    rw [quoteAfter_append, closed, ih, List.length_append]
    omega
  | unclosed quote inside =>
    rw [quoteAfter_opened quote inside, List.length_cons, if_neg (by simp)]
    omega

theorem Reads.closed_or_open (reads : Reads position cs spans last) : last = position + cs.length ∨
    ∃ span ∈ spans, span.kind = .value ∧ ∃ quote, quote :: span.text.toList <:+ cs := by
  induction reads with
  | ended => exact .inl rfl
  | @idle c cs _ _ _ _ _ ih =>
    rcases ih with closed | ⟨span, member, value, quote, behind⟩
    · left
      rw [closed, List.length_cons]
      omega
    · exact .inr ⟨span, member, value, quote, behind.trans (List.suffix_cons c cs)⟩
  | @covered _ _ chars cs _ _ _ _ _ _ ih =>
    rcases ih with closed | ⟨span, member, value, quote, behind⟩
    · left
      rw [closed, List.length_append]
      omega
    · exact .inr ⟨span, List.mem_cons_of_mem _ member, value, quote, behind.trans (List.suffix_append chars cs)⟩
  | @unclosed c cs => exact .inr ⟨_, List.mem_cons_self, rfl, c, by simp⟩

theorem Reads.left_out (reads : Reads position cs spans last) {front back : List Char} (split : cs = front ++ c :: back)
    (outside : ∀ span ∈ spans, position + front.length < span.start ∨ span.stop ≤ position + front.length) :
    Idle c back := by
  induction reads generalizing front with
  | ended => simp at split
  | idle idle _ ih =>
    cases front with
    | nil =>
      cases split
      exact idle
    | cons d front =>
      cases split
      apply ih rfl
      intro span member
      have apart := outside span member
      rw [List.length_cons] at apart
      omega
  | @covered _ _ chars cs position _ _ _ _ later ih =>
    have behind : chars.length ≤ front.length := by
      have apart := outside _ List.mem_cons_self
      simp only [Span.stop] at apart
      omega
    obtain ⟨front, rfl⟩ := List.prefix_of_prefix_length_le (List.prefix_append chars cs)
      (split ▸ List.prefix_append _ _) behind
    rw [List.append_assoc] at split
    apply ih (List.append_cancel_left split)
    intro span member
    have apart := outside span (List.mem_cons_of_mem _ member)
    rw [List.length_append] at apart
    omega
  | unclosed =>
    have total := congrArg List.length split
    have apart := outside _ List.mem_cons_self
    simp only [Span.stop, List.length_cons, List.length_append] at apart total
    omega

theorem Reads.within (reads : Reads position cs spans last) :
    ∀ span ∈ spans, span.start < span.stop ∧ span.stop ≤ position + cs.length := by
  intro span member
  obtain ⟨front, back, rfl, start, covers⟩ := reads.placed span member
  have present := List.length_pos_iff.mpr covers.present
  rw [Span.stop, start, List.length_append, List.length_append]
  omega

theorem Reads.increasing (reads : Reads position cs spans last) :
    List.Pairwise (fun t u : Token => t.position < u.position) (spans.map Span.token ++ [⟨.endOfText, "", last⟩]) := by
  have place := reads.last_place
  rw [List.pairwise_append, List.pairwise_map]
  refine ⟨?_, List.pairwise_singleton _ _, ?_⟩
  · refine reads.apart.imp_of_mem fun member _ apart => ?_
    have nonempty := (reads.within _ member).1
    simp only [Span.token]
    omega
  · intro t member u last
    obtain ⟨span, present, rfl⟩ := List.mem_map.mp member
    obtain rfl := List.mem_singleton.mp last
    have inside := reads.within span present
    simp only [Span.token]
    omega

theorem scan_reads (s : String) : ∃ spans last,
    scan s = spans.map Span.token ++ [⟨.endOfText, "", (last : Nat)⟩] ∧ Reads 0 s.toList spans last :=
  scanFrom_reads 0 s.toList

theorem reads_closed {spans : List Span} (ended : last = position + cs.length)
    (tokens : scanFrom 0 position cs = spans.map Span.token ++ [⟨.endOfText, "", (last : Nat)⟩]) :
    Closed 0 position cs := by
  rw [Closed, tokens, List.getLast?_concat, ended]

theorem closed_or_open (s : String) : Closed 0 0 s.toList ∨
    ∃ t ∈ scan s, t.kind = .value ∧ ∃ quote, quote :: t.text.toList <:+ s.toList := by
  obtain ⟨spans, last, tokens, reads⟩ := scan_reads s
  rcases reads.closed_or_open with ended | ⟨span, member, value, behind⟩
  · exact .inl (reads_closed ended tokens)
  · right
    rw [tokens]
    exact ⟨span.token, List.mem_append_left _ (List.mem_map_of_mem member), value, behind⟩

theorem token_covers {t : Token} (member : t ∈ scan s) (proper : t.kind ≠ .endOfText) : ∃ front chars back,
    s.toList = front ++ chars ++ back ∧ t.position = (front.length : Nat) ∧ Covers t.kind t.text chars back := by
  obtain ⟨spans, last, tokens, reads⟩ := scan_reads s
  rw [tokens] at member
  rcases List.mem_append.mp member with covered | ends
  · obtain ⟨span, present, rfl⟩ := List.mem_map.mp covered
    obtain ⟨front, back, split, start, covers⟩ := reads.placed span present
    exact ⟨front, span.chars, back, split, by simp [Span.token, start], covers⟩
  · obtain rfl := List.mem_singleton.mp ends
    exact absurd rfl proper

-- Scanning loses nothing but what it may leave out: the tokens stand in order
-- for separate stretches of the text, each of which spells its token, and what
-- lies between them is blank or can start no token.
theorem scan_spans (s : String) : ∃ (spans : List Span) (last : Nat),
    scan s = spans.map Span.token ++ [⟨.endOfText, "", last⟩] ∧
    (∀ span ∈ spans, span.kind ≠ .endOfText) ∧
    (scan s).Pairwise (fun t u => t.position < u.position) ∧
    spans.Pairwise (fun before after => before.stop ≤ after.start) ∧
    (∀ span ∈ spans, ∃ front back, s.toList = front ++ span.chars ++ back ∧ span.start = front.length ∧
      Covers span.kind span.text span.chars back) ∧
    ∀ front c back, s.toList = front ++ c :: back →
      (∀ span ∈ spans, front.length < span.start ∨ span.stop ≤ front.length) → Idle c back := by
  obtain ⟨spans, last, tokens, reads⟩ := scan_reads s
  refine ⟨spans, last, tokens, fun span member => ?_, ?_, reads.apart, fun span member => ?_, ?_⟩
  · obtain ⟨_, _, _, _, covers⟩ := reads.placed span member
    exact covers.proper
  · rw [tokens]
    exact reads.increasing
  · obtain ⟨front, back, split, start, covers⟩ := reads.placed span member
    exact ⟨front, back, split, by rw [start, Nat.zero_add], covers⟩
  · intro front c back split outside
    apply reads.left_out split
    rwa [Nat.zero_add]

example : (scan "inX >=5 # 'a").map (fun t => (t.text, t.position)) =
    [("in", 0), ("X", 2), (">=", 4), ("5", 6), ("a", 10), ("", 13)] := rfl

end Lifecycle.Formula
