import Lifecycle.Proofs.Formula.Literals

namespace Lifecycle.Formula

def Supplies (ts : List Token) (c : Leaf) : Prop := ∃ f ∈ ts, ∃ o ∈ ts, ∃ v ∈ ts,
  f.kind = .field ∧ o.kind = .operator ∧ v.kind = .value ∧ c = ⟨f.text, operatorName o.text, v.text⟩

theorem Supplies.more (supplies : Supplies ts c) (kept : ts ⊆ us) : Supplies us c := by
  obtain ⟨f, hasField, o, hasOperator, v, hasValue, spelled⟩ := supplies
  exact ⟨f, kept hasField, o, kept hasOperator, v, kept hasValue, spelled⟩

theorem derives_supplies (derived : Derives phrase ts a) : ∀ c ∈ a.leaves, Supplies ts c := by
  induction derived with
  | @comparison f o v field operator value =>
    intro c member
    rw [List.mem_singleton.mp member]
    exact ⟨f, by simp, o, by simp, v, by simp, field, operator, value, rfl⟩
  | parenthesized _ _ _ ih => exact fun c member => (ih c member).more (by simp)
  | operand _ ih | alternative _ ih => exact ih
  | both _ _ _ ihBefore ihLast | either _ _ _ ihBefore ihLast =>
    intro c member
    rcases List.mem_append.mp member with first | second
    · exact (ihBefore c first).more (by simp)
    · exact (ihLast c second).more (by simp)

theorem derives_written (derived : Derives phrase ts a) : a.isWritten = true := by
  induction derived with
  | comparison => rfl
  | parenthesized _ _ _ ih | operand _ ih | alternative _ ih => exact ih
  | both _ _ _ ihBefore ihLast | either _ _ _ ihBefore ihLast => simp [isWritten, ihBefore, ihLast]

theorem classify_field {word : List Char} (plain : Text.upper (String.ofList word) ∉ ["AND", "OR", "TRUE", "FALSE"])
    (free : ∀ op ∈ operatorTexts, ¬op.toList <+: word) : classify word = (.field, String.ofList word, word.length) := by
  have classified := classify_classified word
  generalize classify word = found at classified ⊢
  cases classified with
  | field => rfl
  | conj spelled | disj spelled => simp [spelled] at plain
  | truth spelled => rcases spelled with spelled | spelled <;> simp [spelled] at plain
  | operator leading =>
    obtain ⟨listed, front⟩ := leadingOperator_front leading
    exact absurd front (free _ listed)

theorem lex_field_word (letter : isWordChar c = true) (noDigit : Text.isAsciiDigit c = false)
    (known : classify (c :: cs.takeWhile isWordChar) = (kind, text, size)) :
    lex c cs = (some (kind, text), size - 1) := by
  have solid := solid_inside separator_no_word letter
  have noNumber : opensNumber c cs = false := by
    have noMinus : c ≠ '-' := by
      rintro rfl
      cases letter
    simp [opensNumber, noDigit, noMinus]
  rw [lex_solid solid (word_unquoted letter), noNumber, if_neg (by simp), if_pos letter, known]

theorem field_alone (covers : Covers .field text chars rest) : ScansTo text .field text := by
  cases covers with
  | field word plain free =>
    obtain ⟨c, cs, spelled⟩ := List.exists_cons_of_ne_nil word.present
    have letters : ∀ d ∈ c :: cs, isWordChar d = true := spelled ▸ word.letters
    have known := classify_field (by rwa [String.ofList_toList]) free
    have whole : c :: cs.takeWhile isWordChar = text.toList := by
      rw [spelled, List.takeWhile_eq_self_iff.mpr fun d member => letters d (List.mem_cons_of_mem _ member)]
    rw [← whole] at known
    have found := lex_field_word (letters c List.mem_cons_self) (word.noDigit c (by rw [spelled]; rfl)) known
    rw [ScansTo, scan_alone spelled found (by rw [whole, spelled]; simp), whole, String.ofList_toList]
    rfl

theorem operator_named : ∀ op ∈ operatorTexts, operatorName op ∈ operatorNames.map (·.2) := by decide

theorem operator_internal (covers : Covers .operator text chars rest) :
    operatorName text ∈ operatorNames.map (·.2) := by
  cases covers with
  | operator known => exact operator_named _ known

theorem ReadsBack.alone (readsBack : ReadsBack v) : ScansTo (literal v) .value v := by
  obtain ⟨last, tokens⟩ := readsBack
  rw [ScansTo, tokens]
  rfl

theorem accepted_leaf {c : Leaf} (parsed : parse s = .ok a) (member : c ∈ a.leaves) :
    ScansTo c.field .field c.field ∧ c.operator ∈ operatorNames.map (·.2) ∧
      ¬('\'' ∈ c.value.toList ∧ '"' ∈ c.value.toList) := by
  obtain ⟨ts, e, scanned, proper, _, derived⟩ := parse_derives parsed
  have covers : ∀ t ∈ ts, ∃ chars back, Covers t.kind t.text chars back := by
    intro t present
    obtain ⟨_, chars, back, _, _, covers⟩ := token_covers (s := s) (by simp [scanned, present]) (proper t present)
    exact ⟨chars, back, covers⟩
  obtain ⟨f, hasField, o, hasOperator, v, hasValue, field, operator, value, rfl⟩ := derives_supplies derived c member
  obtain ⟨_, _, named⟩ := covers f hasField
  obtain ⟨_, _, known⟩ := covers o hasOperator
  obtain ⟨_, _, comparand⟩ := covers v hasValue
  rw [field] at named
  rw [operator] at known
  rw [value] at comparand
  exact ⟨field_alone named, operator_internal known, value_quotes comparand⟩

theorem render_scans {f : Formula Leaf} {P : Formula Leaf → List Token → Prop} (written : f.isWritten = true)
    (leaf : ∀ c ∈ f.leaves, Scans c.render.toList (P (.leaf c)))
    (conj : ∀ {a b ts us t}, P a ts → Token.kind t = .conj → P b us → P (.node .conj a b) (ts ++ t :: us))
    (disj : ∀ {a b ts us t}, P a ts → Token.kind t = .disj → P b us → P (.node .disj a b) (ts ++ t :: us))
    (enclosed : ∀ {a l ts r}, Token.kind l = .openParen → P a ts → Token.kind r = .closeParen → P a (l :: ts ++ [r]))
    (parent : Option Joint) : Scans (f.renderUnder parent).toList (P f) := by
  induction f generalizing parent with
  | leaf c => exact leaf c List.mem_cons_self
  | node joint left right ihLeft ihRight =>
    simp only [isWritten, Bool.and_eq_true, Bool.or_eq_true, decide_eq_true_eq] at written
    have front := ihLeft written.1.2 (fun c member => leaf c (by simp [leaves, member])) (some joint)
    have back := ihRight written.2 (fun c member => leaf c (by simp [leaves, member])) (some joint)
    have inner : Scans (spaced joint (left.renderUnder (some joint)).toList (right.renderUnder (some joint)).toList)
        (P (.node joint left right)) := by
      rcases written.1.1 with rfl | rfl
      · exact spaced_scans conj_lexes front back conj
      · exact spaced_scans disj_lexes front back disj
    have text : (left.renderUnder (some joint) ++ " " ++ joint.name ++ " " ++ right.renderUnder (some joint)).toList =
        spaced joint (left.renderUnder (some joint)).toList (right.renderUnder (some joint)).toList := by
      simp [spaced]
    rw [renderUnder]
    split
    · rw [String.toList_append, String.toList_append, text]
      exact parenthesized_scans inner enclosed
    · rw [text]
      exact inner

-- Some tokens read as an expression that has these leaves, whatever its tree.
def Yields (ts : List Token) (leaves : List Leaf) : Prop := ∃ a, Derives .expression ts a ∧ a.leaves = leaves

-- A chain takes in another one part by part, so it may end up as another tree.
theorem conjunctions_joined {t : Token} (first : Derives .conjunction ts a) (joint : t.kind = .conj)
    (second : Derives .conjunction us b) :
    ∃ c, Derives .conjunction (ts ++ t :: us) c ∧ c.leaves = a.leaves ++ b.leaves := by
  generalize same : Phrase.conjunction = phrase at second
  induction second with
  | operand only => exact ⟨_, .both first joint only, rfl⟩
  | @both us b ws d u _ next last ih _ =>
    obtain ⟨c, derived, listed⟩ := ih rfl
    have longer := Derives.both derived next last
    rw [List.append_assoc, List.cons_append] at longer
    exact ⟨_, longer, by simp [leaves, listed]⟩
  | comparison | parenthesized | alternative | either => cases same

theorem expression_joined {t : Token} (second : Derives .expression us b)
    (join : ∀ {us b}, Derives .conjunction us b → Yields (ts ++ t :: us) (front ++ leaves b)) :
    Yields (ts ++ t :: us) (front ++ b.leaves) := by
  generalize same : Phrase.expression = phrase at second
  induction second with
  | alternative only => exact join only
  | @either us b ws d u _ next last ih _ =>
    obtain ⟨c, derived, listed⟩ := ih rfl
    have longer := Derives.either derived next last
    rw [List.append_assoc, List.cons_append] at longer
    exact ⟨_, longer, by simp [leaves, listed]⟩
  | comparison | parenthesized | operand | both => cases same

theorem yields_conj {t : Token} (first : Yields ts front) (joint : t.kind = .conj) (second : Yields us back) :
    Yields (ts ++ t :: us) (front ++ back) := by
  obtain ⟨a, first, rfl⟩ := first
  obtain ⟨b, second, rfl⟩ := second
  apply expression_joined second
  intro us b next
  cases first with
  | alternative only =>
    obtain ⟨c, derived, listed⟩ := conjunctions_joined only joint next
    exact ⟨c, .alternative derived, listed⟩
  | @either ts a ws d u before mark last =>
    obtain ⟨c, derived, listed⟩ := conjunctions_joined last joint next
    have longer := Derives.either before mark derived
    rw [← List.cons_append, ← List.append_assoc] at longer
    exact ⟨_, longer, by simp [leaves, listed]⟩

theorem yields_disj {t : Token} (first : Yields ts front) (joint : t.kind = .disj) (second : Yields us back) :
    Yields (ts ++ t :: us) (front ++ back) := by
  obtain ⟨a, first, rfl⟩ := first
  obtain ⟨b, second, rfl⟩ := second
  exact expression_joined second fun only => ⟨_, .either first joint only, rfl⟩

theorem yields_parenthesized {l r : Token} (opens : l.kind = .openParen) (inside : Yields ts cs)
    (closes : r.kind = .closeParen) : Yields (l :: ts ++ [r]) cs := by
  obtain ⟨a, derived, listed⟩ := inside
  exact ⟨a, .alternative (.operand (.parenthesized opens derived closes)), listed⟩

theorem written_scans {f : Formula Leaf} (written : f.isWritten = true) (writable : ∀ c ∈ f.leaves, c.IsWritable) :
    Scans f.render.toList fun ts => Yields ts f.leaves := by
  apply render_scans (P := fun a ts => Yields ts a.leaves) written
  · intro c member
    refine Scans.weaken (leaf_spells (writable c member)) fun ts derived => ?_
    exact ⟨_, .alternative (.operand derived), rfl⟩
  · exact yields_conj
  · exact yields_disj
  · exact yields_parenthesized

theorem accepted_kept (parsed : parse s = .ok f) (read : ∀ c ∈ f.leaves, ¬IsMisread c.value) :
    ∃ g, parse f.render = .ok g ∧ g.leaves = f.leaves := by
  obtain ⟨_, _, _, _, _, derived⟩ := parse_derives parsed
  have writable : ∀ c ∈ f.leaves, c.IsWritable := by
    intro c member
    obtain ⟨named, known, oneQuote⟩ := accepted_leaf parsed member
    exact ⟨named, known, (literal_reads oneQuote (read c member)).alone⟩
  exact scans_parse (written_scans (derives_written derived) writable)

def Honest (ts : List Token) : Prop := ∀ t ∈ ts, t.kind = .value → ¬IsMisread t.text

theorem Honest.append (front : Honest ts) (back : Honest us) : Honest (ts ++ us) := by
  intro t member
  exact (List.mem_append.mp member).elim (front t) (back t)

theorem Honest.cons (other : Token.kind t ≠ .value) (later : Honest ts) : Honest (t :: ts) := by
  rw [Honest, List.forall_mem_cons]
  exact ⟨fun value => absurd value other, later⟩

theorem unquoted_scans {cs : List Char} (plain : ∀ c ∈ cs, ¬IsQuote c) : Scans cs Honest := by
  intro position rest separated
  obtain ⟨spans, last, tokens, reads⟩ := scanFrom_reads position cs
  have closed : Closed 0 position cs := by
    have place := reads.last_place
    rw [quoteAfter_plain plain] at place
    exact reads_closed place tokens
  have moved := scanFrom_append closed separated
  rw [tokens, List.dropLast_concat] at moved
  refine ⟨_, fun t member value => ?_, moved⟩
  obtain ⟨span, present, rfl⟩ := List.mem_map.mp member
  obtain ⟨front, back, split, _, covers⟩ := reads.placed span present
  have comparand : span.kind = .value := value
  rw [comparand] at covers
  exact unquoted_native covers fun c inside => plain c (by simp [split, inside])

theorem literal_honest {v : String} (oneQuote : ¬('\'' ∈ v.toList ∧ '"' ∈ v.toList)) :
    Scans (literal v).toList Honest := by
  by_cases misread : IsMisread v
  · rw [numeral_bare misread.1]
    exact unquoted_scans (numeral_unquoted misread.1)
  · apply lexes_scans (literal_lexes (literal_reads oneQuote misread).alone)
    intro place
    rw [Honest, List.forall_mem_singleton]
    exact fun _ => misread

theorem accepted_honest (parsed : parse s = .ok f) : Scans f.render.toList Honest := by
  obtain ⟨_, _, _, _, _, derived⟩ := parse_derives parsed
  apply render_scans (P := fun _ ts => Honest ts) (derives_written derived)
  · intro c member
    obtain ⟨named, known, oneQuote⟩ := accepted_leaf parsed member
    refine leaf_scans named known (literal_honest oneQuote) ?_
    intro f o ts field _ operator _ honest
    exact .cons (by simp [field]) (.cons (by simp [operator]) honest)
  · intro a b ts us t front joint back
    exact front.append (.cons (by simp [joint]) back)
  · intro a b ts us t front joint back
    exact front.append (.cons (by simp [joint]) back)
  · intro a l ts r opens inside closes
    exact .cons (by simp [opens]) (inside.append (.cons (by simp [closes]) (by simp [Honest])))

theorem render_honest (parsed : parse s = .ok f) (again : parse f.render = .ok g) :
    ∀ c ∈ g.leaves, ¬IsMisread c.value := by
  intro c member
  obtain ⟨ts, honest, tokens⟩ := (accepted_honest parsed).whole
  obtain ⟨us, e, scanned, _, _, derived⟩ := parse_derives again
  obtain rfl : us = ts := (List.append_inj' (scanned.symm.trans tokens) rfl).1
  obtain ⟨_, _, _, _, v, present, _, _, value, rfl⟩ := derives_supplies derived c member
  exact honest v present value

-- A value is scanned again as it was unless it holds both quotes, which no
-- accepted formula can make, or is a number to the printer alone. So a formula
-- that is printed keeps its comparands as long as none of them is of that kind.
theorem literal_exact (v : String) :
    (ReadsBack v ↔ ¬('\'' ∈ v.toList ∧ '"' ∈ v.toList) ∧ ¬IsMisread v) ∧
    ∀ s f, parse s = .ok f →
      ((∃ g, parse f.render = .ok g ∧ g.leaves = f.leaves) ↔ ∀ c ∈ f.leaves, ¬IsMisread c.value) := by
  refine ⟨readsBack_exact v, fun s f parsed => ⟨?_, accepted_kept parsed⟩⟩
  rintro ⟨g, again, same⟩
  rw [← same]
  exact render_honest parsed again

theorem literal_exact_quotes :
    let v := "say \"hi\""
    let s := "(a == \"it's\" OR b in 'say \"hi\"') AND c > -2.50"
    let f : Formula Leaf := .node .conj
      (.node .disj (.leaf ⟨"a", "EQUALS", "it's"⟩) (.leaf ⟨"b", "IN", v⟩)) (.leaf ⟨"c", "GT", "-2.50"⟩)
    ReadsBack v ∧ parse s = .ok f ∧ (∀ c ∈ f.leaves, ¬IsMisread c.value) ∧
      ∃ g, parse f.render = .ok g ∧ g.leaves = f.leaves := by
  intro v s f
  have parsed : parse s = .ok f := parse_exact.mpr (by decide +kernel)
  have read : ∀ c ∈ f.leaves, ¬IsMisread c.value := by decide +kernel
  obtain ⟨value, formula⟩ := literal_exact v
  exact ⟨value.mpr (by decide), parsed, read, (formula s f parsed).mpr read⟩

theorem literal_unread : (¬('\'' ∈ "\u0663".toList ∧ '"' ∈ "\u0663".toList) ∧ ¬ReadsBack "\u0663") ∧
    ¬('\'' ∈ "5\n".toList ∧ '"' ∈ "5\n".toList) ∧ ¬ReadsBack "5\n" :=
  ⟨⟨by decide, misread_lost (by decide)⟩, by decide, misread_lost (by decide)⟩

end Lifecycle.Formula
