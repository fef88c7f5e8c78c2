import Lifecycle.Formula.Basic
import Lifecycle.Proofs.Formula.Scanning
import Lifecycle.Proofs.Formula.Shape
import Lifecycle.Record.Condition

namespace Lifecycle.Formula

def ScansTo (s : String) (kind : TokenKind) (text : String) : Prop :=
  (scan s).map (fun t => (t.kind, t.text)) = [(kind, text), (.endOfText, "")]

-- What the lexer and the table of operators must be able to give back.
structure Leaf.IsWritable (c : Leaf) : Prop where
  field : ScansTo c.field .field c.field
  operator : c.operator ∈ operatorNames.map (·.2)
  value : ScansTo (literal c.value) .value c.value

-- Some characters make one token whatever they stand in, as long as a
-- separator follows.
def Lexes (cs : List Char) (kind : TokenKind) (text : String) : Prop :=
  ∀ position rest, Separated rest → ∃ place : Int,
    scanFrom 0 position (cs ++ rest) = ⟨kind, text, place⟩ :: scanFrom 0 (position + cs.length) rest

theorem closed_lexes {s : String} (closed : Closed 0 0 s.toList) (alone : ScansTo s kind text) :
    Lexes s.toList kind text := by
  intro position rest separated
  obtain ⟨token, others, tokens, spelled, ends⟩ := List.map_eq_cons_iff.mp alone
  obtain ⟨last, none, rfl, _, nothing⟩ := List.map_eq_cons_iff.mp ends
  obtain rfl := List.map_eq_nil_iff.mp nothing
  have moved := scanFrom_append (closed_shift closed position) separated
  have here : scanFrom 0 (0 + position) s.toList = [token.shift position, last.shift position] := by
    rw [scanFrom_shift, ← scan, tokens]
    rfl
  rw [here] at moved
  cases spelled
  exact ⟨(token.shift position).position, by simpa [Token.shift] using moved⟩

theorem scansTo_value (alone : ScansTo s kind text) {t : Token} (member : t ∈ scan s)
    (value : t.kind = .value) : kind = .value ∧ t.text = text := by
  have listed := List.mem_map_of_mem (f := fun t : Token => (t.kind, t.text)) member
  rw [alone, value] at listed
  rcases List.mem_cons.mp listed with same | ends
  · cases same
    exact ⟨rfl, rfl⟩
  · simp at ends

theorem field_lexes (alone : ScansTo s .field text) : Lexes s.toList .field text := by
  rcases closed_or_open s with closed | ⟨t, member, value, _⟩
  · exact closed_lexes closed alone
  · exact absurd (scansTo_value alone member value).1 (by decide)

theorem bare_lexes (alone : ScansTo s .value s) : Lexes s.toList .value s := by
  rcases closed_or_open s with closed | ⟨t, member, value, quote, behind⟩
  · exact closed_lexes closed alone
  · have longer := behind.length_le
    rw [(scansTo_value alone member value).2, List.length_cons] at longer
    omega

theorem quoted_lexes {s v : String} (quote : c = '\'' ∨ c = '"') (spelled : s.toList = c :: (v.toList ++ [c]))
    (alone : ScansTo s .value v) : Lexes s.toList .value v := by
  have tokens : scanFrom 0 0 (c :: (v.toList ++ [c])) = _ := scanFrom_token (lex_quote quote (v.toList ++ [c]))
  have first : String.ofList ((v.toList ++ [c]).takeWhile (· != c)) = v := by
    rw [ScansTo, scan, spelled, tokens, List.map_cons] at alone
    simpa using (List.cons.inj alone).1
  have body : (v.toList ++ [c]).takeWhile (· != c) = v.toList := by
    rw [← String.toList_ofList (l := (v.toList ++ [c]).takeWhile (· != c)), first]
  refine closed_lexes ?_ alone
  rw [Closed, spelled, tokens, body, scanFrom_covered (by simp)]
  simp only [List.getLast?_cons_cons, List.getLast?_singleton, List.length_cons, List.length_append,
    List.length_nil]
  congr 2
  omega

inductive Printed (v : String) : String → Prop where
  | number (numeral : isNumberText v.toList = true) : Printed v v
  | truth (plain : v = "true" ∨ v = "false") : Printed v v
  | single (unlike : isNumberText v.toList = false) (marked : '"' ∈ v.toList) : Printed v ("'" ++ v ++ "'")
  | double (unlike : isNumberText v.toList = false) (unmarked : '"' ∉ v.toList) : Printed v ("\"" ++ v ++ "\"")

theorem literal_printed (v : String) : Printed v (literal v) := by
  unfold literal
  split
  · rename_i bare
    simp only [Bool.or_eq_true, decide_eq_true_eq, or_assoc] at bare
    exact bare.elim .number .truth
  · rename_i unlike
    simp only [Bool.or_eq_true, not_or, Bool.not_eq_true] at unlike
    split
    · rename_i marked
      exact .single unlike.1.1 (by simpa using marked)
    · rename_i unmarked
      exact .double unlike.1.1 (by simpa using unmarked)

theorem literal_lexes (alone : ScansTo (literal v) .value v) : Lexes (literal v).toList .value v := by
  have printed := literal_printed v
  generalize literal v = s at alone printed ⊢
  cases printed with
  | number | truth => exact bare_lexes alone
  | single => exact quoted_lexes (.inl rfl) (by simp) alone
  | double => exact quoted_lexes (.inr rfl) (by simp) alone

theorem operator_lexes (known : name ∈ operatorNames.map (·.2)) :
    Lexes (writtenOperator name).toList .operator (writtenOperator name) ∧
      operatorName (writtenOperator name) = name := by
  simp only [operatorNames, List.map_cons, List.map_nil, List.mem_cons, List.not_mem_nil, or_false] at known
  rcases known with rfl | rfl | rfl | rfl | rfl | rfl | rfl | rfl | rfl | rfl
  all_goals exact ⟨closed_lexes rfl rfl, rfl⟩

theorem conj_lexes : Lexes Joint.conj.name.toList .conj Joint.conj.name := closed_lexes rfl rfl

theorem disj_lexes : Lexes Joint.disj.name.toList .disj Joint.disj.name := closed_lexes rfl rfl

def Scans (cs : List Char) (P : List Token → Prop) : Prop :=
  ∀ position rest, Separated rest → ∃ ts, P ts ∧
    scanFrom 0 position (cs ++ rest) = ts ++ scanFrom 0 (position + cs.length) rest

def Spells (cs : List Char) (phrase : Phrase) (a : Formula Leaf) : Prop := Scans cs fun ts => Derives phrase ts a

theorem blank_separated : Separated (' ' :: rest) := by
  intro c first
  cases first
  rfl

theorem closing_separated : Separated (')' :: rest) := by
  intro c first
  cases first
  rfl

theorem Scans.weaken (scanned : Scans cs P) (weaker : ∀ ts, P ts → Q ts) : Scans cs Q := by
  intro position rest separated
  obtain ⟨ts, shape, tokens⟩ := scanned position rest separated
  exact ⟨ts, weaker ts shape, tokens⟩

theorem Spells.weaken (spelled : Spells cs phrase a) (weaker : ∀ {ts}, Derives phrase ts a → Derives phrase' ts a) :
    Spells cs phrase' a := Scans.weaken spelled fun _ => weaker

theorem leaf_scans {c : Leaf} (named : ScansTo c.field .field c.field) (known : c.operator ∈ operatorNames.map (·.2))
    (comparand : Scans (literal c.value).toList P)
    (build : ∀ {f o : Token} {ts}, f.kind = .field → f.text = c.field → o.kind = .operator →
      operatorName o.text = c.operator → P ts → Q (f :: o :: ts)) : Scans c.render.toList Q := by
  obtain ⟨written, internal⟩ := operator_lexes known
  intro position rest separated
  obtain ⟨i, field⟩ := field_lexes named position
    (' ' :: ((writtenOperator c.operator).toList ++ ' ' :: ((literal c.value).toList ++ rest))) blank_separated
  obtain ⟨j, operator⟩ := written (position + c.field.toList.length + 1)
    (' ' :: ((literal c.value).toList ++ rest)) blank_separated
  obtain ⟨ts, shape, value⟩ := comparand
    (position + c.field.toList.length + 1 + (writtenOperator c.operator).toList.length + 1) rest separated
  refine ⟨⟨.field, c.field, i⟩ :: ⟨.operator, writtenOperator c.operator, j⟩ :: ts, build rfl rfl rfl internal shape, ?_⟩
  have text : c.render.toList ++ rest = c.field.toList ++ ' ' ::
      ((writtenOperator c.operator).toList ++ ' ' :: ((literal c.value).toList ++ rest)) := by
    simp [Leaf.render]
  rw [text, field, scanFrom_blank rfl, operator, scanFrom_blank rfl, value]
  simp only [Leaf.render, String.toList_append, List.length_append, List.cons_append]
  congr 4
  simp
  omega

theorem lexes_scans (lexes : Lexes cs kind text) (single : ∀ place, P [⟨kind, text, place⟩]) : Scans cs P := by
  intro position rest separated
  obtain ⟨place, tokens⟩ := lexes position rest separated
  exact ⟨_, single place, tokens⟩

theorem leaf_spells (writable : Leaf.IsWritable c) : Spells c.render.toList .primary (.leaf c) := by
  have comparand : Scans (literal c.value).toList fun ts => ∃ t : Token, ts = [t] ∧ t.kind = .value ∧ t.text = c.value :=
    lexes_scans (literal_lexes writable.value) fun place => ⟨_, rfl, rfl, rfl⟩
  refine leaf_scans writable.field writable.operator comparand ?_
  rintro f o _ field named operator internal ⟨v, rfl, value, text⟩
  have derived := Derives.comparison field operator value
  rwa [named, internal, text] at derived

def spaced (joint : Joint) (front back : List Char) : List Char :=
  front ++ ' ' :: (joint.name.toList ++ ' ' :: back)

theorem spaced_assoc (joint : Joint) (front middle back : List Char) :
    spaced joint front (spaced joint middle back) = spaced joint (spaced joint front middle) back := by
  simp [spaced]

theorem spaced_scans {joint : Joint} (word : Lexes joint.name.toList kind joint.name)
    (front : Scans xs P) (back : Scans ys Q)
    (join : ∀ {ts us t}, P ts → Token.kind t = kind → Q us → R (ts ++ t :: us)) :
    Scans (spaced joint xs ys) R := by
  intro position rest separated
  obtain ⟨ts, first, before⟩ := front position
    (' ' :: (joint.name.toList ++ ' ' :: (ys ++ rest))) blank_separated
  obtain ⟨i, between⟩ := word (position + xs.length + 1) (' ' :: (ys ++ rest)) blank_separated
  obtain ⟨us, second, after⟩ := back (position + xs.length + 1 + joint.name.toList.length + 1) rest separated
  refine ⟨ts ++ ⟨kind, joint.name, i⟩ :: us, join first rfl second, ?_⟩
  have text : spaced joint xs ys ++ rest = xs ++ ' ' :: (joint.name.toList ++ ' ' :: (ys ++ rest)) := by
    simp [spaced]
  rw [text, before, scanFrom_blank rfl, between, scanFrom_blank rfl, after]
  simp only [spaced, List.append_assoc, List.cons_append, List.length_append, List.length_cons]
  congr 4
  omega

theorem spaced_spells {joint : Joint} (word : Lexes joint.name.toList kind joint.name)
    (front : Spells xs p a) (back : Spells ys q b)
    (join : ∀ {ts us t}, Derives p ts a → Token.kind t = kind → Derives q us b → Derives r (ts ++ t :: us) e) :
    Spells (spaced joint xs ys) r e := spaced_scans word front back join

theorem parenthesized_scans (inside : Scans cs P)
    (close : ∀ {l ts r}, Token.kind l = .openParen → P ts → Token.kind r = .closeParen → Q (l :: ts ++ [r])) :
    Scans ('(' :: (cs ++ [')'])) Q := by
  intro position rest separated
  obtain ⟨ts, shape, tokens⟩ := inside (position + 1) (')' :: rest) closing_separated
  refine ⟨⟨.openParen, "(", position⟩ :: ts ++ [⟨.closeParen, ")", (position + 1 + cs.length : Nat)⟩],
    close rfl shape rfl, ?_⟩
  have text : '(' :: (cs ++ [')']) ++ rest = '(' :: (cs ++ ')' :: rest) := by simp
  have opening : lex '(' (cs ++ ')' :: rest) = (some (.openParen, "("), 0) := rfl
  have closing : lex ')' rest = (some (.closeParen, ")"), 0) := rfl
  rw [text, scanFrom_token opening, tokens, scanFrom_token closing]
  simp only [List.cons_append, List.append_assoc, List.nil_append, List.length_cons, List.length_append,
    List.length_nil]
  congr 4
  omega

theorem parenthesized_spells (inside : Spells cs .expression a) : Spells ('(' :: (cs ++ [')'])) .primary a :=
  parenthesized_scans inside .parenthesized

theorem renderUnder_outermost (f : Formula Leaf) : f.renderUnder none = f.renderUnder (some .conj) := by
  cases f with
  | leaf c => rfl
  | node joint left right => simp [renderUnder]

theorem renderUnder_same (joint : Joint) (left right : Formula Leaf) :
    ((node joint left right).renderUnder (some joint)).toList =
      spaced joint (left.renderUnder (some joint)).toList (right.renderUnder (some joint)).toList := by
  cases joint <;> simp [renderUnder, spaced]

-- A formula reads as the chain of the trees of its parts, by itself and behind
-- a chain that was begun before it.
def ReadsAsChain (joint : Joint) (upper : Phrase) (tree : Formula Leaf → Formula Leaf) (f : Formula Leaf) : Prop :=
  (∃ a, chain? joint ((f.parts joint).map tree) = some a ∧ Spells (f.renderUnder (some joint)).toList upper a) ∧
    ∀ xs a, Spells xs upper a → Spells (spaced joint xs (f.renderUnder (some joint)).toList) upper
      (((f.parts joint).map tree).foldl (.node joint) a)

section
variable {joint : Joint} {kind : TokenKind} {lower upper : Phrase} {tree : Formula Leaf → Formula Leaf}
  (word : Lexes joint.name.toList kind joint.name)
  (lift : ∀ {ts a}, Derives lower ts a → Derives upper ts a)
  (join : ∀ {ts us t a b}, Derives upper ts a → Token.kind t = kind → Derives lower us b →
    Derives upper (ts ++ t :: us) (.node joint a b))
include word lift join

theorem part_chain {f : Formula Leaf} (single : f.parts joint = [f])
    (spelled : Spells (f.renderUnder (some joint)).toList lower (tree f)) : ReadsAsChain joint upper tree f := by
  rw [ReadsAsChain, single]
  exact ⟨⟨tree f, rfl, spelled.weaken lift⟩, fun xs a before => spaced_spells word before spelled join⟩

-- One induction serves both joints. It goes along the chain, so a chain that
-- leans to the right is taken apart and joined again from the left.
theorem parts_chain (f : Formula Leaf) (spelled : ∀ part ∈ f.parts joint,
    Spells (part.renderUnder (some joint)).toList lower (tree part)) : ReadsAsChain joint upper tree f := by
  induction f with
  | leaf c => exact part_chain word lift join rfl (spelled _ (by simp [parts]))
  | node other left right ihLeft ihRight =>
    by_cases same : other = joint
    · subst same
      rw [parts, if_pos rfl] at spelled
      rw [ReadsAsChain, parts, if_pos rfl, renderUnder_same, List.map_append]
      obtain ⟨⟨a, built, first⟩, extendLeft⟩ := ihLeft fun part member => spelled part (by simp [member])
      obtain ⟨_, extendRight⟩ := ihRight fun part member => spelled part (by simp [member])
      refine ⟨⟨_, chain_append built _, extendRight _ _ first⟩, fun xs a before => ?_⟩
      rw [spaced_assoc, List.foldl_append]
      exact extendRight _ _ (extendLeft xs a before)
    · have single : (node other left right).parts joint = [.node other left right] := if_neg same
      exact part_chain word lift join single (spelled _ (by simp [single]))

end

theorem conjunction_spells {f : Formula Leaf} (conjunction : f.isConjunction = true)
    (writable : ∀ c ∈ f.leaves, c.IsWritable) :
    Spells (f.renderUnder (some .conj)).toList .conjunction f.rebuilt := by
  have each : ∀ part ∈ f.parts .conj, Spells (part.renderUnder (some .conj)).toList .primary part := by
    rw [conjunction_parts conjunction]
    intro part member
    obtain ⟨c, present, rfl⟩ := List.mem_map.mp member
    exact leaf_spells (writable c present)
  have chained : ReadsAsChain .conj .conjunction id f := parts_chain conj_lexes .operand .both f each
  obtain ⟨⟨a, built, spelled⟩, _⟩ := chained
  rw [List.map_id, conjunction_parts conjunction, rebuilt_chain] at built
  cases built
  exact spelled

theorem alternative_spells {f : Formula Leaf} (conjunction : f.isConjunction = true)
    (writable : ∀ c ∈ f.leaves, c.IsWritable) :
    Spells (f.renderUnder (some .disj)).toList .primary f.rebuilt := by
  have inner := conjunction_spells conjunction writable
  cases f with
  | leaf c => exact leaf_spells (writable c (by simp [leaves]))
  | node joint left right =>
    obtain rfl : joint = .conj := by simp_all [isConjunction]
    have text : ((node .conj left right).renderUnder (some .disj)).toList =
        '(' :: (((node .conj left right).renderUnder (some .conj)).toList ++ [')']) := by
      simp [renderUnder]
    rw [text]
    exact parenthesized_spells (inner.weaken .alternative)

theorem render_spells {f : Formula Leaf} (disjunctive : f.isDisjunctive = true) (written : f.isWritten = true)
    (writable : ∀ c ∈ f.leaves, c.IsWritable) :
    ∃ a, chain? .disj ((f.parts .disj).map rebuilt) = some a ∧ Spells f.render.toList .expression a := by
  obtain ⟨conjunctions, listed⟩ := disjunctive_parts disjunctive written
  have inside : ∀ part ∈ f.parts .disj, ∀ c ∈ part.leaves, c.IsWritable := by
    intro part member c present
    apply writable c
    rw [← alternatives_flatten, ← listed]
    exact List.mem_flatten.mpr ⟨part.leaves, List.mem_map_of_mem member, present⟩
  rw [render]
  by_cases choice : f.joint? = some .disj
  · cases f with
    | leaf c => cases choice
    | node joint left right =>
      cases choice
      have each := fun part member => (alternative_spells (conjunctions part member) (inside part member)).weaken
        Derives.operand
      obtain ⟨spelled, _⟩ := parts_chain disj_lexes .alternative .either (node .disj left right) each
      exact spelled
  · rw [parts_other choice] at conjunctions ⊢
    rw [renderUnder_outermost]
    exact ⟨f.rebuilt, rfl, (conjunction_spells (conjunctions f (by simp)) writable).weaken .alternative⟩

theorem Scans.whole {s : String} (scanned : Scans s.toList P) :
    ∃ ts, P ts ∧ scan s = ts ++ [⟨.endOfText, "", (0 + s.toList.length : Nat)⟩] := by
  obtain ⟨ts, shape, tokens⟩ := scanned 0 [] (by simp [Separated])
  rw [List.append_nil, scanFrom_nil] at tokens
  exact ⟨ts, shape, tokens⟩

theorem scans_parse {s : String} {P : Formula Leaf → Prop}
    (scanned : Scans s.toList fun ts => ∃ a, Derives .expression ts a ∧ P a) : ∃ a, parse s = .ok a ∧ P a := by
  obtain ⟨ts, ⟨a, derived, shape⟩, tokens⟩ := scanned.whole
  refine ⟨a, ?_, shape⟩
  rw [parse_exact, tokens]
  exact ofTokens_complete rfl derived []

theorem spells_parse {s : String} (spelled : Spells s.toList .expression a) : parse s = .ok a := by
  have scanned : Scans s.toList fun ts => ∃ b, Derives .expression ts b ∧ b = a :=
    Scans.weaken spelled fun ts derived => ⟨a, derived, rfl⟩
  obtain ⟨b, parsed, rfl⟩ := scans_parse scanned
  exact parsed

-- Reading undoes writing, up to the way in which a chain leans.
theorem parse_render (f : Formula Leaf) (written : f.isWritten = true) (disjunctive : f.isDisjunctive = true)
    (writable : ∀ c ∈ f.leaves, c.IsWritable) :
    ∃ g, parse f.render = .ok g ∧ g.leaves = f.leaves ∧ Condition.ofFormula g = Condition.ofFormula f ∧
      (f.leansLeft = true → g = f) := by
  obtain ⟨conjunctions, listed⟩ := disjunctive_parts disjunctive written
  obtain ⟨g, built, spelled⟩ := render_spells disjunctive written writable
  have rebuiltConjunctions : ∀ part ∈ (f.parts .disj).map rebuilt, part.isConjunction = true := by
    intro part member
    obtain ⟨h, _, rfl⟩ := List.mem_map.mp member
    exact h.rebuilt_facts.1
  obtain ⟨shape, groups⟩ := chain_disjunctive built rebuiltConjunctions
  have same : g.alternatives = f.alternatives := by
    rw [groups, ← listed, List.map_map]
    exact List.map_congr_left fun part _ => part.rebuilt_facts.2
  refine ⟨g, spells_parse spelled, ?_, ?_, fun leans => ?_⟩
  · rw [← alternatives_flatten, same, alternatives_flatten]
  · rw [ofFormula_grouped, ofFormula_grouped, disjunctive_numbered shape, disjunctive_numbered disjunctive, same]
  · have unchanged : (f.parts .disj).map rebuilt = f.parts .disj := by
      rw [List.map_congr_left fun part member => rebuilt_same (conjunctions part member) (leans_parts leans member)]
      exact List.map_id' _
    rw [unchanged, chain_parts leans] at built
    exact (Option.some.inj built).symm

theorem parse_render_leaning_right :
    let f : Formula Leaf := .node .disj
      (.node .conj (.leaf ⟨"a", "GT", "-5"⟩)
        (.node .conj (.leaf ⟨"b", "EQUALS", "it's (not)"⟩) (.leaf ⟨"c", "NOT_IN", "x,\"y z\""⟩)))
      (.leaf ⟨"d", "EXISTS", "true"⟩)
    (f.isWritten = true ∧ f.isDisjunctive = true ∧ ∀ c ∈ f.leaves, c.IsWritable) ∧
      ∃ g, parse f.render = .ok g ∧ g.leaves = f.leaves ∧ Condition.ofFormula g = Condition.ofFormula f ∧
        (f.leansLeft = true → g = f) := by
  intro f
  have writable : ∀ c ∈ f.leaves, c.IsWritable := by
    intro c member
    simp only [f, leaves, List.cons_append, List.nil_append, List.mem_cons, List.not_mem_nil, or_false] at member
    rcases member with rfl | rfl | rfl | rfl
    all_goals exact ⟨rfl, by decide, rfl⟩
  exact ⟨⟨rfl, rfl, writable⟩, parse_render f rfl rfl writable⟩

end Lifecycle.Formula
