import Lifecycle.Formula.Parser

namespace Lifecycle.Formula

inductive Phrase where
  | expression
  | conjunction
  | primary

-- The grammar, each phrase with its tree:
--   expression  := conjunction (OR conjunction)*
--   conjunction := primary (AND primary)*
--   primary     := FIELD OPERATOR VALUE | '(' expression ')'
-- A repetition grows at its right end, which is what makes its tree lean to
-- the left. Nothing here knows of levels or of a token that is wanted next.
inductive Derives : Phrase → List Token → Formula Leaf → Prop where
  | comparison {f o v : Token} (field : f.kind = .field) (operator : o.kind = .operator)
      (value : v.kind = .value) :
      Derives .primary [f, o, v] (.leaf ⟨f.text, operatorName o.text, v.text⟩)
  | parenthesized {l r : Token} (opens : l.kind = .openParen) (inside : Derives .expression ts a)
      (closes : r.kind = .closeParen) : Derives .primary (l :: ts ++ [r]) a
  | operand (only : Derives .primary ts a) : Derives .conjunction ts a
  | both {t : Token} (before : Derives .conjunction ts a) (joint : t.kind = .conj)
      (last : Derives .primary us b) : Derives .conjunction (ts ++ t :: us) (.node .conj a b)
  | alternative (only : Derives .conjunction ts a) : Derives .expression ts a
  | either {t : Token} (before : Derives .expression ts a) (joint : t.kind = .disj)
      (last : Derives .conjunction us b) : Derives .expression (ts ++ t :: us) (.node .disj a b)

-- Completeness. The machine goes over some tokens from one state to another,
-- whatever comes behind them.
def Leads (s : State) (ts : List Token) (next : State) : Prop :=
  ∀ rest, s.run (ts ++ rest) = next.run rest

theorem Leads.trans (first : Leads s ts middle) (second : Leads middle us next) :
    Leads s (ts ++ us) next := by
  intro rest
  rw [List.append_assoc, first, second]

theorem step_leads (stepped : State.step s t = .ok (.more next)) : Leads s [t] next := by
  intro rest
  simp only [List.cons_append, List.nil_append, State.run, stepped]

theorem Leads.before (stepped : State.step s t = .ok (.more middle))
    (path : Leads middle ts next) : Leads s (t :: ts) next := (step_leads stepped).trans path

-- Where a phrase takes the machine. A primary fits in anywhere and leaves its
-- level alone; a conjunction needs an alternative that is still empty, an
-- expression a level that is, and either may have moved its beginning there.
def Phrase.Reads : Phrase → List Token → Formula Leaf → Prop
  | .primary, ts, a => ∀ level outer, Leads ⟨.operand, level, outer⟩ ts ⟨.joint a, level, outer⟩
  | .conjunction, ts, a => ∀ alternatives outer, ∃ chain last, joined .conj chain last = a ∧
      Leads ⟨.operand, ⟨alternatives, none⟩, outer⟩ ts ⟨.joint last, ⟨alternatives, chain⟩, outer⟩
  | .expression, ts, a => ∀ outer, ∃ level last, level.close last = a ∧
      Leads ⟨.operand, .start, outer⟩ ts ⟨.joint last, level, outer⟩

theorem derives_reads (derived : Derives phrase ts a) : phrase.Reads ts a := by
  induction derived with
  | comparison field operator value =>
    intro level outer rest
    simp [State.run, State.step, field, operator, value]
  | parenthesized opens inside closes ih =>
    intro level outer
    obtain ⟨inner, last, rfl, path⟩ := ih (level :: outer)
    refine Leads.before (by simp [State.step, opens]) (path.trans (step_leads ?_))
    simp [State.step, State.afterOperand, closes]
  | operand only ih =>
    intro alternatives outer
    exact ⟨none, _, rfl, ih _ outer⟩
  | @both ts a us b t before joint last ihBefore ihLast =>
    intro alternatives outer
    obtain ⟨chain, operand, rfl, path⟩ := ihBefore alternatives outer
    refine ⟨some (joined .conj chain operand), b, rfl, path.trans (Leads.before ?_ (ihLast _ outer))⟩
    simp [State.step, State.afterOperand, joint]
  | alternative only ih =>
    intro outer
    obtain ⟨chain, last, rfl, path⟩ := ih none outer
    exact ⟨⟨none, chain⟩, last, rfl, path⟩
  | @either ts a us b t before joint last ihBefore ihLast =>
    intro outer
    obtain ⟨level, operand, rfl, path⟩ := ihBefore outer
    obtain ⟨chain, operand', rfl, path'⟩ := ihLast (some (level.close operand)) outer
    refine ⟨⟨some (level.close operand), chain⟩, operand', rfl, path.trans (Leads.before ?_ path')⟩
    simp [State.step, State.afterOperand, joint]

theorem ofTokens_complete (ends : Token.kind e = .endOfText)
    (derived : Derives .expression ts a) (rest : List Token) : ofTokens (ts ++ e :: rest) = .ok a := by
  obtain ⟨level, last, rfl, path⟩ := derives_reads derived []
  rw [ofTokens, State.start, path]
  simp [State.run, State.step, State.afterOperand, ends]

-- Soundness. A chain under way accounts for its own tokens and for the joint
-- behind them, which promises one more operand.
inductive Pending (phrase : Phrase) (joint : TokenKind) : Option (Formula Leaf) → List Token → Prop where
  | empty : Pending phrase joint none []
  | begun {t : Token} (derived : Derives phrase ts a) (mark : t.kind = joint) :
      Pending phrase joint (some a) (ts ++ [t])

def Level.Covers (level : Level) (ts : List Token) : Prop :=
  ∃ us vs, ts = us ++ vs ∧ Pending .expression .disj level.alternatives us ∧
    Pending .conjunction .conj level.chain vs

inductive Enclosing : List Level → List Token → Prop where
  | outermost : Enclosing [] []
  | inside {up : Level} {l : Token} (outside : Enclosing outer us) (covered : up.Covers ts)
      (opens : l.kind = .openParen) : Enclosing (up :: outer) (us ++ ts ++ [l])

inductive Wanted.Covers : Wanted → List Token → Prop where
  | operand : Covers .operand []
  | operator {f : Token} (field : f.kind = .field) : Covers (.operator f.text) [f]
  | value {f o : Token} (field : f.kind = .field) (operator : o.kind = .operator) :
      Covers (.value f.text o.text) [f, o]
  | joint (derived : Derives .primary ts a) : Covers (.joint a) ts

-- The invariant of a run: the state accounts for every token read so far.
def State.Covers (s : State) (seen : List Token) : Prop :=
  ∃ us vs ws, seen = us ++ vs ++ ws ∧ Enclosing s.outer us ∧ s.level.Covers vs ∧ s.wanted.Covers ws

theorem pending_chain (pending : Pending .conjunction .conj chain us) (derived : Derives .primary vs b) :
    Derives .conjunction (us ++ vs) (joined .conj chain b) := by
  cases pending with
  | empty => exact .operand derived
  | begun before mark =>
    rw [List.append_assoc]
    exact .both before mark derived

theorem pending_alternatives (pending : Pending .expression .disj former us)
    (derived : Derives .conjunction vs b) : Derives .expression (us ++ vs) (joined .disj former b) := by
  cases pending with
  | empty => exact .alternative derived
  | begun before mark =>
    rw [List.append_assoc]
    exact .either before mark derived

theorem covers_close (covered : Level.Covers level us) (derived : Derives .primary vs b) :
    Derives .expression (us ++ vs) (level.close b) := by
  obtain ⟨xs, ys, rfl, alternatives, chain⟩ := covered
  rw [List.append_assoc]
  exact pending_alternatives alternatives (pending_chain chain derived)

theorem start_covers : Level.start.Covers [] := ⟨[], [], rfl, .empty, .empty⟩

theorem operand_covers {s : State} (accepted : s.step t = .ok (.more next)) (covered : s.Covers seen)
    (wanted : s.wanted = .operand) : next.Covers (seen ++ [t]) := by
  obtain ⟨us, vs, ws, rfl, outside, inside, last⟩ := covered
  rw [wanted] at last
  cases last
  simp only [State.step, wanted] at accepted
  split at accepted
  · rename_i opens
    cases accepted
    exact ⟨us ++ vs ++ [t], [], [], by simp, .inside outside inside opens, start_covers, .operand⟩
  · split at accepted
    · rename_i field
      cases accepted
      exact ⟨us, vs, [t], by simp, outside, inside, .operator field⟩
    · cases accepted

theorem joint_covers {s : State} (accepted : s.step t = .ok (.more next)) (covered : s.Covers seen)
    (wanted : s.wanted = .joint b) : next.Covers (seen ++ [t]) := by
  obtain ⟨us, vs, ws, rfl, outside, inside, last⟩ := covered
  rw [wanted] at last
  cases last with
  | joint derived =>
    simp only [State.step, wanted, State.afterOperand] at accepted
    split at accepted
    · rename_i conj
      cases accepted
      obtain ⟨xs, ys, rfl, alternatives, chain⟩ := inside
      exact ⟨us, xs ++ (ys ++ ws ++ [t]), [], by simp, outside,
        ⟨xs, _, rfl, alternatives, .begun (pending_chain chain derived) conj⟩, .operand⟩
    · rename_i disj
      cases accepted
      exact ⟨us, vs ++ ws ++ [t], [], by simp, outside,
        ⟨_, [], by simp, .begun (covers_close inside derived) disj, .empty⟩, .operand⟩
    · rename_i up outer closes stack
      cases accepted
      rw [stack] at outside
      cases outside with
      | @inside _ xs ys _ l further covered opens =>
        exact ⟨xs, ys, l :: (vs ++ ws) ++ [t], by simp, further, covered,
          .joint (.parenthesized opens (covers_close inside derived) closes)⟩
    all_goals cases accepted

theorem step_covers {s : State} (accepted : s.step t = .ok (.more next)) (covered : s.Covers seen) :
    next.Covers (seen ++ [t]) := by
  cases wanted : s.wanted with
  | operand => exact operand_covers accepted covered wanted
  | operator field =>
    obtain ⟨us, vs, ws, rfl, outside, inside, last⟩ := covered
    rw [wanted] at last
    cases last with
    | @operator f field =>
      simp only [State.step, wanted] at accepted
      split at accepted
      · rename_i operator
        cases accepted
        exact ⟨us, vs, [f, t], by simp, outside, inside, .value field operator⟩
      · cases accepted
  | value field operator =>
    obtain ⟨us, vs, ws, rfl, outside, inside, last⟩ := covered
    rw [wanted] at last
    cases last with
    | @value f o field operator =>
      simp only [State.step, wanted] at accepted
      split at accepted
      · rename_i value
        cases accepted
        exact ⟨us, vs, [f, o, t], by simp, outside, inside, .joint (.comparison field operator value)⟩
      · cases accepted
  | joint operand => exact joint_covers accepted covered wanted

theorem step_last {s : State} (accepted : s.step t = .ok (.done a)) : ∃ operand,
    s.wanted = .joint operand ∧ s.outer = [] ∧ t.kind = .endOfText ∧ a = s.level.close operand := by
  cases wanted : s.wanted with
  | joint operand =>
    simp only [State.step, wanted, State.afterOperand] at accepted
    split at accepted
    · cases accepted
    · cases accepted
    · cases accepted
    · rename_i ends stack
      cases accepted
      exact ⟨operand, rfl, stack, ends, rfl⟩
    · cases accepted
    · cases accepted
  | operand | operator | value =>
    simp only [State.step, wanted] at accepted
    repeat' split at accepted
    all_goals cases accepted

theorem step_done {s : State} (accepted : s.step t = .ok (.done a)) (covered : s.Covers seen) :
    t.kind = .endOfText ∧ Derives .expression seen a := by
  obtain ⟨operand, wanted, stack, ends, rfl⟩ := step_last accepted
  obtain ⟨us, vs, ws, rfl, outside, inside, last⟩ := covered
  rw [stack] at outside
  rw [wanted] at last
  cases outside
  cases last with
  | joint derived => exact ⟨ends, covers_close inside derived⟩

theorem step_more {s : State} (accepted : s.step t = .ok (.more next)) : t.kind ≠ .endOfText := by
  intro ends
  simp only [State.step, State.afterOperand, ends] at accepted
  repeat' split at accepted
  all_goals simp_all

theorem run_sound {s : State} (covered : s.Covers seen) (proper : ∀ t ∈ ts, Token.kind t ≠ .endOfText)
    (ends : Token.kind e = .endOfText) (accepted : s.run (ts ++ [e]) = .ok a) :
    Derives .expression (seen ++ ts) a := by
  induction ts generalizing s seen with
  | nil =>
    simp only [List.nil_append, State.run] at accepted
    split at accepted
    · cases accepted
    · rename_i stepped
      cases accepted
      simpa using (step_done stepped covered).2
    · rename_i stepped
      exact absurd ends (step_more stepped)
  | cons t ts ih =>
    simp only [List.cons_append, State.run] at accepted
    split at accepted
    · cases accepted
    · rename_i stepped
      exact absurd (step_done stepped covered).1 (proper t (by simp))
    · rename_i next stepped
      have rest := ih (step_covers stepped covered) (fun u member => proper u (by simp [member])) accepted
      simpa using rest

theorem ofTokens_sound (proper : ∀ t ∈ ts, Token.kind t ≠ .endOfText) (ends : Token.kind e = .endOfText)
    (accepted : ofTokens (ts ++ [e]) = .ok a) : Derives .expression ts a := by
  have covered : State.start.Covers [] := ⟨[], [], [], rfl, .outermost, start_covers, .operand⟩
  simpa using run_sound covered proper ends accepted

-- A list has at most one tree, because the machine has at most one answer.
theorem ofTokens_exact (ts : List Token) (e : Token) (proper : ∀ t ∈ ts, t.kind ≠ .endOfText)
    (ends : e.kind = .endOfText) :
    (∀ a, ofTokens (ts ++ [e]) = .ok a ↔ Derives .expression ts a) ∧
      ((¬∃ a, Derives .expression ts a) → ∃ error : SyntaxError, ofTokens (ts ++ [e]) = .error error) ∧
      ∀ a b, Derives .expression ts a → Derives .expression ts b → a = b := by
  have agrees : ∀ a, ofTokens (ts ++ [e]) = .ok a ↔ Derives .expression ts a := fun a =>
    ⟨ofTokens_sound proper ends, fun derived => ofTokens_complete ends derived []⟩
  refine ⟨agrees, ?_, ?_⟩
  · intro refused
    cases result : ofTokens (ts ++ [e]) with
    | error error => exact ⟨error, rfl⟩
    | ok a => exact absurd ⟨a, (agrees a).mp result⟩ refused
  · intro a b first second
    have same : Except.ok a = Except.ok b := ((agrees a).mpr first).symm.trans ((agrees b).mpr second)
    cases same
    rfl

theorem ofTokens_exact_parentheses :
    let ts : List Token := [⟨.openParen, "(", 0⟩, ⟨.field, "a", 1⟩, ⟨.operator, ">", 3⟩, ⟨.value, "1", 5⟩,
      ⟨.disj, "OR", 7⟩, ⟨.field, "b", 10⟩, ⟨.operator, "~", 12⟩, ⟨.value, "x", 14⟩, ⟨.closeParen, ")", 15⟩,
      ⟨.conj, "AND", 17⟩, ⟨.field, "c", 21⟩, ⟨.operator, "in", 23⟩, ⟨.value, "y", 26⟩]
    (∀ t ∈ ts, t.kind ≠ .endOfText) ∧ Derives .expression ts
      (.node .conj (.node .disj (.leaf ⟨"a", "GT", "1"⟩) (.leaf ⟨"b", "~", "x"⟩)) (.leaf ⟨"c", "IN", "y"⟩)) :=
  ⟨by decide, ((ofTokens_exact _ ⟨.endOfText, "", 29⟩ (by decide) rfl).1 _).mp rfl⟩

end Lifecycle.Formula
