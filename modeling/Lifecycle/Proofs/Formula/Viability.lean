import Lifecycle.Proofs.Formula.Grammar

namespace Lifecycle.Formula

def Accepted (ts : List Token) : Prop := ∃ a, Derives .expression ts a

def Viable (ts : List Token) : Prop := ∃ us, Accepted (ts ++ us)

def Wanted.completion : Wanted → List Token
  | .operand => [⟨.field, "", 0⟩, ⟨.operator, "", 0⟩, ⟨.value, "", 0⟩]
  | .operator _ => [⟨.operator, "", 0⟩, ⟨.value, "", 0⟩]
  | .value _ _ => [⟨.value, "", 0⟩]
  | .joint _ => []

-- What a state lacks: an operand, then the end of every parenthesis still open.
def State.completion (s : State) : List Token :=
  s.wanted.completion ++ s.outer.map fun _ => ⟨.closeParen, ")", 0⟩

theorem wanted_leads (wanted : Wanted) (level : Level) (outer : List Level) :
    ∃ operand, Leads ⟨wanted, level, outer⟩ wanted.completion ⟨.joint operand, level, outer⟩ := by
  cases wanted with
  | operand => exact ⟨.leaf ⟨"", operatorName "", ""⟩, fun rest => rfl⟩
  | operator field => exact ⟨.leaf ⟨field, operatorName "", ""⟩, fun rest => rfl⟩
  | value field operator => exact ⟨.leaf ⟨field, operatorName operator, ""⟩, fun rest => rfl⟩
  | joint operand => exact ⟨operand, fun rest => rfl⟩

theorem closing_leads (operand : Formula Leaf) (level : Level) (outer : List Level) :
    ∃ whole outermost, Leads ⟨.joint operand, level, outer⟩ (outer.map fun _ => ⟨.closeParen, ")", 0⟩)
      ⟨.joint whole, outermost, []⟩ := by
  induction outer generalizing operand level with
  | nil => exact ⟨operand, level, fun rest => rfl⟩
  | cons up outer ih =>
    obtain ⟨whole, outermost, path⟩ := ih (level.close operand) up
    exact ⟨whole, outermost, Leads.before rfl path⟩

theorem completion_run (s : State) (ends : Token.kind e = .endOfText) :
    ∃ a, s.run (s.completion ++ [e]) = .ok a := by
  obtain ⟨operand, first⟩ := wanted_leads s.wanted s.level s.outer
  obtain ⟨whole, outermost, second⟩ := closing_leads operand s.level s.outer
  refine ⟨outermost.close whole, ?_⟩
  rw [State.completion, first.trans second [e]]
  simp [State.run, State.step, State.afterOperand, ends]

theorem wanted_proper (wanted : Wanted) : ∀ t ∈ wanted.completion, t.kind ≠ .endOfText := by
  cases wanted <;> simp [Wanted.completion]

theorem completion_proper (s : State) : ∀ t ∈ s.completion, t.kind ≠ .endOfText := by
  intro t member
  rcases List.mem_append.mp member with lacking | closing
  · exact wanted_proper s.wanted t lacking
  · obtain ⟨_, _, rfl⟩ := List.mem_map.mp closing
    decide

theorem reached_viable (proper : ∀ t ∈ seen, Token.kind t ≠ .endOfText) (reached : Leads .start seen s) :
    Viable seen := by
  have ends : Token.kind .missing = .endOfText := rfl
  obtain ⟨a, accepted⟩ := completion_run s ends
  refine ⟨s.completion, a, ofTokens_sound (fun t member => ?_) ends ?_⟩
  · exact (List.mem_append.mp member).elim (proper t) (completion_proper s t)
  · rw [ofTokens, List.append_assoc, reached, accepted]

theorem step_position {s : State} (refused : s.step t = .error error) : error.position = t.position := by
  unfold State.step State.afterOperand at refused
  repeat' split at refused
  all_goals cases refused
  all_goals rfl

theorem refused_hopeless (reached : Leads .start seen s) (refused : s.step t = .error error) :
    ¬Viable (seen ++ [t]) := by
  rintro ⟨us, a, derived⟩
  have accepted := ofTokens_complete (e := .missing) rfl derived []
  rw [ofTokens, List.append_assoc, List.append_assoc, reached] at accepted
  simp [State.run, refused] at accepted

theorem refused_unfinished (reached : Leads .start ts s) (refused : s.step e = .error error)
    (ends : Token.kind e = .endOfText) : ¬Accepted ts := by
  rintro ⟨a, derived⟩
  have accepted := ofTokens_complete ends derived []
  rw [ofTokens, reached] at accepted
  simp [State.run, refused] at accepted

theorem run_refused {s : State} (proper : ∀ t ∈ ts, Token.kind t ≠ .endOfText)
    (ends : Token.kind e = .endOfText) (refused : s.run (ts ++ [e]) = .error error) :
    (∃ seen t rest last, ts = seen ++ t :: rest ∧ Leads s seen last ∧ last.step t = .error error) ∨
      ∃ last, Leads s ts last ∧ last.step e = .error error := by
  induction ts generalizing s with
  | nil =>
    right
    refine ⟨s, fun rest => rfl, ?_⟩
    rw [List.nil_append, State.run] at refused
    split at refused
    · rename_i stepped
      cases refused
      exact stepped
    · cases refused
    · rename_i stepped
      exact absurd ends (step_more stepped)
  | cons t ts ih =>
    rw [List.cons_append, State.run] at refused
    split at refused
    · rename_i stepped
      cases refused
      exact .inl ⟨[], t, ts, s, rfl, fun rest => rfl, stepped⟩
    · rename_i stepped
      obtain ⟨_, _, _, last, _⟩ := step_last stepped
      exact absurd last (proper t (by simp))
    · rename_i next stepped
      rcases ih (fun u member => proper u (by simp [member])) refused with
        ⟨seen, u, rest, last, rfl, path, stuck⟩ | ⟨last, path, stuck⟩
      · exact .inl ⟨t :: seen, u, rest, last, rfl, path.before stepped, stuck⟩
      · exact .inr ⟨last, path.before stepped, stuck⟩

-- A refusal marks the first token that leaves no way to go on. At the end token
-- there is a way, but not without further tokens.
theorem refused_first (ts : List Token) (e : Token) (proper : ∀ t ∈ ts, t.kind ≠ .endOfText)
    (ends : e.kind = .endOfText) (refused : ofTokens (ts ++ [e]) = .error error) :
    (∃ seen t rest, ts = seen ++ t :: rest ∧ error.position = t.position ∧
      Viable seen ∧ ¬Viable (seen ++ [t])) ∨
    error.position = e.position ∧ ¬Accepted ts ∧ ∃ us, us ≠ [] ∧ Accepted (ts ++ us) := by
  rcases run_refused proper ends refused with ⟨seen, t, rest, last, rfl, reached, stuck⟩ | ⟨last, reached, stuck⟩
  · have before : ∀ u ∈ seen, u.kind ≠ .endOfText := fun u member => proper u (by simp [member])
    exact .inl ⟨seen, t, rest, rfl, step_position stuck, reached_viable before reached,
      refused_hopeless reached stuck⟩
  · have unfinished := refused_unfinished reached stuck ends
    obtain ⟨us, accepted⟩ := reached_viable proper reached
    refine .inr ⟨step_position stuck, unfinished, us, ?_, accepted⟩
    rintro rfl
    rw [List.append_nil] at accepted
    exact unfinished accepted

theorem refused_first_unclosed :
    let ts : List Token := [⟨.openParen, "(", 0⟩, ⟨.openParen, "(", 1⟩, ⟨.field, "a", 2⟩, ⟨.operator, ">", 4⟩,
      ⟨.value, "1", 6⟩, ⟨.closeParen, ")", 7⟩, ⟨.disj, "OR", 9⟩, ⟨.field, "b", 12⟩, ⟨.operator, "in", 14⟩,
      ⟨.value, "x", 17⟩, ⟨.field, "c", 21⟩, ⟨.conj, "AND", 23⟩]
    let e : Token := ⟨.endOfText, "", 26⟩
    let error : SyntaxError := .expected .closeParen ⟨.field, "c", 21⟩
    (∀ t ∈ ts, t.kind ≠ .endOfText) ∧ e.kind = .endOfText ∧ ofTokens (ts ++ [e]) = .error error ∧
      ((∃ seen t rest, ts = seen ++ t :: rest ∧ error.position = t.position ∧
        Viable seen ∧ ¬Viable (seen ++ [t])) ∨
      error.position = e.position ∧ ¬Accepted ts ∧ ∃ us, us ≠ [] ∧ Accepted (ts ++ us)) := by
  intro ts e error
  have proper : ∀ t ∈ ts, t.kind ≠ .endOfText := by decide
  have refused : ofTokens (ts ++ [e]) = .error error := rfl
  exact ⟨proper, rfl, refused, refused_first ts e proper rfl refused⟩

end Lifecycle.Formula
