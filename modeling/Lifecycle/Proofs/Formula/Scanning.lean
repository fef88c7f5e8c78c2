import Lifecycle.Proofs.Formula.Grammar
import Lifecycle.Proofs.Formula.Spans

namespace Lifecycle.Formula

theorem scan_ends (s : String) : ∃ ts e,
    scan s = ts ++ [e] ∧ (∀ t ∈ ts, t.kind ≠ .endOfText) ∧ e.kind = .endOfText := by
  obtain ⟨spans, last, tokens, reads⟩ := scan_reads s
  refine ⟨_, _, tokens, fun t member => ?_, rfl⟩
  obtain ⟨span, present, rfl⟩ := List.mem_map.mp member
  obtain ⟨_, _, _, _, covers⟩ := reads.placed span present
  exact covers.proper

theorem field_chars (covers : Covers .field text chars rest) : chars = text.toList := by
  cases covers
  rfl

theorem scan_field {t : Token} (member : t ∈ scan s) (field : t.kind = .field) :
    ∃ n : Nat, t.position = n ∧ (s.toList.drop n).take t.text.length = t.text.toList := by
  obtain ⟨front, chars, back, spelled, place, covers⟩ := token_covers member (by simp [field])
  rw [field] at covers
  obtain rfl := field_chars covers
  refine ⟨front.length, place, ?_⟩
  rw [spelled, List.append_assoc, List.drop_left, ← String.length_toList, List.take_left]

theorem parse_exact : parse s = .ok a ↔ ofTokens (scan s) = .ok a := by
  unfold parse
  split
  · rename_i nothing
    have blanks : ∀ c ∈ s.toList, Text.isBlank c = true := trimmed_blanks (by simpa [Text.trim] using nothing)
    rw [scan, scanFrom_blanks blanks]
    simp [ofTokens, State.run, State.step, State.start]
  · exact Iff.rfl

theorem parse_derives (parsed : parse s = .ok a) : ∃ ts e, scan s = ts ++ [e] ∧
    (∀ t ∈ ts, t.kind ≠ .endOfText) ∧ e.kind = .endOfText ∧ Derives .expression ts a := by
  obtain ⟨ts, e, scanned, proper, ends⟩ := scan_ends s
  have accepted := parse_exact.mp parsed
  rw [scanned] at accepted
  exact ⟨ts, e, scanned, proper, ends, ofTokens_sound proper ends accepted⟩

-- What a separator itself is read as, standing at a position.
def separatorTokens (c : Char) (position : Nat) : List Token :=
  if c = '(' then [⟨.openParen, "(", position⟩]
  else if c = ')' then [⟨.closeParen, ")", position⟩]
  else []

theorem scanFrom_separator (separator : isSeparator c = true) (position : Nat) (cs : List Char) :
    scanFrom 0 position (c :: cs) = separatorTokens c position ++ scanFrom 0 (position + 1) cs := by
  unfold separatorTokens
  split
  · subst c
    exact scanFrom_token rfl
  split
  · subst c
    exact scanFrom_token rfl
  · rename_i noOpening noClosing
    exact scanFrom_blank (by simpa [isSeparator, noOpening, noClosing] using separator)

theorem scan_closed (s : String) : (scan s).getLast? = some ⟨.endOfText, "", (s.length : Nat)⟩ ↔
    quoteAfter none s.toList = none := by
  obtain ⟨spans, last, tokens, reads⟩ := scan_reads s
  have place := reads.last_place
  rw [Nat.zero_add, String.length_toList] at place
  rw [tokens, List.getLast?_concat, place]
  simp only [Option.some.injEq, Token.mk.injEq, true_and, Int.natCast_inj, Nat.add_eq_left, ite_eq_left_iff,
    Nat.one_ne_zero, imp_false, Decidable.not_not]

-- A separator parts a text into two that are scanned apart, unless a quote is open there.
theorem scan_separated (separator : isSeparator c = true) (f g : String) :
    ((scan f).getLast? = some ⟨.endOfText, "", (f.length : Nat)⟩ ↔ quoteAfter none f.toList = none) ∧
    (quoteAfter none f.toList = none → scan (f ++ String.singleton c ++ g) =
      (scan f).dropLast ++ separatorTokens c f.length ++ (scan g).map (·.shift (f.length + 1))) := by
  refine ⟨scan_closed f, fun complete => ?_⟩
  have closed : Closed 0 0 f.toList := by
    rw [Closed, Nat.zero_add, String.length_toList]
    exact (scan_closed f).mpr complete
  have separated : Separated (c :: g.toList) := by
    intro d first
    cases first
    exact separator
  have spelled : (f ++ String.singleton c ++ g).toList = f.toList ++ c :: g.toList := by simp
  have behind : scanFrom 0 (f.length + 1) g.toList = (scan g).map (·.shift (f.length + 1)) := by
    rw [scan, ← scanFrom_shift, Nat.zero_add]
  rw [scan, spelled, scanFrom_append closed separated, Nat.zero_add, String.length_toList,
    scanFrom_separator separator, behind, List.append_assoc]
  rfl

theorem scan_separated_minus : isSeparator ')' = true ∧ quoteAfter none "a != 'b) c' -".toList = none ∧
    scan ("a != 'b) c' -" ++ ")" ++ "5 'd") = [⟨.field, "a", 0⟩, ⟨.operator, "!=", 2⟩, ⟨.value, "b) c", 5⟩,
      ⟨.closeParen, ")", 13⟩, ⟨.value, "5", 14⟩, ⟨.value, "d", 16⟩, ⟨.endOfText, "", 19⟩] := by
  have mark : isSeparator ')' = true := by decide
  have closed : quoteAfter none "a != 'b) c' -".toList = none := by decide
  exact ⟨mark, closed, (scan_separated mark "a != 'b) c' -" "5 'd").2 closed⟩

end Lifecycle.Formula
