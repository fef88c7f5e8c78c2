import Lifecycle.Proofs.Formula.Validation
import Lifecycle.Proofs.Formula.Viability

namespace Lifecycle.Formula

-- Where the end token stands: at the end of the text, or one place further when
-- a quote is still open there.
def endPlace (s : String) : Nat := s.length + if quoteAfter none s.toList = none then 0 else 1

def IsPlace (s : String) (position : Int) : Prop := 0 ≤ position ∧ position < s.length ∨ position = endPlace s

theorem place_zero (s : String) : IsPlace s 0 := by
  by_cases empty : s.length = 0
  · right
    obtain rfl : s = "" := String.length_eq_zero_iff.mp empty
    rfl
  · left
    omega

theorem token_place (member : t ∈ scan s) : IsPlace s t.position := by
  obtain ⟨spans, last, tokens, reads⟩ := scan_reads s
  rw [tokens] at member
  rcases List.mem_append.mp member with covered | ends
  · obtain ⟨span, present, rfl⟩ := List.mem_map.mp covered
    have inside := reads.within span present
    left
    rw [String.length_toList] at inside
    simp only [Span.token]
    omega
  · obtain rfl := List.mem_singleton.mp ends
    right
    rw [endPlace, ← String.length_toList, reads.last_place, Nat.zero_add]

theorem ofTokens_refused {ts : List Token} (proper : ∀ t ∈ ts, t.kind ≠ .endOfText) (ends : e.kind = .endOfText)
    (refused : ofTokens (ts ++ [e]) = .error error) : ∃ t ∈ ts ++ [e], error.position = t.position := by
  rcases run_refused proper ends refused with ⟨seen, t, rest, last, rfl, _, stuck⟩ | ⟨last, _, stuck⟩
  · exact ⟨t, by simp, step_position stuck⟩
  · exact ⟨e, by simp, step_position stuck⟩

theorem scan_refused (refused : ofTokens (scan s) = .error error) : IsPlace s error.position := by
  obtain ⟨ts, e, scanned, proper, ends⟩ := scan_ends s
  rw [scanned] at refused
  obtain ⟨t, member, same⟩ := ofTokens_refused proper ends refused
  rw [same]
  apply token_place
  rwa [scanned]

theorem field_place (s field : String) : IsPlace s (fieldPosition (scan s) field) := by
  unfold fieldPosition
  cases found : (scan s).find? fun t => t.kind = .field && t.text = field with
  | none => exact place_zero s
  | some t => exact token_place (List.mem_of_find?_eq_some found)

theorem parse_refused (refused : parse s = .error error) : IsPlace s error.position := by
  unfold parse at refused
  split at refused
  · cases refused
    exact place_zero s
  · exact scan_refused refused

theorem objection_place (refused : objection? s fields = some o) : IsPlace s o.position := by
  unfold objection? objectionAmong at refused
  split at refused
  · rename_i error failed
    cases refused
    exact scan_refused failed
  · split at refused
    · cases refused
    · obtain ⟨c, _, rfl⟩ := Option.map_eq_some_iff.mp refused
      exact field_place s c.field

theorem place_bound (place : IsPlace s position) :
    0 ≤ position ∧ (position ≤ s.length ∨ position = s.length + 1 ∧ quoteAfter none s.toList ≠ none) := by
  rcases place with inside | ends
  · omega
  · rw [endPlace] at ends
    split at ends
    · omega
    · rename_i openQuote
      exact ⟨by omega, .inr ⟨by omega, openQuote⟩⟩

-- What is marked when a formula is refused is a character of it or its end. Only
-- behind a quote that is left open the end lies one place behind the text.
theorem refusal_places (s : String) :
    (∀ error, parse s = .error error → IsPlace s error.position) ∧
    (∀ fields o, objection? s fields = some o → IsPlace s o.position) ∧
    ∀ position, IsPlace s position →
      0 ≤ position ∧ (position ≤ s.length ∨ position = s.length + 1 ∧ quoteAfter none s.toList ≠ none) :=
  ⟨fun _ => parse_refused, fun _ _ => objection_place, fun _ => place_bound⟩

theorem refusal_places_unclosed :
    let s := "(a == 'x' AND b == \"y"
    let error : SyntaxError := .expected .closeParen ⟨.endOfText, "", 22⟩
    parse s = .error error ∧ objection? s ["a", "b"] = some (.malformed error) ∧
      IsPlace s error.position ∧ IsPlace s (Objection.malformed error).position ∧
      (error.position ≤ s.length ∨ error.position = s.length + 1 ∧ quoteAfter none s.toList ≠ none) := by
  intro s error
  have refused : parse s = .error error := by decide +kernel
  have objected : objection? s ["a", "b"] = some (.malformed error) := by decide +kernel
  obtain ⟨read, checked, bound⟩ := refusal_places s
  have place := read error refused
  exact ⟨refused, objected, place, checked _ _ objected, (bound _ place).2⟩

theorem refusal_behind_text :
    let s := "(a == 'x"
    ∃ error o, parse s = .error error ∧ objection? s [] = some o ∧
      (s.length : Int) < error.position ∧ (s.length : Int) < o.position :=
  ⟨.expected .closeParen ⟨.endOfText, "", 9⟩, .malformed (.expected .closeParen ⟨.endOfText, "", 9⟩),
    by decide +kernel, by decide +kernel, by decide, by decide⟩

end Lifecycle.Formula
