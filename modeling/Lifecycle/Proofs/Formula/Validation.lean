import Lifecycle.Formula.Parser
import Lifecycle.Proofs.Formula.Scanning

namespace Lifecycle.Formula

def isField (t : Token) : Bool := t.kind = .field

theorem derives_fields (derived : Derives phrase ts a) :
    (ts.filter isField).map (·.text) = a.leaves.map (·.field) := by
  induction derived with
  | comparison field operator value => simp [isField, field, operator, value, leaves]
  | parenthesized opens inside closes ih => simp [isField, opens, closes, ih]
  | operand only ih | alternative only ih => exact ih
  | both before joint last ihBefore ihLast | either before joint last ihBefore ihLast =>
    simp [isField, joint, ihBefore, ihLast, leaves]

theorem parse_fields (parsed : parse s = .ok f) :
    ((scan s).filter isField).map (·.text) = f.leaves.map (·.field) := by
  obtain ⟨ts, e, scanned, _, ends, derived⟩ := parse_derives parsed
  have last : [e].filter isField = [] := by simp [isField, ends]
  rw [scanned, List.filter_append, last, List.append_nil]
  exact derives_fields derived

theorem fieldPosition_first {tokens : List Token}
    (spelled : (tokens.filter isField).map (·.text) = before ++ field :: after) (new : field ∉ before) :
    ∃ t ∈ tokens, (tokens.filter isField)[before.length]? = some t ∧ t.kind = .field ∧ t.text = field ∧
      fieldPosition tokens field = t.position := by
  obtain ⟨front, rest, split, listed, last⟩ := List.map_eq_append_iff.mp spelled
  obtain ⟨t, back, rfl, rfl, _⟩ := List.map_eq_cons_iff.mp last
  have member : t ∈ tokens.filter isField := by rw [split]; simp
  have size : before.length = front.length := by rw [← listed, List.length_map]
  have unlike : front.find? (fun u => decide (u.text = t.text)) = none := by
    rw [List.find?_eq_none]
    intro u present same
    apply new
    rw [← listed, ← of_decide_eq_true same]
    exact List.mem_map_of_mem present
  have first : (tokens.filter isField).find? (fun u => decide (u.text = t.text)) = some t := by
    rw [split, List.find?_append, unlike]
    simp
  have found : tokens.find? (fun u => u.kind = .field && u.text = t.text) = some t := by
    rw [List.find?_filter] at first
    simpa [isField] using first
  refine ⟨t, (List.mem_filter.mp member).1, ?_, of_decide_eq_true (List.mem_filter.mp member).2, rfl, ?_⟩
  · rw [split, size]
    simp
  · rw [fieldPosition, found]
    rfl

theorem objection_none (s : String) (fields : List String) : objection? s fields = none ↔
    ∃ f, parse s = .ok f ∧ (fields = [] ∨ ∀ c ∈ f.leaves, c.field ∈ fields) := by
  unfold objection? objectionAmong
  simp only [parse_exact]
  cases ofTokens (scan s) with
  | error error => simp
  | ok f =>
    cases fields with
    | nil => simp
    | cons first rest => simp [List.find?_eq_none, Decidable.or_iff_not_imp_left]

theorem objection_unknown {f : Formula Leaf} (parsed : parse s = .ok f) (limited : fields ≠ [])
    (listed : f.leaves = before ++ c :: after) (known : ∀ d ∈ before, d.field ∈ fields)
    (unknown : c.field ∉ fields) :
    objection? s fields = some (.unknownField c.field (fieldPosition (scan s) c.field)) := by
  have allowed : before.find? (fun d => !fields.contains d.field) = none := by
    rw [List.find?_eq_none]
    intro d member
    simpa using known d member
  have first : f.leaves.find? (fun d => !fields.contains d.field) = some c := by
    rw [listed, List.find?_append, allowed]
    simp [unknown]
  have some_allowed : ¬fields.isEmpty = true := by simpa using limited
  rw [objection?, objectionAmong, parse_exact.mp parsed]
  dsimp only
  rw [if_neg some_allowed, first]
  rfl

-- Checking agrees with reading, and an unknown field is marked where it first
-- stands: the leaves before it have other fields, so the token that is searched
-- by its text is the one of that leaf.
theorem objection_exact (s : String) (fields : List String) :
    (objection? s fields = none ↔
      ∃ f, parse s = .ok f ∧ (fields = [] ∨ ∀ c ∈ f.leaves, c.field ∈ fields)) ∧
    ∀ f before c after, parse s = .ok f → fields ≠ [] → f.leaves = before ++ c :: after →
      (∀ d ∈ before, d.field ∈ fields) → c.field ∉ fields →
      ∃ t o, ((scan s).filter isField)[before.length]? = some t ∧ objection? s fields = some o ∧
        o.position = t.position ∧ 0 ≤ o.position ∧ o.length = c.field.length ∧
        (s.toList.drop o.position.toNat).take o.length = c.field.toList := by
  refine ⟨objection_none s fields, ?_⟩
  intro f before c after parsed limited listed known unknown
  have spelled := parse_fields parsed
  rw [listed, List.map_append, List.map_cons] at spelled
  have new : c.field ∉ before.map (·.field) := by
    intro member
    obtain ⟨d, present, same⟩ := List.mem_map.mp member
    exact unknown (same ▸ known d present)
  obtain ⟨t, member, place, field, text, found⟩ := fieldPosition_first spelled new
  obtain ⟨n, position, slice⟩ := scan_field member field
  rw [List.length_map] at place
  rw [text] at slice
  refine ⟨t, _, place, objection_unknown parsed limited listed known unknown, found, ?_, rfl, ?_⟩
  · rw [Objection.position, found, position]
    exact Int.natCast_nonneg n
  · rw [Objection.position, found, position]
    exact slice

theorem objection_exact_nested :
    let s := "(a > 1 # AND (b in 'x (' OR c == true)) OR c != 2"
    let fields := ["b", "a"]
    let before : List Leaf := [⟨"a", "GT", "1"⟩, ⟨"b", "IN", "x ("⟩]
    let c : Leaf := ⟨"c", "EQUALS", "true"⟩
    ∃ f after, parse s = .ok f ∧ fields ≠ [] ∧ f.leaves = before ++ c :: after ∧
      (∀ d ∈ before, d.field ∈ fields) ∧ c.field ∉ fields ∧
      ∃ t o, ((scan s).filter isField)[2]? = some t ∧ objection? s fields = some o ∧
        o.position = t.position ∧ 0 ≤ o.position ∧ o.length = c.field.length ∧
        (s.toList.drop o.position.toNat).take o.length = c.field.toList := by
  intro s fields before c
  let f : Formula Leaf := .node .disj (.node .conj (.leaf ⟨"a", "GT", "1"⟩)
    (.node .disj (.leaf ⟨"b", "IN", "x ("⟩) (.leaf c))) (.leaf ⟨"c", "NOT_EQUALS", "2"⟩)
  have parsed : parse s = .ok f := parse_exact.mpr (by decide +kernel)
  have limited : fields ≠ [] := by decide
  have known : ∀ d ∈ before, d.field ∈ fields := by decide
  have unknown : c.field ∉ fields := by decide
  exact ⟨f, _, parsed, limited, rfl, known, unknown,
    (objection_exact s fields).2 f before c _ parsed limited rfl known unknown⟩

end Lifecycle.Formula
