import Mathlib.Data.List.Infix
import Lifecycle.Proofs.Comparison.Order

namespace Lifecycle

theorem Text.occursIn_exact (needle hay : List Char) : Text.occursIn needle hay = true ↔ needle <:+: hay := by
  induction hay with
  | nil => simp [Text.occursIn]
  | cons c rest ih =>
    rw [Text.occursIn, Bool.or_eq_true, ih, List.isPrefixOf_iff_prefix, List.infix_cons_iff]

namespace Relation
variable {t : String}

def IsPlain (t : String) : Prop := t ≠ "true" ∧ t ≠ "false" ∧ numeral? t = none

instance (t : String) : Decidable (IsPlain t) := inferInstanceAs (Decidable (_ ∧ _))

def sought (t : String) : String :=
  match numeral? t with
  | some n => asText n.toJson
  | none => t

theorem asText_sought (t : String) : asText (coerce (.text t)) = sought t := by
  unfold sought
  have coerced := coerce_coerced t
  generalize coerce (.text t) = v at coerced
  cases coerced with
  | truth b spelled =>
    subst spelled
    cases b <;> rfl
  | number _ _ read => rw [read]
  | text _ _ unread =>
    rw [unread, asText, Json.display_text]
    all_goals nofun

theorem coerce_plain (plain : IsPlain t) : coerce (.text t) = .text t := by
  have coerced := coerce_coerced t
  generalize coerce (.text t) = v at coerced
  cases coerced with
  | truth b spelled =>
    cases b
    · exact absurd spelled plain.2.1
    · exact absurd spelled plain.1
  | number _ _ read =>
    rw [plain.2.2] at read
    cases read
  | text => rfl

theorem coerce_marked (marked : ¬IsPlain t) : (coerce (.text t)).kind ≠ .text := by
  have coerced := coerce_coerced t
  generalize coerce (.text t) = v at coerced
  cases coerced with
  | truth => nofun
  | @number n => cases n <;> nofun
  | text untrue unfalse unread => exact absurd ⟨untrue, unfalse, unread⟩ marked

theorem tag_found (tag t : String) :
    (looselyEqual (.text tag) (coerce (.text t)) && decide ((Json.text tag).kind = (coerce (.text t)).kind)) =
      decide (tag = t ∧ IsPlain t) := by
  by_cases plain : IsPlain t
  · rw [coerce_plain plain]
    simp [plain, looselyEqual, Json.kind, Json.same]
  · have other : (Json.text tag).kind ≠ (coerce (.text t)).kind := fun same => coerce_marked plain same.symm
    simp [plain, other]

theorem containedIn_tags (tags : List String) (t : String) :
    containedIn (Json.texts tags) (coerce (.text t)) = decide (t ∈ tags ∧ IsPlain t) := by
  change (tags.map Json.text).any _ = _
  rw [List.any_map, Bool.eq_iff_iff, List.any_eq_true, decide_eq_true_iff]
  simp only [Function.comp, tag_found, decide_eq_true_iff]
  constructor
  · rintro ⟨tag, member, rfl, plain⟩
    exact ⟨member, plain⟩
  · rintro ⟨member, plain⟩
    exact ⟨t, member, rfl, plain⟩

theorem containedIn_text (s t : String) :
    containedIn (.text s) (coerce (.text t)) = decide ((sought t).toList <:+: s.toList) := by
  rw [containedIn, asText_sought, Bool.eq_iff_iff, Text.occursIn_exact, decide_eq_true_iff]

theorem sought_exact (t : String) :
    (∀ s : String, (sought t).toList <:+: s.toList ↔ t.toList <:+: s.toList) ↔ sought t = t := by
  constructor
  · intro alike
    have inside := (alike t).mpr (List.infix_refl _)
    have around := (alike (sought t)).mp (List.infix_refl _)
    exact String.toList_inj.mp (inside.eq_of_length (Nat.le_antisymm inside.length_le around.length_le))
  · intro same s
    rw [same]

-- A comparand is sought as it is read. Among tags only a plain one is found at
-- all, and in a text a number in another spelling than its own is sought in that.
theorem contains_exact (t : String) :
    (∀ tags, compare (Json.texts tags) (.text "CONTAINS") (.text t) = .ok (decide (t ∈ tags ∧ IsPlain t))) ∧
    (∀ s, compare (.text s) (.text "CONTAINS") (.text t) = .ok (decide ((sought t).toList <:+: s.toList))) ∧
    ((∀ tags, compare (Json.texts tags) (.text "CONTAINS") (.text t) = .ok (decide (t ∈ tags))) ↔ IsPlain t) ∧
    ((∀ s, compare (.text s) (.text "CONTAINS") (.text t) = .ok (decide (t.toList <:+: s.toList))) ↔ sought t = t) := by
  have tagged : ∀ tags,
      compare (Json.texts tags) (.text "CONTAINS") (.text t) = .ok (decide (t ∈ tags ∧ IsPlain t)) := by
    intro tags
    rw [compare_known (r := .contains) rfl, holds, containedIn_tags]
  have spelled : ∀ s,
      compare (.text s) (.text "CONTAINS") (.text t) = .ok (decide ((sought t).toList <:+: s.toList)) := by
    intro s
    rw [compare_known (r := .contains) rfl, holds, containedIn_text]
  refine ⟨tagged, spelled, ?_, ?_⟩
  · simp only [tagged, Except.ok.injEq, decide_eq_decide]
    constructor
    · intro listed
      exact ((listed [t]).mpr (List.mem_singleton_self t)).2
    · intro plain tags
      exact and_iff_left plain
  · simp only [spelled, Except.ok.injEq, decide_eq_decide, sought_exact]

theorem contains_numeral :
    ("5" ∈ ["5"] ∧ compare (Json.texts ["5"]) (.text "CONTAINS") (.text "5") = .ok false) ∧
    (¬"1.0".toList <:+: "v1".toList ∧ compare (.text "v1") (.text "CONTAINS") (.text "1.0") = .ok true) ∧
    ("1e3".toList <:+: "1e3".toList ∧ compare (.text "1e3") (.text "CONTAINS") (.text "1e3") = .ok false) := by
  refine ⟨⟨by decide, ?_⟩, ⟨by decide, ?_⟩, by decide, ?_⟩
  · rw [compare_known (r := .contains) rfl]
    exact congrArg Except.ok (by decide +kernel)
  · rw [compare_known (r := .contains) rfl]
    exact congrArg Except.ok (by decide +kernel)
  · rw [compare_known (r := .contains) rfl]
    exact congrArg Except.ok (by decide +kernel)

end Relation
end Lifecycle
