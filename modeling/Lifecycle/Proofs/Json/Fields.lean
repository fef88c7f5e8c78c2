import Lifecycle.Json.Reading
import Lifecycle.Proofs.Outcome

namespace Lifecycle

section
variable {α β γ ε : Type}

@[simp]
theorem pure_ok (a : α) : (pure a : Except ε α) = .ok a := (rfl)

@[simp]
theorem map_value (f : α → β) (a : α) : (Except.ok a : Except ε α).map f = .ok (f a) := (rfl)

@[simp]
theorem ok_bind (a : α) (f : α → Except ε β) : (Except.ok a >>= f) = f a := (rfl)

theorem mapM_written {xs : List α} {write : α → β} {read : β → Except ε γ} (kept : α → γ)
    (each : ∀ a ∈ xs, read (write a) = .ok (kept a)) : (xs.map write).mapM read = .ok (xs.map kept) := by
  induction xs with
  | nil => rfl
  | cons a xs ih =>
    have first := each a List.mem_cons_self
    have others := ih fun b member => each b (List.mem_cons_of_mem a member)
    rw [List.map_cons, List.mapM_cons, first, others]
    rfl

theorem mapM_restored {xs : List α} {write : α → β} {read : β → Except ε α}
    (each : ∀ a ∈ xs, read (write a) = .ok a) : (xs.map write).mapM read = .ok xs := by
  have written := mapM_written id each
  rwa [List.map_id] at written

theorem mapM_found {xs : List α} {ys : List β} {read : α → Except ε β} (done : xs.mapM read = .ok ys) :
    ∀ b ∈ ys, ∃ a ∈ xs, read a = .ok b := by
  induction xs generalizing ys with
  | nil =>
    cases done
    simp
  | cons a xs ih =>
    rw [List.mapM_cons] at done
    obtain ⟨b, first, done⟩ := bind_ok.mp done
    obtain ⟨rest, others, done⟩ := bind_ok.mp done
    cases done
    intro c member
    rcases List.mem_cons.mp member with rfl | later
    · exact ⟨a, List.mem_cons_self, first⟩
    · obtain ⟨d, present, found⟩ := ih others c later
      exact ⟨d, List.mem_cons_of_mem a present, found⟩

theorem mapM_all {xs : List α} {ys : List β} {read : α → Except ε β} {Holds : β → Prop}
    (each : ∀ a b, read a = .ok b → Holds b) (done : xs.mapM read = .ok ys) : ∀ b ∈ ys, Holds b := by
  intro b member
  obtain ⟨a, _, found⟩ := mapM_found done b member
  exact each a b found

end

namespace Json

section
variable (k key : String) (v fallback : Json) (fs : List (String × Json))

@[simp]
theorem field_first : field (.record ((key, v) :: fs)) key = .ok v := by
  simp [field]

@[simp]
theorem field_later (other : key ≠ k) : field (.record ((k, v) :: fs)) key = field (.record fs) key := by
  simp [field, List.lookup_cons, beq_eq_false_iff_ne.mpr other]

@[simp]
theorem tryField_first : field? (.record ((key, v) :: fs)) key = .ok (some v) := by
  simp [field?]

@[simp]
theorem tryField_later (other : key ≠ k) : field? (.record ((k, v) :: fs)) key = field? (.record fs) key := by
  simp [field?, List.lookup_cons, beq_eq_false_iff_ne.mpr other]

@[simp]
theorem tryField_none : field? (.record []) key = .ok none := rfl

@[simp]
theorem fieldOr_first : fieldOr (.record ((key, v) :: fs)) key fallback = .ok v := by
  simp [fieldOr]

@[simp]
theorem fieldOr_later (other : key ≠ k) :
    fieldOr (.record ((k, v) :: fs)) key fallback = fieldOr (.record fs) key fallback := by
  simp [fieldOr, other]

@[simp]
theorem fieldOr_none : fieldOr (.record []) key fallback = .ok fallback := rfl

@[simp]
theorem fieldOrNull_first : fieldOrNull (.record ((key, v) :: fs)) key = .ok v := by
  simp [fieldOrNull]

@[simp]
theorem fieldOrNull_later (other : key ≠ k) :
    fieldOrNull (.record ((k, v) :: fs)) key = fieldOrNull (.record fs) key := by
  simp [fieldOrNull, other]

@[simp]
theorem fieldOrNull_none : fieldOrNull (.record []) key = .ok .null := rfl

end

@[simp]
theorem toInt_int (i : Int) : toInt (.int i) = .ok i := rfl

@[simp]
theorem toReal_real (d : Double) : toReal (.real d) = .ok d := rfl

@[simp]
theorem display_text (s : String) : display (.text s) = s := by
  simp [display]

@[simp]
theorem truthy_null : truthy .null = false := rfl

@[simp]
theorem truthy_bool (b : Bool) : truthy (.bool b) = b := rfl

@[simp]
theorem truthy_record (f : String × Json) (fs : List (String × Json)) : truthy (.record (f :: fs)) = true := rfl

theorem truthy_or_null (v : Json) :
    (if v.truthy then v else .null).truthy ∨ (if v.truthy then v else .null) = .null := by
  split
  · exact .inl ‹_›
  · exact .inr rfl

theorem truthy_kept {v : Json} (named : v.truthy ∨ v = .null) : (if v.truthy then v else .null) = v := by
  rcases named with some | rfl
  · exact if_pos some
  · rfl

theorem null_kind {v : Json} (null : v.kind = .null) : v = .null := by
  cases v <;> first | rfl | cases null

@[simp]
theorem items_list (xs : List Json) : items (.list xs) = .ok xs := rfl

theorem compareWith_number {v w : Json} {m n : Number} (left : v.number? = some n) (right : w.number? = some m) :
    v.compareWith sign holds w = .ok (holds n m) := by
  rw [compareWith, left, right]

end Json
end Lifecycle
