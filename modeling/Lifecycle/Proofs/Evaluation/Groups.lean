import Lifecycle.Evaluation

namespace Lifecycle

-- A field and an operator by which a table can be searched. A text always is
-- such a name, and so is all else but a list or a record.
def Comparison.IsNamed (c : Comparison) : Prop := c.field.isKey = true ∧ c.operator.isKey = true

theorem Context.resolve_named (ctx : Context) (named : field.isKey = true) :
    ∃ current, ctx.resolve field = .ok current := by
  unfold resolve
  split
  · exact ⟨_, rfl⟩
  · exact ⟨_, if_pos named⟩

theorem Relation.compare_named (current target : Json) (named : operator.isKey = true) :
    ∃ passed, compare current operator target = .ok passed := by
  unfold compare
  split
  · exact ⟨_, rfl⟩
  · exact ⟨_, if_pos named⟩

namespace Condition
variable {ctx : Context} {cs : List Condition}

-- Conditions that can be checked: none of them names its field or its
-- operator by a value that is fit for no table.
def Checkable (ctx : Context) (cs : List Condition) : Prop := ∀ c ∈ cs, ∃ passed, c.check ctx = .ok passed

theorem checkable_named (named : ∀ c ∈ cs, c.IsNamed) : Checkable ctx cs := by
  intro c member
  obtain ⟨current, resolved⟩ := Context.resolve_named ctx (named c member).1
  obtain ⟨passed, compared⟩ := Relation.compare_named current (.text c.value) (named c member).2
  exact ⟨passed, by rw [check, resolved, ← compared]⟩

def AllHold (ctx : Context) (cs : List Condition) : Prop := ∀ c ∈ cs, c.check ctx = .ok true

def SomeGroupHolds (ctx : Context) (cs : List Condition) : Prop :=
  ∃ c ∈ cs, ∀ d ∈ cs, d.groupId = c.groupId → d.check ctx = .ok true

theorem allHold_verdict (decided : allHold ctx cs = .ok verdict) : verdict = true ↔ AllHold ctx cs := by
  induction cs with
  | nil =>
    cases decided
    simp [AllHold]
  | cons c rest ih =>
    rw [allHold] at decided
    split at decided
    · cases decided
    · rename_i failed
      cases decided
      simp [AllHold, failed]
    · rename_i passed
      simpa [AllHold, passed] using ih decided

theorem allHold_answers (checkable : Checkable ctx cs) : ∃ verdict, allHold ctx cs = .ok verdict := by
  induction cs with
  | nil => exact ⟨true, rfl⟩
  | cons c rest ih =>
    obtain ⟨passed, checked⟩ := checkable c (by simp)
    cases passed with
    | false => exact ⟨false, by rw [allHold, checked]⟩
    | true =>
      obtain ⟨verdict, decided⟩ := ih fun d member => checkable d (by simp [member])
      exact ⟨verdict, by rw [allHold, checked, ← decided]⟩

theorem anyHolds_verdict {groups : List (Nat × List Condition)} (decided : anyHolds ctx groups = .ok verdict) :
    verdict = true ↔ ∃ g ∈ groups, AllHold ctx g.2 := by
  induction groups with
  | nil =>
    cases decided
    simp
  | cons g rest ih =>
    rw [anyHolds] at decided
    split at decided
    · cases decided
    · rename_i held
      cases decided
      simp [(allHold_verdict held).mp rfl]
    · rename_i failed
      have broken : ¬AllHold ctx g.2 := fun holds => by simpa using (allHold_verdict failed).mpr holds
      simpa [broken] using ih decided

theorem anyHolds_answers {groups : List (Nat × List Condition)} (checkable : ∀ g ∈ groups, Checkable ctx g.2) :
    ∃ verdict, anyHolds ctx groups = .ok verdict := by
  induction groups with
  | nil => exact ⟨false, rfl⟩
  | cons g rest ih =>
    obtain ⟨held, decided⟩ := allHold_answers (checkable g (by simp))
    cases held with
    | true => exact ⟨true, by rw [anyHolds, decided]⟩
    | false =>
      obtain ⟨verdict, found⟩ := ih fun h member => checkable h (by simp [member])
      exact ⟨verdict, by rw [anyHolds, decided, ← found]⟩

theorem group_exact (cs : List Condition) :
    (∃ g ∈ groups cs, AllHold ctx g.2) ↔ SomeGroupHolds ctx cs := by
  simp only [groups, List.mem_map, List.mem_eraseDups, AllHold, SomeGroupHolds]
  constructor
  · rintro ⟨_, ⟨_, ⟨c, member, rfl⟩, rfl⟩, holds⟩
    exact ⟨c, member, fun d other same => holds d (by simp [other, same])⟩
  · rintro ⟨c, member, holds⟩
    refine ⟨_, ⟨_, ⟨c, member, rfl⟩, rfl⟩, fun d other => ?_⟩
    simp only [List.mem_filter, decide_eq_true_eq] at other
    exact holds d other.1 other.2

theorem evaluate_verdict (decided : evaluate ctx cs = .ok verdict) :
    verdict = true ↔ cs = [] ∨ SomeGroupHolds ctx cs := by
  cases cs with
  | nil =>
    cases decided
    simp
  | cons c rest =>
    rw [anyHolds_verdict decided, group_exact]
    simp

theorem evaluate_answers (checkable : Checkable ctx cs) : ∃ verdict, evaluate ctx cs = .ok verdict := by
  cases cs with
  | nil => exact ⟨true, rfl⟩
  | cons c rest =>
    refine anyHolds_answers fun g present d member => ?_
    obtain ⟨id, _, rfl⟩ := List.mem_map.mp present
    exact checkable d (List.mem_filter.mp member).1

theorem evaluate_exact (checkable : Checkable ctx cs) :
    ∃ verdict, evaluate ctx cs = .ok verdict ∧ (verdict = true ↔ cs = [] ∨ SomeGroupHolds ctx cs) := by
  obtain ⟨verdict, decided⟩ := evaluate_answers checkable
  exact ⟨verdict, decided, evaluate_verdict decided⟩

theorem evaluate_single {a : Condition} (checked : a.check ctx = .ok passed) : evaluate ctx [a] = .ok passed := by
  cases passed <;> simp [evaluate, groups, List.eraseDups_cons, anyHolds, allHold, checked]

section
variable {a b : Condition} (first : a.check ctx = .ok one) (second : b.check ctx = .ok other)
include first second

theorem evaluate_both (together : b.groupId = a.groupId) : evaluate ctx [a, b] = .ok (one && other) := by
  cases one <;> cases other <;>
    simp [evaluate, groups, List.eraseDups_cons, anyHolds, allHold, first, second, together]

theorem evaluate_either (apart : b.groupId ≠ a.groupId) : evaluate ctx [a, b] = .ok (one || other) := by
  cases one <;> cases other <;>
    simp [evaluate, groups, List.eraseDups_cons, anyHolds, allHold, first, second, apart, apart.symm]

end

end Condition
end Lifecycle
