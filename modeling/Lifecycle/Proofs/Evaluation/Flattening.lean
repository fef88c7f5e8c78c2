import Lifecycle.Proofs.Evaluation.Groups
import Lifecycle.Proofs.Formula.Shape

namespace Lifecycle.Formula
variable {α : Type} {test : α → Prop} {f : Formula α} {group counter : Nat}

def Holds (test : α → Prop) : Formula α → Prop
  | .leaf a => test a
  | .node .conj left right => left.Holds test ∧ right.Holds test
  | .node _ left right => left.Holds test ∨ right.Holds test

def GroupHolds (test : α → Prop) (id : Nat) (members : List (Nat × α)) : Prop :=
  (∃ m ∈ members, m.1 = id) ∧ ∀ m ∈ members, m.1 = id → test m.2

theorem grouped_counter (f : Formula α) : counter ≤ (f.groupedFrom group counter).2 := by
  induction f generalizing group counter with
  | leaf a => exact Nat.le_refl _
  | node joint left right ihLeft ihRight =>
    cases joint with
    | conj => exact Nat.le_trans ihLeft ihRight
    | disj | other => exact Nat.le_trans ihLeft (Nat.le_trans (Nat.le_succ _) ihRight)

-- A part puts its leaves into the group that it was given and into groups of
-- its own, which nothing before or after it can share.
theorem grouped_range {m : Nat × α} (member : m ∈ (f.groupedFrom group counter).1) :
    m.1 = group ∨ counter < m.1 ∧ m.1 ≤ (f.groupedFrom group counter).2 := by
  induction f generalizing group counter with
  | leaf a =>
    rw [groupedFrom, List.mem_singleton] at member
    exact .inl (by rw [member])
  | node joint left right ihLeft ihRight =>
    have before := @grouped_counter _ group counter left
    cases joint with
    | conj =>
      have after := @grouped_counter _ group (left.groupedFrom group counter).2 right
      simp only [groupedFrom, List.mem_append] at member ⊢
      rcases member with first | second
      · have := ihLeft first
        omega
      · have := ihRight second
        omega
    | disj | other =>
      have after := @grouped_counter _ ((left.groupedFrom group counter).2 + 1)
        ((left.groupedFrom group counter).2 + 1) right
      simp only [groupedFrom, List.mem_append] at member ⊢
      rcases member with first | second
      · have := ihLeft first
        omega
      · have := ihRight second
        omega

theorem groupHolds_left {front back : List (Nat × α)} {id : Nat} (holds : GroupHolds test id front)
    (apart : ∀ m ∈ back, m.1 ≠ id) : GroupHolds test id (front ++ back) := by
  obtain ⟨⟨m, member, same⟩, all⟩ := holds
  refine ⟨⟨m, List.mem_append_left _ member, same⟩, fun n present number => ?_⟩
  rcases List.mem_append.mp present with first | second
  · exact all n first number
  · exact absurd number (apart n second)

theorem groupHolds_right {front back : List (Nat × α)} {id : Nat} (holds : GroupHolds test id back)
    (apart : ∀ m ∈ front, m.1 ≠ id) : GroupHolds test id (front ++ back) := by
  obtain ⟨⟨m, member, same⟩, all⟩ := holds
  refine ⟨⟨m, List.mem_append_right _ member, same⟩, fun n present number => ?_⟩
  rcases List.mem_append.mp present with first | second
  · exact absurd number (apart n first)
  · exact all n second number

theorem groupHolds_both {front back : List (Nat × α)} {id : Nat} (first : GroupHolds test id front)
    (second : GroupHolds test id back) : GroupHolds test id (front ++ back) := by
  obtain ⟨⟨m, member, same⟩, all⟩ := first
  refine ⟨⟨m, List.mem_append_left _ member, same⟩, fun n present number => ?_⟩
  rcases List.mem_append.mp present with here | there
  · exact all n here number
  · exact second.2 n there number

theorem holds_grouped (bound : group ≤ counter) (holds : f.Holds test) :
    ∃ id, GroupHolds test id (f.groupedFrom group counter).1 := by
  induction f generalizing group counter with
  | leaf a => exact ⟨group, by simpa [GroupHolds, groupedFrom, Holds] using holds⟩
  | node joint left right ihLeft ihRight =>
    have before := @grouped_counter _ group counter left
    cases joint with
    | conj =>
      obtain ⟨i, first⟩ := ihLeft bound holds.1
      obtain ⟨j, second⟩ := ihRight (Nat.le_trans bound before) holds.2
      obtain ⟨m, memberLeft, rfl⟩ := first.1
      obtain ⟨n, memberRight, rfl⟩ := second.1
      have rangeLeft := grouped_range memberLeft
      have rangeRight := grouped_range memberRight
      by_cases own : m.1 = group
      · by_cases shared : n.1 = group
        · rw [shared.trans own.symm] at second
          exact ⟨m.1, groupHolds_both first second⟩
        · refine ⟨n.1, groupHolds_right second fun k present => ?_⟩
          have := grouped_range present
          omega
      · refine ⟨m.1, groupHolds_left first fun k present => ?_⟩
        have := grouped_range present
        omega
    | disj | other =>
      rcases holds with holds | holds
      · obtain ⟨i, first⟩ := ihLeft bound holds
        obtain ⟨m, member, rfl⟩ := first.1
        have range := grouped_range member
        refine ⟨m.1, groupHolds_left first fun k present => ?_⟩
        have := grouped_range present
        omega
      · obtain ⟨j, second⟩ := ihRight (Nat.le_refl ((left.groupedFrom group counter).2 + 1)) holds
        obtain ⟨n, member, rfl⟩ := second.1
        have range := grouped_range member
        refine ⟨n.1, groupHolds_right second fun k present => ?_⟩
        have := grouped_range present
        omega

theorem conjunction_holds (conjunction : f.isConjunction = true) : f.Holds test ↔ ∀ a ∈ f.leaves, test a := by
  induction f with
  | leaf a => simp [Holds, leaves]
  | node joint left right ihLeft ihRight =>
    simp only [isConjunction, Bool.and_eq_true, decide_eq_true_eq] at conjunction
    obtain ⟨⟨rfl, left⟩, right⟩ := conjunction
    simp [Holds, leaves, ihLeft left, ihRight right, or_imp, forall_and]

theorem grouped_holds (disjunctive : f.isDisjunctive = true) {id : Nat}
    (holds : GroupHolds test id (f.groupedFrom group counter).1) : f.Holds test := by
  induction f generalizing group counter with
  | leaf a =>
    obtain ⟨⟨m, member, rfl⟩, all⟩ := holds
    rw [groupedFrom, List.mem_singleton] at member
    subst member
    exact all (group, a) (by simp [groupedFrom]) rfl
  | node joint left right ihLeft ihRight =>
    cases joint with
    | conj =>
      have conjunction : (node Joint.conj left right).isConjunction = true := by
        simpa [isConjunction, isDisjunctive] using disjunctive
      rw [conjunction_grouped conjunction] at holds
      obtain ⟨⟨m, member, rfl⟩, all⟩ := holds
      obtain ⟨_, _, rfl⟩ := List.mem_map.mp member
      exact (conjunction_holds conjunction).mpr fun a present =>
        all (group, a) (List.mem_map.mpr ⟨a, present, rfl⟩) rfl
    | disj | other =>
      simp only [isDisjunctive, Bool.and_eq_true] at disjunctive
      obtain ⟨⟨m, member, rfl⟩, all⟩ := holds
      simp only [groupedFrom, List.mem_append] at member all
      rcases member with first | second
      · exact .inl (ihLeft disjunctive.1 ⟨⟨m, first, rfl⟩, fun n present => all n (.inl present)⟩)
      · exact .inr (ihRight disjunctive.2 ⟨⟨m, second, rfl⟩, fun n present => all n (.inr present)⟩)

def Leaf.Holds (ctx : Context) (c : Leaf) : Prop :=
  Condition.check ctx { Comparison.ofLeaf c with groupId := 0 } = .ok true

theorem leaf_check (ctx : Context) (c : Leaf) (group : Nat) :
    Condition.check ctx { Comparison.ofLeaf c with groupId := group } = .ok true ↔ c.Holds ctx := Iff.rfl

theorem ofFormula_checkable (ctx : Context) (f : Formula Leaf) :
    Condition.Checkable ctx (Condition.ofFormula f) := by
  intro c member
  rw [ofFormula_grouped] at member
  obtain ⟨⟨group, leaf⟩, _, rfl⟩ := List.mem_map.mp member
  exact ⟨_, rfl⟩

theorem ofFormula_groups (ctx : Context) (f : Formula Leaf) :
    Condition.SomeGroupHolds ctx (Condition.ofFormula f) ↔ ∃ id, GroupHolds (Leaf.Holds ctx) id f.grouped := by
  simp only [Condition.SomeGroupHolds, ofFormula_grouped, List.mem_map, GroupHolds]
  constructor
  · rintro ⟨_, ⟨m, member, rfl⟩, all⟩
    exact ⟨m.1, ⟨m, member, rfl⟩, fun n present same =>
      (leaf_check ctx n.2 n.1).mp (all _ ⟨n, present, rfl⟩ same)⟩
  · rintro ⟨_, ⟨m, member, rfl⟩, all⟩
    refine ⟨_, ⟨m, member, rfl⟩, ?_⟩
    rintro _ ⟨n, present, rfl⟩ same
    exact (leaf_check ctx n.2 n.1).mpr (all n present same)

theorem ofFormula_ne_nil (f : Formula Leaf) : Condition.ofFormula f ≠ [] := by
  intro empty
  rw [ofFormula_grouped] at empty
  have nothing : f.grouped = [] := List.map_eq_nil_iff.mp empty
  have members : f.grouped.map (·.2) = f.leaves := grouped_leaves f
  rw [nothing] at members
  exact leaves_ne_nil f members.symm

-- Flattening loses nobody whom the formula accepts, and it is exact where no
-- choice stands below a conjunction.
theorem evaluate_ofFormula (ctx : Context) (f : Formula Leaf) :
    ∃ verdict, Condition.evaluate ctx (Condition.ofFormula f) = .ok verdict ∧
      (f.Holds (Leaf.Holds ctx) → verdict = true) ∧
      (f.isDisjunctive = true → (verdict = true ↔ f.Holds (Leaf.Holds ctx))) := by
  obtain ⟨verdict, decided, meaning⟩ := Condition.evaluate_exact (ofFormula_checkable ctx f)
  have kept : f.Holds (Leaf.Holds ctx) → verdict = true := fun holds =>
    meaning.mpr (.inr ((ofFormula_groups ctx f).mpr (holds_grouped (Nat.le_refl 0) holds)))
  refine ⟨verdict, decided, kept, fun disjunctive => ⟨fun passed => ?_, kept⟩⟩
  rcases meaning.mp passed with empty | group
  · exact absurd empty (ofFormula_ne_nil f)
  · obtain ⟨id, holds⟩ := (ofFormula_groups ctx f).mp group
    exact grouped_holds disjunctive holds

end Lifecycle.Formula
