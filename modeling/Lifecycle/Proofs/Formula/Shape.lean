import Lifecycle.Record.Condition

namespace Lifecycle.Formula
variable {α : Type} {f : Formula α} {group counter : Nat}

def joint? : Formula α → Option Joint
  | .leaf _ => none
  | .node joint _ _ => some joint

def isConjunction : Formula α → Bool
  | .leaf _ => true
  | .node joint left right => joint = .conj && left.isConjunction && right.isConjunction

def isDisjunctive : Formula α → Bool
  | .leaf _ => true
  | .node .conj left right => left.isConjunction && right.isConjunction
  | .node _ left right => left.isDisjunctive && right.isDisjunctive

def isWritten : Formula α → Bool
  | .leaf _ => true
  | .node joint left right => (joint = .conj || joint = .disj) && left.isWritten && right.isWritten

def leansLeft : Formula α → Bool
  | .leaf _ => true
  | .node joint left right => right.joint? ≠ some joint && left.leansLeft && right.leansLeft

-- Flattening sees only this much of a disjunctive formula: the leaves of each
-- of its alternatives.
def alternatives : Formula α → List (List α)
  | .leaf a => [[a]]
  | .node .conj left right => [left.leaves ++ right.leaves]
  | .node _ left right => left.alternatives ++ right.alternatives

theorem alternatives_flatten (f : Formula α) : f.alternatives.flatten = f.leaves := by
  induction f with
  | leaf a => rfl
  | node joint left right ihLeft ihRight =>
    cases joint <;> simp [alternatives, leaves, ihLeft, ihRight]

theorem alternatives_ne_nil (f : Formula α) : f.alternatives ≠ [] := by
  induction f with
  | leaf a => simp [alternatives]
  | node joint left right ihLeft ihRight => cases joint <;> simp [alternatives, ihLeft]

theorem leaves_ne_nil (f : Formula α) : f.leaves ≠ [] := by
  induction f with
  | leaf a => simp [leaves]
  | node joint left right ihLeft ihRight => simp [leaves, ihLeft]

theorem conjunction_alternatives (conjunction : f.isConjunction = true) : f.alternatives = [f.leaves] := by
  cases f with
  | leaf a => rfl
  | node joint left right =>
    simp only [isConjunction, Bool.and_eq_true, decide_eq_true_eq] at conjunction
    rw [conjunction.1.1]
    rfl

theorem conjunction_disjunctive (conjunction : f.isConjunction = true) : f.isDisjunctive = true := by
  cases f with
  | leaf a => rfl
  | node joint left right =>
    simp only [isConjunction, Bool.and_eq_true, decide_eq_true_eq] at conjunction
    simp [conjunction.1.1, isDisjunctive, conjunction.1.2, conjunction.2]

theorem grouped_leaves (f : Formula α) : (f.groupedFrom group counter).1.map (·.2) = f.leaves := by
  induction f generalizing group counter with
  | leaf a => rfl
  | node joint left right ihLeft ihRight =>
    cases joint <;> simp [groupedFrom, leaves, ihLeft, ihRight]

-- Groups with their numbers. The first has a number of its own, and the others
-- those that follow the counter.
def numbered (group counter : Nat) : List (List α) → List (Nat × α)
  | [] => []
  | first :: rest => first.map (group, ·) ++ numbered (counter + 1) (counter + 1) rest

theorem numbered_append {front : List (List α)} (back : List (List α)) (present : front ≠ []) :
    numbered group counter (front ++ back) =
      numbered group counter front ++ numbered (counter + front.length) (counter + front.length) back := by
  induction front generalizing group counter with
  | nil => exact absurd rfl present
  | cons first rest ih =>
    cases rest with
    | nil => simp [numbered]
    | cons second rest =>
      have next := @ih (counter + 1) (counter + 1) (by simp)
      have count : counter + 1 + (second :: rest).length = counter + (first :: second :: rest).length := by
        simp only [List.length_cons]
        omega
      simp only [List.cons_append, numbered, List.append_assoc] at next ⊢
      rw [next, count]

theorem conjunction_grouped (conjunction : f.isConjunction = true) :
    f.groupedFrom group counter = (f.leaves.map (group, ·), counter) := by
  induction f with
  | leaf a => rfl
  | node joint left right ihLeft ihRight =>
    simp only [isConjunction, Bool.and_eq_true, decide_eq_true_eq] at conjunction
    obtain ⟨⟨rfl, left⟩, right⟩ := conjunction
    simp [groupedFrom, ihLeft left, ihRight right, leaves]

theorem disjunctive_grouped (disjunctive : f.isDisjunctive = true) :
    f.groupedFrom group counter = (numbered group counter f.alternatives, counter + (f.alternatives.length - 1)) := by
  induction f generalizing group counter with
  | leaf a => rfl
  | node joint left right ihLeft ihRight =>
    cases joint with
    | conj =>
      simp only [isDisjunctive, Bool.and_eq_true] at disjunctive
      obtain ⟨left, right⟩ := disjunctive
      simp [groupedFrom, conjunction_grouped left, conjunction_grouped right, alternatives, numbered]
    | disj | other =>
      simp only [isDisjunctive, Bool.and_eq_true] at disjunctive
      have present := alternatives_ne_nil left
      have positive : 0 < left.alternatives.length := List.length_pos_iff.mpr present
      have opened : counter + (left.alternatives.length - 1) + 1 = counter + left.alternatives.length := by omega
      have last := List.length_pos_iff.mpr (alternatives_ne_nil right)
      simp only [groupedFrom, ihLeft disjunctive.1, ihRight disjunctive.2, alternatives, numbered_append _ present,
        opened, List.length_append, Prod.mk.injEq, true_and]
      omega

theorem disjunctive_numbered (disjunctive : f.isDisjunctive = true) : f.grouped = numbered 0 0 f.alternatives := by
  rw [grouped, disjunctive_grouped disjunctive]

-- What one joint holds together, each part as a whole.
def parts (joint : Joint) : Formula α → List (Formula α)
  | .leaf a => [.leaf a]
  | .node other left right =>
    if other = joint then left.parts joint ++ right.parts joint else [.node other left right]

theorem parts_other {joint : Joint} (apart : f.joint? ≠ some joint) : f.parts joint = [f] := by
  cases f with
  | leaf a => rfl
  | node other left right => exact if_neg fun same => apart (congrArg some same)

theorem chain_append {joint : Joint} {front : List (Formula α)} (built : chain? joint front = some f)
    (back : List (Formula α)) : chain? joint (front ++ back) = some (back.foldl (.node joint) f) := by
  cases front with
  | nil => cases built
  | cons first rest =>
    cases built
    simp [chain?, List.foldl_append]

theorem chain_parts (leans : f.leansLeft = true) (joint : Joint) : chain? joint (f.parts joint) = some f := by
  induction f with
  | leaf a => rfl
  | node other left right ihLeft ihRight =>
    simp only [leansLeft, Bool.and_eq_true, decide_eq_true_eq] at leans
    obtain ⟨⟨apart, left⟩, right⟩ := leans
    by_cases same : other = joint
    · subst same
      rw [parts, if_pos rfl, parts_other apart]
      exact chain_append (ihLeft left) _
    · rw [parts, if_neg same]
      rfl

theorem leans_parts (leans : f.leansLeft = true) {joint : Joint} {part : Formula α}
    (member : part ∈ f.parts joint) : part.leansLeft = true := by
  induction f with
  | leaf a =>
    rw [List.mem_singleton.mp member]
    rfl
  | node other left right ihLeft ihRight =>
    by_cases same : other = joint
    · rw [parts, if_pos same] at member
      simp only [leansLeft, Bool.and_eq_true] at leans
      rcases List.mem_append.mp member with first | second
      · exact ihLeft leans.1.2 first
      · exact ihRight leans.2 second
    · rw [parts, if_neg same] at member
      rw [List.mem_singleton.mp member]
      exact leans

theorem conjunction_parts (conjunction : f.isConjunction = true) : f.parts .conj = f.leaves.map .leaf := by
  induction f with
  | leaf a => rfl
  | node joint left right ihLeft ihRight =>
    simp only [isConjunction, Bool.and_eq_true, decide_eq_true_eq] at conjunction
    obtain ⟨⟨rfl, left⟩, right⟩ := conjunction
    rw [parts, if_pos rfl, ihLeft left, ihRight right, leaves, List.map_append]

theorem disjunctive_parts (disjunctive : f.isDisjunctive = true) (written : f.isWritten = true) :
    (∀ part ∈ f.parts .disj, part.isConjunction = true) ∧ (f.parts .disj).map leaves = f.alternatives := by
  induction f with
  | leaf a => exact ⟨fun part member => by rw [List.mem_singleton.mp member]; rfl, rfl⟩
  | node joint left right ihLeft ihRight =>
    simp only [isWritten, Bool.and_eq_true] at written
    cases joint with
    | conj =>
      refine ⟨fun part member => ?_, rfl⟩
      rw [List.mem_singleton.mp member]
      simpa [isConjunction, isDisjunctive] using disjunctive
    | disj =>
      simp only [isDisjunctive, Bool.and_eq_true] at disjunctive
      obtain ⟨first, front⟩ := ihLeft disjunctive.1 written.1.2
      obtain ⟨second, back⟩ := ihRight disjunctive.2 written.2
      rw [parts, if_pos rfl]
      refine ⟨fun part member => ?_, by simp [front, back, alternatives]⟩
      exact (List.mem_append.mp member).elim (first part) (second part)
    | other name => simp at written

def rebuilt (f : Formula α) : Formula α := (chain? .conj (f.leaves.map .leaf)).getD f

theorem foldl_conjunction (conjunction : f.isConjunction = true) (as : List α) :
    ((as.map .leaf).foldl (.node .conj) f).isConjunction = true ∧
      ((as.map .leaf).foldl (.node .conj) f).leaves = f.leaves ++ as := by
  induction as generalizing f with
  | nil => exact ⟨conjunction, (List.append_nil _).symm⟩
  | cons a as ih =>
    have longer : (node .conj f (.leaf a)).isConjunction = true := by simp [isConjunction, conjunction]
    obtain ⟨kept, listed⟩ := ih longer
    exact ⟨kept, by simpa [leaves] using listed⟩

theorem rebuilt_chain (f : Formula α) : chain? .conj (f.leaves.map .leaf) = some f.rebuilt := by
  cases listed : f.leaves with
  | nil => exact absurd listed (leaves_ne_nil f)
  | cons a as => simp [rebuilt, listed, chain?]

theorem rebuilt_facts (f : Formula α) : f.rebuilt.isConjunction = true ∧ f.rebuilt.leaves = f.leaves := by
  have built := rebuilt_chain f
  cases listed : f.leaves with
  | nil => exact absurd listed (leaves_ne_nil f)
  | cons a as =>
    rw [listed] at built
    have same : (as.map .leaf).foldl (.node .conj) (.leaf a) = f.rebuilt := Option.some.inj built
    rw [← same]
    exact foldl_conjunction rfl as

theorem rebuilt_same (conjunction : f.isConjunction = true) (leans : f.leansLeft = true) : f.rebuilt = f := by
  have same := chain_parts leans .conj
  rw [conjunction_parts conjunction, rebuilt_chain] at same
  exact Option.some.inj same

theorem foldl_disjunctive (disjunctive : f.isDisjunctive = true) (fs : List (Formula α))
    (conjunctions : ∀ g ∈ fs, g.isConjunction = true) :
    (fs.foldl (.node .disj) f).isDisjunctive = true ∧
      (fs.foldl (.node .disj) f).alternatives = f.alternatives ++ fs.map leaves := by
  induction fs generalizing f with
  | nil => exact ⟨disjunctive, (List.append_nil _).symm⟩
  | cons g fs ih =>
    have conjunction := conjunctions g (by simp)
    have longer : (node .disj f g).isDisjunctive = true := by
      simp [isDisjunctive, disjunctive, conjunction_disjunctive conjunction]
    obtain ⟨kept, listed⟩ := ih longer fun h member => conjunctions h (by simp [member])
    exact ⟨kept, by simpa [alternatives, conjunction_alternatives conjunction] using listed⟩

theorem chain_disjunctive {fs : List (Formula α)} (built : chain? .disj fs = some f)
    (conjunctions : ∀ g ∈ fs, g.isConjunction = true) :
    f.isDisjunctive = true ∧ f.alternatives = fs.map leaves := by
  cases fs with
  | nil => cases built
  | cons g fs =>
    cases built
    have conjunction := conjunctions g (by simp)
    have facts := foldl_disjunctive (conjunction_disjunctive conjunction) fs
      fun h member => conjunctions h (by simp [member])
    rwa [conjunction_alternatives conjunction] at facts

theorem groupedFrom_map {β : Type} (g : α → β) (f : Formula α) (group counter : Nat) :
    (f.map g).groupedFrom group counter =
      ((f.groupedFrom group counter).1.map fun m => (m.1, g m.2), (f.groupedFrom group counter).2) := by
  induction f generalizing group counter with
  | leaf a => rfl
  | node joint left right ihLeft ihRight =>
    cases joint <;> simp [map, groupedFrom, ihLeft, ihRight]

theorem ofFormula_grouped (f : Formula Leaf) :
    Condition.ofFormula f = f.grouped.map fun m => { Comparison.ofLeaf m.2 with groupId := m.1 } := by
  rw [Condition.ofFormula, Condition.ofTree, grouped, groupedFrom_map, List.map_map]
  rfl

end Lifecycle.Formula
