import Lifecycle.Proofs.Evaluation.Readings
import Mathlib.Data.List.Chain

namespace Lifecycle
namespace Formula
variable {α : Type} {f : Formula α} {groups : List (List α)}

theorem conjunctions_leaves (filled : ∀ g ∈ groups, g ≠ []) :
    (groups.filterMap fun g => chain? .conj (g.map .leaf)).map leaves = groups ∧
      ∀ h ∈ groups.filterMap fun g => chain? .conj (g.map .leaf), h.isConjunction = true := by
  induction groups with
  | nil => simp
  | cons g groups ih =>
    obtain ⟨listed, conjunctions⟩ := ih fun h member => filled h (by simp [member])
    cases g with
    | nil => exact absurd rfl (filled [] (by simp))
    | cons a as =>
      obtain ⟨conjunction, leaves⟩ := foldl_conjunction (f := .leaf a) rfl as
      have first : chain? .conj ((a :: as).map .leaf) = some ((as.map .leaf).foldl (.node .conj) (.leaf a)) := rfl
      rw [List.filterMap_cons, first]
      exact ⟨by rw [List.map_cons, leaves, listed]; rfl, List.forall_mem_cons.mpr ⟨conjunction, conjunctions⟩⟩

theorem ofGroups_numbered (filled : ∀ g ∈ groups, g ≠ []) (built : ofGroups? groups = some f) :
    f.grouped = numbered 0 0 groups := by
  obtain ⟨listed, conjunctions⟩ := conjunctions_leaves filled
  obtain ⟨disjunctive, parts⟩ := chain_disjunctive built conjunctions
  rw [disjunctive_numbered disjunctive, parts, listed]

end Formula

namespace Condition
variable {ctx : Context} {cs ds : List Condition} {blocks : List (List Comparison)} {place : Nat}

-- Conditions put into a tree and flat again.
def canonical (cs : List Condition) : List Condition := ((formula? cs).map ofTree).getD []

def alternatives (cs : List Condition) : List (List Comparison) := (groups cs).map fun g => g.2.map (·.toComparison)

-- One group behind the other, with the numbers from a given one on.
def inBlocks (place : Nat) (blocks : List (List Comparison)) : List Condition :=
  (blocks.zipIdx place).flatMap fun (block, groupId) => block.map fun c => { c with groupId }

theorem inBlocks_cons (place : Nat) (block : List Comparison) (blocks : List (List Comparison)) :
    inBlocks place (block :: blocks) = block.map (⟨·, place⟩) ++ inBlocks (place + 1) blocks := rfl

theorem inBlocks_numbered (place : Nat) (blocks : List (List Comparison)) :
    (Formula.numbered place place blocks).map (fun (groupId, c) => { c with groupId }) = inBlocks place blocks := by
  induction blocks generalizing place with
  | nil => rfl
  | cons block blocks ih => simp [Formula.numbered, inBlocks_cons, ← ih]

theorem inBlocks_members (place : Nat) (blocks : List (List Comparison)) :
    (inBlocks place blocks).map (·.toComparison) = blocks.flatten := by
  induction blocks generalizing place with
  | nil => rfl
  | cons block blocks ih => simp [inBlocks_cons, ih, Function.comp_def]

theorem alternatives_filled (cs : List Condition) : ∀ block ∈ alternatives cs, block ≠ [] := members_filled cs

theorem canonical_blocks (cs : List Condition) : canonical cs = inBlocks 0 (alternatives cs) := by
  by_cases empty : cs = []
  · subst empty
    rfl
  · obtain ⟨f, built⟩ := formula_some empty
    have numbered := Formula.ofGroups_numbered (alternatives_filled cs) built
    rw [canonical, built, Option.map_some, Option.getD_some, ofTree, numbered, inBlocks_numbered]

theorem groups_cons (c : Condition) (rest : List Condition) : groups (c :: rest) =
    (c.groupId, c :: rest.filter (·.groupId = c.groupId)) :: groups (rest.filter (·.groupId ≠ c.groupId)) := by
  have others : (rest.map (·.groupId)).filter (fun id => !id == c.groupId) =
      (rest.filter (·.groupId ≠ c.groupId)).map (·.groupId) := by
    rw [List.filter_map]
    congr 2
    funext d
    simp [Bool.beq_eq_decide_eq]
  rw [groups, List.map_cons, List.eraseDups_cons, others, List.map_cons, groups]
  congr 1
  · simp
  · apply List.map_congr_left
    intro id listed
    obtain ⟨d, member, rfl⟩ := List.mem_map.mp (List.mem_eraseDups.mp listed)
    have apart : d.groupId ≠ c.groupId := by simpa using (List.mem_filter.mp member).2
    rw [List.filter_cons_of_neg (by simpa using Ne.symm apart), List.filter_filter]
    congr 1
    apply List.filter_congr
    intro e _
    by_cases same : e.groupId = d.groupId <;> simp [same, apart]

theorem groups_perm (cs : List Condition) : ((groups cs).flatMap (·.2)).Perm cs := by
  induction size : cs.length using Nat.strongRecOn generalizing cs with
  | ind n ih =>
    cases cs with
    | nil => exact .nil
    | cons c rest =>
      have shorter : (rest.filter (·.groupId ≠ c.groupId)).length < n := by
        have := List.length_filter_le (fun d : Condition => decide (d.groupId ≠ c.groupId)) rest
        simp only [List.length_cons] at size
        omega
      rw [groups_cons, List.flatMap_cons]
      refine .cons c (((ih _ shorter _ rfl).append_left _).trans ?_)
      have halves := List.filter_append_perm (fun d : Condition => decide (d.groupId = c.groupId)) rest
      simpa using halves

theorem groups_append {front back : List Condition} (place : Nat) (present : front ≠ [])
    (alike : ∀ c ∈ front, c.groupId = place)
    (apart : ∀ c ∈ back, c.groupId ≠ place) : groups (front ++ back) = (place, front) :: groups back := by
  cases front with
  | nil => exact absurd rfl present
  | cons c rest =>
    obtain ⟨rfl, alike⟩ := List.forall_mem_cons.mp alike
    have kept : (rest ++ back).filter (fun d => d.groupId = c.groupId) = rest := by
      rw [List.filter_append, List.filter_eq_self.mpr (by simpa using alike),
        List.filter_eq_nil_iff.mpr (by simpa using apart), List.append_nil]
    have left : (rest ++ back).filter (fun d => d.groupId ≠ c.groupId) = back := by
      rw [List.filter_append, List.filter_eq_nil_iff.mpr (by simpa using alike),
        List.filter_eq_self.mpr (by simpa using apart), List.nil_append]
    rw [List.cons_append, groups_cons, kept, left]

theorem inBlocks_range (place : Nat) (blocks : List (List Comparison)) :
    ∀ c ∈ inBlocks place blocks, place ≤ c.groupId := by
  induction blocks generalizing place with
  | nil => simp [inBlocks]
  | cons block blocks ih =>
    intro c member
    rcases List.mem_append.mp member with here | later
    · obtain ⟨_, _, rfl⟩ := List.mem_map.mp here
      exact Nat.le_refl _
    · exact Nat.le_of_succ_le (ih (place + 1) c later)

theorem alternatives_inBlocks (filled : ∀ block ∈ blocks, block ≠ []) (place : Nat) :
    alternatives (inBlocks place blocks) = blocks := by
  induction blocks generalizing place with
  | nil => rfl
  | cons block blocks ih =>
    have rest := ih (fun b member => filled b (by simp [member])) (place + 1)
    have present : block.map (fun c => (⟨c, place⟩ : Condition)) ≠ [] := mt List.map_eq_nil_iff.mp (filled block (by simp))
    have apart : ∀ c ∈ inBlocks (place + 1) blocks, c.groupId ≠ place :=
      fun c member => Nat.ne_of_gt (inBlocks_range (place + 1) blocks c member)
    have split := groups_append place present (by simp) apart
    rw [alternatives] at rest
    rw [alternatives, inBlocks_cons, split, List.map_cons, rest, List.map_map]
    simp [Function.comp_def]

theorem canonical_canonical (cs : List Condition) : canonical (canonical cs) = canonical cs := by
  rw [canonical_blocks (canonical cs), canonical_blocks cs, alternatives_inBlocks (alternatives_filled cs)]

theorem allHold_same (same : cs.map (·.toComparison) = ds.map (·.toComparison)) : allHold ctx cs = allHold ctx ds := by
  induction cs generalizing ds with
  | nil => rw [List.map_eq_nil_iff.mp same.symm]
  | cons c rest ih =>
    obtain ⟨d, others, rfl, alike, following⟩ := List.map_eq_cons_iff.mp same.symm
    have checked : c.check ctx = d.check ctx := by rw [check, check, alike]
    rw [allHold, allHold, checked, ih following.symm]

theorem anyHolds_same {gs hs : List (Nat × List Condition)}
    (same : gs.map (fun g => g.2.map (·.toComparison)) = hs.map (fun g => g.2.map (·.toComparison))) :
    anyHolds ctx gs = anyHolds ctx hs := by
  induction gs generalizing hs with
  | nil => rw [List.map_eq_nil_iff.mp same.symm]
  | cons g rest ih =>
    obtain ⟨h, others, rfl, alike, following⟩ := List.map_eq_cons_iff.mp same.symm
    rw [anyHolds, anyHolds, allHold_same alike.symm, ih following.symm]

theorem alternatives_nil : alternatives cs = [] ↔ cs = [] := by
  cases cs with
  | nil => simp [alternatives, groups]
  | cons c rest => simp [alternatives, groups_cons]

theorem evaluate_same (ctx : Context) (same : alternatives cs = alternatives ds) :
    evaluate ctx cs = evaluate ctx ds := by
  have empty : cs.isEmpty = ds.isEmpty := by
    rw [Bool.eq_iff_iff, List.isEmpty_iff, List.isEmpty_iff, ← alternatives_nil, same, alternatives_nil]
  rw [evaluate, evaluate, empty, anyHolds_same same]

def Follows (c d : Condition) : Prop := d.groupId = c.groupId ∨ d.groupId = c.groupId + 1

def Consecutive (cs : List Condition) : Prop := (∀ c, cs.head? = some c → c.groupId = 0) ∧ cs.IsChain Follows

theorem inBlocks_head (filled : ∀ block ∈ blocks, block ≠ []) {c : Condition}
    (first : (inBlocks place blocks).head? = some c) : c.groupId = place := by
  cases blocks with
  | nil => cases first
  | cons block blocks =>
    cases block with
    | nil => exact absurd rfl (filled [] (by simp))
    | cons d block =>
      cases first
      rfl

theorem inBlocks_chain (filled : ∀ block ∈ blocks, block ≠ []) (place : Nat) :
    (inBlocks place blocks).IsChain Follows := by
  induction blocks generalizing place with
  | nil => exact .nil
  | cons block blocks ih =>
    have others : ∀ b ∈ blocks, b ≠ [] := fun b member => filled b (by simp [member])
    rw [inBlocks_cons, List.isChain_append]
    refine ⟨?_, ih others (place + 1), ?_⟩
    · rw [List.isChain_map]
      exact (List.pairwise_of_forall fun _ _ => .inl rfl).isChain
    · intro c last d first
      obtain ⟨_, _, rfl⟩ := List.mem_map.mp (List.mem_of_getLast? last)
      exact .inr (inBlocks_head others first)

theorem chain_inBlocks (chain : cs.IsChain Follows) (first : ∀ c, cs.head? = some c → c.groupId = place) :
    ∃ blocks, (∀ block ∈ blocks, block ≠ []) ∧ cs = inBlocks place blocks := by
  induction cs generalizing place with
  | nil => exact ⟨[], by simp, rfl⟩
  | cons c rest ih =>
    obtain rfl := first c rfl
    cases rest with
    | nil => exact ⟨[[c.toComparison]], by simp, rfl⟩
    | cons d others =>
      obtain ⟨follows, chain⟩ := List.isChain_cons_cons.mp chain
      obtain ⟨blocks, filled, behind⟩ := @ih d.groupId chain fun _ same => by cases same; rfl
      rw [behind]
      rcases follows with same | next
      · cases blocks with
        | nil => cases behind
        | cons block blocks =>
          obtain ⟨_, filled⟩ := List.forall_mem_cons.mp filled
          exact ⟨(c.toComparison :: block) :: blocks, by simpa using filled, by rw [same]; rfl⟩
      · exact ⟨[c.toComparison] :: blocks, by simpa using filled, by rw [next]; rfl⟩

theorem consecutive_exact : canonical cs = cs ↔ Consecutive cs := by
  constructor
  · intro same
    rw [← same, canonical_blocks]
    have filled := alternatives_filled cs
    exact ⟨fun c first => inBlocks_head filled first, inBlocks_chain filled 0⟩
  · rintro ⟨first, chain⟩
    obtain ⟨blocks, filled, rfl⟩ := chain_inBlocks chain first
    rw [canonical_blocks, alternatives_inBlocks filled]

-- What is put into a tree and flat again is regrouped: the groups in the order
-- in which they first appear, with numbers of their own, and in each its members
-- in their order. Nothing is lost, and nobody is judged otherwise.
theorem canonical_exact (cs : List Condition) :
    canonical cs = ((cs.map (·.groupId)).eraseDups.zipIdx.flatMap fun (id, place) =>
      (cs.filter (·.groupId = id)).map fun c => { c with groupId := place }) ∧
    ((canonical cs).map (·.toComparison)).Perm (cs.map (·.toComparison)) ∧
    (canonical cs = cs ↔ Consecutive cs) ∧
    canonical (canonical cs) = canonical cs ∧
    ∀ ctx, evaluate ctx (canonical cs) = evaluate ctx cs := by
  refine ⟨?_, ?_, consecutive_exact, canonical_canonical cs, fun ctx => evaluate_same ctx ?_⟩
  · rw [canonical_blocks, inBlocks, alternatives, groups]
    simp [List.zipIdx_map, List.flatMap_map, Function.comp_def]
  · rw [canonical_blocks, inBlocks_members, alternatives, ← List.flatMap_def, ← List.map_flatMap]
    exact (groups_perm cs).map _
  · rw [canonical_blocks, alternatives_inBlocks (alternatives_filled cs)]

example : (canonical [asked 7 "a" "IN", asked 3 "b" "IN", asked 7 "c" "IN", asked 3 "d" "IN"]).map
    (fun c => (c.groupId, c.field.display)) = [(0, "a"), (0, "c"), (1, "b"), (1, "d")] := by rfl

end Condition
end Lifecycle
