import Lifecycle.Proofs.Evaluation.Flattening

namespace Lifecycle
namespace Formula
variable {α : Type} {test : α → Prop} {f : Formula α}

theorem foldl_conj_holds (f : Formula α) (fs : List (Formula α)) :
    (fs.foldl (.node .conj) f).Holds test ↔ f.Holds test ∧ ∀ g ∈ fs, g.Holds test := by
  induction fs generalizing f with
  | nil => simp
  | cons g fs ih => simp [ih, Holds, and_assoc]

theorem foldl_disj_holds (f : Formula α) (fs : List (Formula α)) :
    (fs.foldl (.node .disj) f).Holds test ↔ f.Holds test ∨ ∃ g ∈ fs, g.Holds test := by
  induction fs generalizing f with
  | nil => simp
  | cons g fs ih => simp [ih, Holds, or_assoc]

theorem conj_holds {fs : List (Formula α)} (built : chain? .conj fs = some f) :
    f.Holds test ↔ ∀ g ∈ fs, g.Holds test := by
  cases fs with
  | nil => cases built
  | cons g fs =>
    cases built
    simp [foldl_conj_holds]

theorem disj_holds {fs : List (Formula α)} (built : chain? .disj fs = some f) :
    f.Holds test ↔ ∃ g ∈ fs, g.Holds test := by
  cases fs with
  | nil => cases built
  | cons g fs =>
    cases built
    simp [foldl_disj_holds]

theorem chain_some (joint : Joint) {fs : List (Formula α)} (present : fs ≠ []) :
    ∃ f, chain? joint fs = some f := by
  cases fs with
  | nil => exact absurd rfl present
  | cons g fs => exact ⟨_, rfl⟩

-- The tree of some groups is read as they are: one group with all its members.
theorem ofGroups_holds {groups : List (List α)} (filled : ∀ g ∈ groups, g ≠ [])
    (built : ofGroups? groups = some f) : f.Holds test ↔ ∃ g ∈ groups, ∀ a ∈ g, test a := by
  rw [disj_holds built]
  constructor
  · rintro ⟨h, member, holds⟩
    obtain ⟨g, present, chained⟩ := List.mem_filterMap.mp member
    exact ⟨g, present, fun a inside => (conj_holds chained).mp holds (.leaf a) (List.mem_map_of_mem inside)⟩
  · rintro ⟨g, present, holds⟩
    obtain ⟨h, chained⟩ := chain_some .conj (mt List.map_eq_nil_iff.mp (filled g present))
    refine ⟨h, List.mem_filterMap.mpr ⟨g, present, chained⟩, (conj_holds chained).mpr ?_⟩
    rintro _ member
    obtain ⟨a, inside, rfl⟩ := List.mem_map.mp member
    exact holds a inside

theorem ofGroups_some {groups : List (List α)} (present : groups ≠ []) (filled : ∀ g ∈ groups, g ≠ []) :
    ∃ f, ofGroups? groups = some f := by
  obtain ⟨g, member⟩ := List.exists_mem_of_ne_nil groups present
  obtain ⟨h, chained⟩ := chain_some .conj (mt List.map_eq_nil_iff.mp (filled g member))
  exact chain_some .disj (List.ne_nil_of_mem (List.mem_filterMap.mpr ⟨g, member, chained⟩))

end Formula

def Comparison.Holds (ctx : Context) (c : Comparison) : Prop := Condition.check ctx ⟨c, 0⟩ = .ok true

namespace Condition
variable {ctx : Context} {cs : List Condition}

def regroup (rename : Nat → Nat) (c : Condition) : Condition := { c with groupId := rename c.groupId }

theorem someGroupHolds_perm {ds : List Condition} (perm : cs.Perm ds) :
    SomeGroupHolds ctx cs ↔ SomeGroupHolds ctx ds := by
  simp only [SomeGroupHolds, perm.mem_iff]

theorem someGroupHolds_regroup {rename : Nat → Nat}
    (apart : ∀ c ∈ cs, ∀ d ∈ cs, rename c.groupId = rename d.groupId → c.groupId = d.groupId) :
    SomeGroupHolds ctx (cs.map (regroup rename)) ↔ SomeGroupHolds ctx cs := by
  constructor
  · rintro ⟨_, member, holds⟩
    obtain ⟨c, present, rfl⟩ := List.mem_map.mp member
    exact ⟨c, present, fun d other same =>
      holds (regroup rename d) (List.mem_map_of_mem other) (congrArg rename same)⟩
  · rintro ⟨c, member, holds⟩
    refine ⟨_, List.mem_map_of_mem member, fun _ other same => ?_⟩
    obtain ⟨d, present, rfl⟩ := List.mem_map.mp other
    exact holds d present (apart d present c member same)

theorem checkable_perm {ds : List Condition} (perm : cs.Perm ds) (checkable : Checkable ctx cs) :
    Checkable ctx ds := fun c member => checkable c (perm.mem_iff.mpr member)

theorem checkable_regroup (rename : Nat → Nat) (checkable : Checkable ctx cs) :
    Checkable ctx (cs.map (regroup rename)) := by
  intro _ member
  obtain ⟨c, present, rfl⟩ := List.mem_map.mp member
  exact checkable c present

theorem evaluate_congr {ds : List Condition} (checkable : Checkable ctx ds) (decided : evaluate ctx cs = .ok verdict)
    (same : ds = [] ∨ SomeGroupHolds ctx ds ↔ cs = [] ∨ SomeGroupHolds ctx cs) :
    evaluate ctx ds = .ok verdict := by
  obtain ⟨other, found, meaning⟩ := evaluate_exact checkable
  rw [same, ← evaluate_verdict decided, Bool.coe_iff_coe] at meaning
  rw [found, meaning]

theorem check_parts {c : Condition} (checked : c.check ctx = .ok passed) : ∃ actual,
    ctx.resolve c.field = .ok actual ∧ Relation.compare actual c.operator (.text c.value) = .ok passed := by
  unfold check at checked
  split at checked
  · cases checked
  · rename_i actual resolved
    exact ⟨actual, resolved, checked⟩

theorem trace_answers (checkable : Checkable ctx cs) : ∃ findings, trace ctx cs = .ok findings ∧
    findings.map (·.condition) = cs ∧ ∀ f ∈ findings, f.condition.check ctx = .ok f.passed := by
  induction cs with
  | nil => exact ⟨[], rfl, rfl, by simp⟩
  | cons c rest ih =>
    obtain ⟨passed, checked⟩ := checkable c (by simp)
    obtain ⟨actual, resolved, compared⟩ := check_parts checked
    obtain ⟨findings, traced, conditions, flags⟩ := ih fun d member => checkable d (by simp [member])
    refine ⟨⟨c, actual, passed⟩ :: findings, ?_, by simp [conditions], by simpa [checked] using flags⟩
    rw [trace] at traced
    rw [trace, List.mapM_cons, resolved, traced]
    simp [bind, Except.bind, pure, Except.pure, compared]

theorem trace_groups {findings : List Finding} (conditions : findings.map (·.condition) = cs)
    (flags : ∀ f ∈ findings, f.condition.check ctx = .ok f.passed) :
    SomeGroupHolds ctx cs ↔ ∃ f ∈ findings, ∀ g ∈ findings,
      g.condition.groupId = f.condition.groupId → g.passed = true := by
  subst conditions
  constructor
  · rintro ⟨_, member, holds⟩
    obtain ⟨f, present, rfl⟩ := List.mem_map.mp member
    refine ⟨f, present, fun g other same => ?_⟩
    have checked := holds _ (List.mem_map_of_mem other) same
    rw [flags g other] at checked
    exact Except.ok.inj checked
  · rintro ⟨f, present, holds⟩
    refine ⟨_, List.mem_map_of_mem present, fun _ member same => ?_⟩
    obtain ⟨g, other, rfl⟩ := List.mem_map.mp member
    rw [flags g other, holds g other same]

theorem groups_filled (cs : List Condition) : ∀ g ∈ groups cs, g.2 ≠ [] := by
  intro g member
  obtain ⟨_, listed, rfl⟩ := List.mem_map.mp member
  obtain ⟨c, present, rfl⟩ := List.mem_map.mp (List.mem_eraseDups.mp listed)
  exact List.ne_nil_of_mem (List.mem_filter.mpr ⟨present, decide_eq_true rfl⟩)

theorem members_filled (cs : List Condition) :
    ∀ g ∈ (groups cs).map (fun g => g.2.map (·.toComparison)), g ≠ [] := by
  intro _ member
  obtain ⟨g, present, rfl⟩ := List.mem_map.mp member
  exact mt List.map_eq_nil_iff.mp (groups_filled cs g present)

theorem formula_holds {f : Formula Comparison} (built : formula? cs = some f) :
    f.Holds (Comparison.Holds ctx) ↔ SomeGroupHolds ctx cs := by
  rw [Formula.ofGroups_holds (members_filled cs) built, ← group_exact]
  constructor
  · rintro ⟨_, member, holds⟩
    obtain ⟨g, present, rfl⟩ := List.mem_map.mp member
    exact ⟨g, present, fun c inside => holds c.toComparison (List.mem_map_of_mem inside)⟩
  · rintro ⟨g, present, holds⟩
    refine ⟨_, List.mem_map_of_mem present, fun _ inside => ?_⟩
    obtain ⟨c, member, rfl⟩ := List.mem_map.mp inside
    exact holds c member

theorem formula_some (present : cs ≠ []) : ∃ f, formula? cs = some f := by
  obtain ⟨c, member⟩ := List.exists_mem_of_ne_nil cs present
  have listed : c.groupId ∈ (cs.map (·.groupId)).eraseDups := List.mem_eraseDups.mpr (List.mem_map_of_mem member)
  have grouped : groups cs ≠ [] := List.ne_nil_of_mem (List.mem_map_of_mem listed)
  exact Formula.ofGroups_some (mt List.map_eq_nil_iff.mp grouped) (members_filled cs)

-- Grouped conditions mean an alternative of conjunctions and nothing else:
-- neither the order of the conditions nor the numbers of their groups matter,
-- and the trace and the tree say the same.
theorem evaluate_readings (ctx : Context) (cs : List Condition) :
    (∀ verdict, evaluate ctx cs = .ok verdict → (verdict = true ↔ cs = [] ∨ SomeGroupHolds ctx cs)) ∧
    ((∀ c ∈ cs, c.IsNamed) → ∃ verdict, evaluate ctx cs = .ok verdict ∧
      (∀ ds, cs.Perm ds → evaluate ctx ds = .ok verdict) ∧
      (∀ rename : Nat → Nat,
        (∀ c ∈ cs, ∀ d ∈ cs, rename c.groupId = rename d.groupId → c.groupId = d.groupId) →
        evaluate ctx (cs.map (regroup rename)) = .ok verdict) ∧
      (∃ findings, trace ctx cs = .ok findings ∧ findings.map (·.condition) = cs ∧
        (verdict = true ↔ findings = [] ∨ ∃ f ∈ findings, ∀ g ∈ findings,
          g.condition.groupId = f.condition.groupId → g.passed = true)) ∧
      (cs ≠ [] → ∃ f, formula? cs = some f ∧ (verdict = true ↔ f.Holds (Comparison.Holds ctx)))) := by
  refine ⟨fun verdict => evaluate_verdict, fun named => ?_⟩
  have checkable : Checkable ctx cs := checkable_named named
  obtain ⟨verdict, decided, meaning⟩ := evaluate_exact checkable
  refine ⟨verdict, decided, fun ds perm => ?_, fun rename apart => ?_, ?_, fun present => ?_⟩
  · refine evaluate_congr (checkable_perm perm checkable) decided ?_
    rw [someGroupHolds_perm perm, ← List.length_eq_zero_iff, ← perm.length_eq, List.length_eq_zero_iff]
  · refine evaluate_congr (checkable_regroup rename checkable) decided ?_
    rw [someGroupHolds_regroup apart, List.map_eq_nil_iff]
  · obtain ⟨findings, traced, conditions, flags⟩ := trace_answers checkable
    refine ⟨findings, traced, conditions, ?_⟩
    rw [meaning, trace_groups conditions flags, ← conditions, List.map_eq_nil_iff]
  · obtain ⟨f, built⟩ := formula_some present
    refine ⟨f, built, ?_⟩
    rw [meaning, formula_holds built]
    exact or_iff_right present

def asked (groupId : Nat) (field operator : String) : Condition := ⟨⟨.text field, .text operator, ""⟩, groupId⟩

theorem evaluate_readings_mixed :
    let cs := [asked 7 "is_dead" "EXISTS", asked 3 "preferred_model" "EXISTS", asked 7 "nickname" "EXISTS"]
    let ctx : Context := ⟨"u", 0, 0, 0, ⟨0, 0⟩, false, false, true, .finite false 0, [], none, none, .text "sdxl",
      none, none, none, []⟩
    (∀ c ∈ cs, c.IsNamed) ∧ SomeGroupHolds ctx cs ∧ evaluate ctx cs = .ok true ∧
      evaluate ctx (cs.map (regroup (100 - ·))) = .ok true ∧ evaluate ctx cs.reverse = .ok true ∧
      ∃ f, formula? cs = some f ∧ f.Holds (Comparison.Holds ctx) := by
  intro cs ctx
  have named : ∀ c ∈ cs, c.IsNamed := by simp [cs, asked, Comparison.IsNamed, Json.isKey]
  have decided : evaluate ctx cs = .ok true := by rfl
  obtain ⟨meaning, readings⟩ := evaluate_readings ctx cs
  obtain ⟨verdict, same, arranged, renamed, _, tree⟩ := readings named
  cases decided.symm.trans same
  obtain ⟨f, built, holds⟩ := tree (by decide)
  refine ⟨named, ((meaning true decided).mp rfl).resolve_left (by decide), decided, renamed _ (by decide),
    arranged _ cs.reverse_perm.symm, f, built, holds.mp rfl⟩

end Condition
end Lifecycle
