import Lifecycle.Proofs.Replay.Batch
import Lifecycle.Proofs.Replay.Depth

namespace Lifecycle

theorem Store.mem_transitionsFrom {s : Store} (member : t ∈ s.transitionsFrom stage version) :
    t ∈ s.transitions ∧ t.source = stage ∧ t.versionId = version := by
  have kept := (List.mergeSort_perm _ _).mem_iff.mp member
  simpa using kept

-- A transition of the version that ends in another one. The stage it leads to is
-- looked up by its id alone, so a replay follows such a transition like any other.
def Store.LeadsOut (s : Store) (version : Int) (t : Transition) (target : Stage) : Prop :=
  t ∈ s.transitions ∧ t.versionId = version ∧ s.stage? t.target = some target ∧ target.versionId ≠ version

namespace Engine

variable {e : Engine} {s : Store}

theorem next_version (went : e.next? s version context blocked stage = .ok (some target)) :
    target.versionId = version ∨ ∃ t, s.LeadsOut version t target := by
  obtain ⟨t, candidate, found⟩ := next_taken went
  obtain ⟨member, _, own⟩ := Store.mem_transitionsFrom candidate
  by_cases inside : target.versionId = version
  · exact .inl inside
  · exact .inr ⟨t, member, own, found, inside⟩

theorem infer_version (inferred : e.infer s user version = .ok (some r)) :
    ∀ stage ∈ r.initial :: r.visited,
      stage ∈ s.stages ∧ (stage.versionId = version ∨ ∃ t, s.LeadsOut version t stage) := by
  obtain ⟨_, _, _, _, facts, context, _, found, _, walked⟩ := infer_parts inferred
  obtain ⟨last, run, _, _⟩ := walk_exact.mp walked
  have begun := List.find?_some found
  simp only [Bool.and_eq_true, decide_eq_true_eq] at begun
  have moves : ∀ stage target, Goes (e.next? s version context facts.isBlocked) stage target →
      target ∈ s.stages ∧ (target.versionId = version ∨ ∃ t, s.LeadsOut version t target) := by
    intro stage target moved
    exact ⟨next_within moved.2, next_version moved.2⟩
  intro stage member
  rcases List.mem_cons.mp member with rfl | later
  · exact ⟨List.mem_of_find?_eq_some found, .inl begun.1⟩
  · exact run.visited_each moves stage later

theorem final_visited (r : Inference) : r.final ∈ r.initial :: r.visited := by
  unfold Inference.final
  cases ended : r.visited.getLast? with
  | none => exact List.mem_cons_self
  | some last => exact List.mem_cons_of_mem _ (List.mem_of_getLast? ended)

theorem immerse_isolated (keyed : s.Keyed) (returned : (e.immerse user version s).1 = .ok (some r)) :
    (e.immerse user version s).2.assignment? user = some ⟨user, r.final.id, version, e.now⟩ ∧
    s.stage? r.final.id = some r.final ∧
    (∀ stage ∈ r.initial :: r.visited, stage.versionId = version ∨ ∃ t, s.LeadsOut version t stage) ∧
    ((∀ t target, ¬ s.LeadsOut version t target) →
      r.final.versionId = version ∧ ∀ stage ∈ r.initial :: r.visited, stage.versionId = version) := by
  obtain ⟨inferred, _⟩ := immerse_returned returned
  have passed := infer_version inferred
  have inside : (∀ t target, ¬ s.LeadsOut version t target) →
      ∀ stage ∈ r.initial :: r.visited, stage.versionId = version := by
    intro closed stage member
    apply (passed stage member).2.resolve_right
    rintro ⟨t, out⟩
    exact closed t stage out
  refine ⟨?_, ?_, fun stage member => (passed stage member).2, ?_⟩
  · obtain ⟨_, _, rfl, rfl, _⟩ := infer_parts inferred
    rw [immerse_writes, recordOf, returned]
    exact Store.assign_found.trans (if_pos rfl)
  · exact (find_keyed keyed.stages).mpr ⟨(passed _ (final_visited r)).1, rfl⟩
  · intro closed
    exact ⟨inside closed _ (final_visited r), inside closed⟩

def wayAbroad : Stage := { wayOut with versionId := 2 }

theorem oneWay_closed : ∀ t target, ¬ (oneWay "ab" "b").LeadsOut 1 t target := by
  rintro t target ⟨_, _, found, elsewhere⟩
  have listed : target ∈ [wayIn, wayOut] := List.mem_of_find?_eq_some found
  simp only [List.mem_cons, List.not_mem_nil, or_false] at listed
  rcases listed with rfl | rfl
  · exact elsewhere rfl
  · exact elsewhere rfl

theorem immerse_isolated_one_way : (oneWay "ab" "b").Keyed ∧
    (standard.immerse "u" 1 (oneWay "ab" "b")).1 = .ok (some ⟨"u", 1, wayIn, [wayOut], .terminal⟩) ∧
    (∀ t target, ¬ (oneWay "ab" "b").LeadsOut 1 t target) ∧
    ∀ stage ∈ [wayIn, wayOut], stage.versionId = 1 :=
  ⟨oneWay_keyed, oneWay_immersed, oneWay_closed,
    ((immerse_isolated oneWay_keyed oneWay_immersed).2.2.2 oneWay_closed).2⟩

theorem immerse_isolated_abroad :
    (standard.immerse "u" 1 { oneWay "ab" "b" with stages := [wayIn, wayAbroad] }).1 =
      .ok (some ⟨"u", 1, wayIn, [wayAbroad], .terminal⟩) ∧
    (standard.immerse "u" 1 { oneWay "ab" "b" with stages := [wayIn, wayAbroad] }).2.assignments =
      [⟨"u", "b", 1, ⟨0, 0⟩⟩] ∧
    wayAbroad.id = "b" ∧ wayAbroad.versionId ≠ 1 := by
  have named : Transition.idNumber? "ab" = none := by decide
  have returned : (standard.immerse "u" 1 { oneWay "ab" "b" with stages := [wayIn, wayAbroad] }).1 =
      .ok (some ⟨"u", 1, wayIn, [wayAbroad], .terminal⟩) := by
    refine (immerse_some rfl rfl).mpr ⟨rfl, rfl, _, ⟨walker, _, rfl, rfl, rfl, rfl⟩, ?_⟩
    refine ⟨.cons ⟨rfl, _, oneWay_picks named, rfl⟩ .nil, rfl, rfl, by decide, ?_, ?_, ?_, ?_⟩
    all_goals simp [Inference.final, Inference.steps, wayAbroad, wayOut]
  refine ⟨returned, ?_, rfl, by decide⟩
  rw [immerse_writes, recordOf, returned]
  rfl

end Engine
end Lifecycle
