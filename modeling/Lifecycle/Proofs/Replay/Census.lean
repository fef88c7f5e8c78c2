import Lifecycle.Proofs.Replay.Answers
import Lifecycle.Proofs.Replay.Isolation
import Lifecycle.Proofs.Tally

open scoped List

namespace Lifecycle
namespace Store

variable {s : Store} {all records : List Assignment} {p : Assignment → Bool}

theorem assign_filter (holds : p a = true) (new : ∀ b ∈ all, p b = true → b.userId ≠ a.userId) :
    ((assign a all).filter p).Perm (a :: all.filter p) := by
  induction all with
  | nil =>
    rw [assign, List.filter_cons_of_pos holds]
  | cons b rest ih =>
    have later := ih fun c member => new c (List.mem_cons_of_mem _ member)
    by_cases before : a.userId < b.userId
    · rw [assign, if_pos before, List.filter_cons_of_pos holds]
    · by_cases same : a.userId = b.userId
      · have other : ¬ p b = true := fun its => new b List.mem_cons_self its same.symm
        rw [assign, if_neg before, if_pos same, List.filter_cons_of_pos holds, List.filter_cons_of_neg other]
      · rw [assign, if_neg before, if_neg same]
        by_cases its : p b = true
        · rw [List.filter_cons_of_pos its, List.filter_cons_of_pos its]
          exact (later.cons b).trans (List.Perm.swap a b _)
        · rw [List.filter_cons_of_neg its, List.filter_cons_of_neg its]
          exact later

theorem setAssignments_filter (holds : ∀ a ∈ records, p a = true) (distinct : (records.map (·.userId)).Nodup)
    (new : ∀ b ∈ s.assignments, p b = true → b.userId ∉ records.map (·.userId)) :
    ((s.setAssignments records).assignments.filter p).Perm (records ++ s.assignments.filter p) := by
  induction records generalizing s with
  | nil => exact .refl _
  | cons a rest ih =>
    obtain ⟨single, later⟩ := List.nodup_cons.mp distinct
    have put : ((s.setAssignment a).assignments.filter p).Perm (a :: s.assignments.filter p) := by
      apply assign_filter (holds a List.mem_cons_self)
      intro b member its same
      exact new b member its (same ▸ List.mem_cons_self)
    have more : ((s.setAssignment a).setAssignments rest).assignments.filter p ~
        rest ++ (s.setAssignment a).assignments.filter p := by
      apply ih (fun b member => holds b (List.mem_cons_of_mem _ member)) later
      intro b member its
      rcases mem_assign member with rfl | held
      · exact single
      · exact fun again => new b held its (List.mem_cons_of_mem _ again)
    calc
      ((s.setAssignment a).setAssignments rest).assignments.filter p
      _ ~ rest ++ (s.setAssignment a).assignments.filter p := more
      _ ~ rest ++ a :: s.assignments.filter p := put.append_left rest
      _ ~ a :: rest ++ s.assignments.filter p := List.perm_middle

end Store

namespace Engine

variable {e : Engine} {s : Store} {turns : List Turn}

def arrivals (answers : List (Option Inference)) : List Inference := answers.filterMap id

theorem count_each (ended : answers.foldlM Summary.count total = .ok done) :
    done.processed = total.processed + (arrivals answers).length ∧
    done.skipped + (arrivals answers).length = total.skipped + answers.length ∧
    done.byStage = total.byStage.countEach ((arrivals answers).map (·.final)) ∧
    ∀ r ∈ arrivals answers, r.final.name.isKey = true := by
  induction answers generalizing total with
  | nil =>
    cases ended
    exact ⟨rfl, rfl, rfl, nofun⟩
  | cons r? rest ih =>
    rw [List.foldlM_cons] at ended
    obtain ⟨next, counted, ended⟩ := bind_ok.mp ended
    obtain ⟨processed, skipped, byStage, settled⟩ := ih ended
    cases r? with
    | none =>
      cases counted
      have left : done.skipped + (arrivals rest).length = total.skipped + 1 + rest.length := skipped
      refine ⟨processed, ?_, byStage, settled⟩
      change done.skipped + (arrivals rest).length = total.skipped + (rest.length + 1)
      omega
    | some r =>
      simp only [Summary.count, Tally.add] at counted
      by_cases named : r.final.name.isKey = true
      · rw [if_pos named] at counted
        cases counted
        have more : done.processed = total.processed + 1 + (arrivals rest).length := processed
        have left : done.skipped + (arrivals rest).length = total.skipped + rest.length := skipped
        refine ⟨?_, ?_, byStage, List.forall_mem_cons.mpr ⟨named, settled⟩⟩
        · change done.processed = total.processed + ((arrivals rest).length + 1)
          omega
        · change done.skipped + ((arrivals rest).length + 1) = total.skipped + (rest.length + 1)
          omega
      · rw [if_neg named] at counted
        cases counted

theorem answers_inferred (answered : Answers s version turns answers) (member : r ∈ arrivals answers) :
    ∃ turn : Turn, turn.engine.infer s turn.user version = .ok (some r) := by
  induction answered with
  | nil => cases member
  | @cons turn r? _ _ first _ ih =>
    cases r? with
    | none => exact ih member
    | some found =>
      rcases List.mem_cons.mp member with rfl | later
      · exact ⟨turn, (immerse_returned first).1⟩
      · exact ih later

theorem answers_arrivals (known : ∀ turn ∈ turns, ∃ facts, s.user? turn.user = some facts)
    (answered : Answers s version turns answers) :
    (arrivals answers).length = if s.initialStage? version = none then 0 else turns.length := by
  induction answered with
  | nil => split <;> rfl
  | @cons turn r? _ _ first _ ih =>
    obtain ⟨facts, found⟩ := known turn List.mem_cons_self
    have later := ih fun turn member => known turn (List.mem_cons_of_mem _ member)
    have begins := immerse_none found first
    cases r? with
    | none =>
      have nowhere := begins.mp rfl
      rw [if_pos nowhere] at later ⊢
      exact later
    | some r =>
      have somewhere : ¬ s.initialStage? version = none := fun nowhere => nomatch begins.mpr nowhere
      rw [if_neg somewhere] at later ⊢
      exact congrArg (· + 1) later

theorem arrivals_within (closed : ∀ t target, ¬ s.LeadsOut version t target)
    (answered : Answers s version turns answers) :
    ∀ g ∈ (arrivals answers).map (·.final), g ∈ s.stages ∧ g.versionId = version := by
  intro g member
  obtain ⟨r, arrived, rfl⟩ := List.mem_map.mp member
  obtain ⟨_, inferred⟩ := answers_inferred answered arrived
  obtain ⟨listed, own | ⟨t, out⟩⟩ := infer_version inferred _ (final_visited r)
  · exact ⟨listed, own⟩
  · exact absurd out (closed t _)

theorem recordOf_version (record : e.recordOf s version user = some a) : a.versionId = version := by
  obtain ⟨r, inferred, rfl⟩ := recordOf_some record
  exact (infer_parts inferred).2.2.2.1

theorem answers_stages (answered : Answers s version turns answers) :
    (turns.filterMap (Turn.recordOf s version)).map (·.stageId) = ((arrivals answers).map (·.final)).map (·.id) := by
  induction answered with
  | nil => rfl
  | @cons turn r? _ _ first _ ih =>
    have record : turn.recordOf s version = turn.engine.written (.ok r?) := by rw [Turn.recordOf, recordOf, first]
    cases r? with
    | none =>
      rw [List.filterMap_cons_none record, ih]
      rfl
    | some r =>
      rw [List.filterMap_cons_some record, List.map_cons, ih]
      rfl

theorem batch_stands (distinct : (turns.map (·.user)).Nodup) (answered : Answers s version turns answers)
    (fresh : s.assignmentsOf (some version) = []) :
    (((s.setAssignments (turns.filterMap (Turn.recordOf s version))).assignmentsOf (some version)).map (·.stageId)).Perm
      (((arrivals answers).map (·.final)).map (·.id)) := by
  have own : ∀ a ∈ turns.filterMap (Turn.recordOf s version), decide (a.versionId = version) = true := by
    intro a member
    obtain ⟨turn, _, record⟩ := List.mem_filterMap.mp member
    exact decide_eq_true (recordOf_version record)
  have apart := (records_users s version turns).nodup distinct
  have none : ∀ a ∈ s.assignments, ¬ decide (a.versionId = version) = true := List.filter_eq_nil_iff.mp fresh
  have put := Store.setAssignments_filter own apart fun b member its => absurd its (none b member)
  have empty : s.assignments.filter (fun a => a.versionId = version) = [] := fresh
  rw [empty, List.append_nil] at put
  rw [← answers_stages answered]
  exact put.map (·.stageId)

theorem immerseAll_arrivals (keyed : s.Keyed) (returned : e.immerseAll choice limit s = (.ok total, after))
    (fresh : s.assignmentsOf (some total.versionId) = []) :
    ∃ users answers, e.batch s limit = .ok users ∧ Answers s total.versionId (e.turns users) answers ∧
      total.processed = (arrivals answers).length ∧ total.processed + total.skipped = users.length ∧
      (Tally.countEach [] ((arrivals answers).map (·.final))).Perm total.byStage ∧
      (∀ r ∈ arrivals answers, r.final.name.isKey = true) ∧ after.stages = s.stages ∧
      ((after.assignmentsOf (some total.versionId)).map (·.stageId)).Perm
        (((arrivals answers).map (·.final)).map (·.id)) := by
  obtain ⟨_, users, answers, seen, listed, answered, summed, sorted, put⟩ := immerseAll_answers returned
  obtain ⟨processed, skipped, counted, settled⟩ := count_each summed
  have lengths : users.length = answers.length := (turns_length e users).symm.trans answered.length_eq
  have perm : seen.Perm total.byStage := Tally.inOrder_perm sorted
  change seen = Tally.countEach [] ((arrivals answers).map (·.final)) at counted
  change total.processed = 0 + (arrivals answers).length at processed
  change total.skipped + (arrivals answers).length = 0 + answers.length at skipped
  refine ⟨users, answers, listed, answered, by omega, by omega, counted ▸ perm, settled, ?_, ?_⟩
  · rw [put, Store.setAssignments_frame]
    rfl
  · rw [put]
    apply batch_stands _ answered fresh
    rw [turns_users]
    exact batch_nodup keyed listed

theorem immerseAll_census (keyed : s.Keyed) (returned : e.immerseAll choice limit s = (.ok total, after))
    (fresh : s.assignmentsOf (some total.versionId) = [])
    (closed : ∀ t target, ¬ s.LeadsOut total.versionId t target) :
    (∃ users, e.batch s limit = .ok users ∧ total.processed + total.skipped = users.length ∧
      (∀ n : Nat, (e.limitInForce limit).toBound? = .ok (some (n : Int)) → users.length = min s.users.length n) ∧
      total.skipped = if s.initialStage? total.versionId = none then users.length else 0) ∧
    total.byStage.total = total.processed ∧
    (∀ entry ∈ total.byStage, entry.1 ∈ s.stagesOf total.versionId) ∧
    (after.distribution total.versionId).total = total.processed ∧
    ∀ g ∈ s.stages, (((after.distribution total.versionId).counts.filter fun c => Tally.sharesName c.1 g).map (·.2)).sum =
      total.byStage.count g := by
  obtain ⟨users, answers, listed, answered, processed, both, perm, settled, stages, stand⟩ :=
    immerseAll_arrivals keyed returned fresh
  have arrived := answers_arrivals (fun turn member => batch_known listed (turns_user member)) answered
  rw [turns_length] at arrived
  have within := arrivals_within closed answered
  have named : ∀ g ∈ (arrivals answers).map (·.final), g ∈ s.stages ∧ g.name.isKey = true := by
    intro g member
    obtain ⟨r, among, rfl⟩ := List.mem_map.mp member
    exact ⟨(within _ member).1, settled r among⟩
  have own : ∀ g ∈ (arrivals answers).map (·.final), g ∈ after.stagesOf total.versionId := by
    intro g member
    obtain ⟨placed, its⟩ := within g member
    exact List.mem_filter.mpr ⟨stages ▸ placed, decide_eq_true its⟩
  have sound := Tally.Sound.nil.countEach keyed.stages named
  have census := Distribution.distribution_sum (stages ▸ keyed.stages) stand own
  refine ⟨⟨users, listed, both, fun n bounded => batch_length bounded listed, ?_⟩, ?_, ?_, ?_, ?_⟩
  · split
    · rename_i nowhere
      rw [if_pos nowhere] at arrived
      omega
    · rename_i somewhere
      rw [if_neg somewhere] at arrived
      omega
  · rw [Tally.total_perm perm, Tally.total_countEach, List.length_map, processed]
    exact Nat.zero_add _
  · intro entry member
    have seen := (Tally.mem_countEach (perm.mem_iff.mpr member)).resolve_right nofun
    exact List.mem_filter.mpr ⟨(within _ seen).1, decide_eq_true (within _ seen).2⟩
  · have everyone := census fun _ => true
    rw [List.filter_true, List.countP_true, List.length_map] at everyone
    rw [Distribution.total_counts, everyone, processed]
  · intro g member
    rw [census (Tally.sharesName · g), Tally.count_perm keyed.stages sound perm member,
      Tally.count_countEach keyed.stages named .nil member]
    exact (Nat.zero_add _).symm

theorem immerseAll_census_one_way :
    (∃ total after, standard.immerseAll (some 1) .null (oneWay "ab" "b") = (.ok total, after) ∧
      total.processed = 1 ∧ total.byStage.total = 1 ∧ total.byStage.count wayOut = 1 ∧
      (after.distribution 1).total = 1 ∧
      (((after.distribution 1).counts.filter fun c => Tally.sharesName c.1 wayOut).map (·.2)).sum = 1) ∧
    (oneWay "ab" "b").Keyed ∧ (oneWay "ab" "b").assignmentsOf (some 1) = [] ∧
    ∀ t target, ¬ (oneWay "ab" "b").LeadsOut 1 t target := by
  have returned := oneWay_immersedAll []
  obtain ⟨_, counted, _, stand, same⟩ := immerseAll_census oneWay_keyed returned rfl oneWay_closed
  refine ⟨⟨_, _, returned, rfl, counted, rfl, stand, ?_⟩, oneWay_keyed, rfl, oneWay_closed⟩
  exact same wayOut (List.mem_cons_of_mem _ List.mem_cons_self)

end Engine
end Lifecycle
