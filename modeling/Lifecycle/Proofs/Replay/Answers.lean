import Lifecycle.Proofs.Replay.Batch
import Mathlib.Data.List.Perm.Subperm

namespace Lifecycle

theorem takeBound_take {α : Type} (bound : Option Int) (xs : List α) : ∃ count, takeBound bound xs = xs.take count := by
  unfold takeBound
  cases bound with
  | none => exact ⟨xs.length, List.take_length.symm⟩
  | some n =>
    by_cases counted : 0 ≤ n
    · exact ⟨n.toNat, if_pos counted⟩
    · exact ⟨xs.length - n.natAbs, if_neg counted⟩

theorem takeBound_nat {α : Type} (n : Nat) (xs : List α) : takeBound (some (n : Int)) xs = xs.take n := by
  rw [takeBound, if_pos (Int.natCast_nonneg n), Int.toNat_natCast]

theorem Store.newest_perm (s : Store) : ((s.users.mergeSort isNewer).map (·.id)).Perm (s.users.map (·.id)) :=
  (List.mergeSort_perm s.users isNewer).map fun u => u.id

namespace Engine

variable {e : Engine} {s : Store} {turns : List Turn}

def limitInForce (e : Engine) (limit : Json) : Json :=
  if limit.kind = .null then e.config.immersionBatchLimit else limit

theorem batch_parts (listed : e.batch s limit = .ok users) :
    ∃ bound, (e.limitInForce limit).toBound? = .ok bound ∧
      users = takeBound bound ((s.users.mergeSort Store.isNewer).map (·.id)) := by
  unfold batch at listed
  cases reached : e.reach .userIds with
  | error f => simp [reached] at listed
  | ok _ =>
    simp only [reached, Store.userIds] at listed
    obtain ⟨bound, read, taken⟩ := bind_ok.mp listed
    cases taken
    exact ⟨bound, read, rfl⟩

theorem batch_subperm (listed : e.batch s limit = .ok users) : users.Subperm (s.users.map (·.id)) := by
  obtain ⟨bound, _, rfl⟩ := batch_parts listed
  obtain ⟨count, taken⟩ := takeBound_take bound ((s.users.mergeSort Store.isNewer).map (·.id))
  rw [taken]
  exact (List.take_sublist _ _).subperm.trans s.newest_perm.subperm

theorem batch_nodup (keyed : s.Keyed) (listed : e.batch s limit = .ok users) : users.Nodup := by
  obtain ⟨front, perm, kept⟩ := batch_subperm listed
  exact perm.nodup_iff.mp (kept.nodup keyed.users)

theorem batch_known (listed : e.batch s limit = .ok users) (member : user ∈ users) :
    ∃ facts, s.user? user = some facts := by
  obtain ⟨facts, held, same⟩ := List.mem_map.mp ((batch_subperm listed).subset member)
  apply Option.isSome_iff_exists.mp
  unfold Store.user?
  rw [List.find?_isSome]
  exact ⟨facts, held, decide_eq_true same⟩

theorem batch_bounded {n : Nat} (bounded : (e.limitInForce limit).toBound? = .ok (some (n : Int)))
    (listed : e.batch s limit = .ok users) : users = ((s.users.mergeSort Store.isNewer).map (·.id)).take n := by
  obtain ⟨bound, read, rfl⟩ := batch_parts listed
  cases bounded.symm.trans read
  exact takeBound_nat n _

theorem batch_length {n : Nat} (bounded : (e.limitInForce limit).toBound? = .ok (some (n : Int)))
    (listed : e.batch s limit = .ok users) : users.length = min s.users.length n := by
  rw [batch_bounded bounded listed, List.length_take, List.length_map, List.length_mergeSort, Nat.min_comm]

theorem batch_everyone {n : Nat} (bounded : (e.limitInForce limit).toBound? = .ok (some (n : Int)))
    (enough : s.users.length ≤ n) (listed : e.batch s limit = .ok users) : users.Perm (s.users.map (·.id)) := by
  have whole : ((s.users.mergeSort Store.isNewer).map (·.id)).length ≤ n := by
    rwa [List.length_map, List.length_mergeSort]
  rw [batch_bounded bounded listed, List.take_of_length_le whole]
  exact s.newest_perm

theorem infer_absent (inferred : e.infer s user version = .ok none) :
    s.user? user = none ∨ s.initialStage? version = none := by
  unfold infer at inferred
  obtain ⟨_, _, inferred⟩ := bind_ok.mp inferred
  split at inferred
  · exact .inl ‹_›
  · obtain ⟨_, _, inferred⟩ := bind_ok.mp inferred
    split at inferred
    · exact .inr ‹_›
    · obtain ⟨_, _, inferred⟩ := bind_ok.mp inferred
      obtain ⟨_, _, inferred⟩ := bind_ok.mp inferred
      cases inferred

theorem immerse_absent (returned : (e.immerse user version s).1 = .ok none) : e.infer s user version = .ok none := by
  unfold immerse at returned
  cases inferred : e.infer s user version with
  | error f => simp [inferred] at returned
  | ok r? =>
    cases r? with
    | none => rfl
    | some r => cases reached : e.reach .assign <;> simp [inferred, reached] at returned

theorem immerse_none (known : s.user? user = some facts) (returned : (e.immerse user version s).1 = .ok r?) :
    r? = none ↔ s.initialStage? version = none := by
  constructor
  · rintro rfl
    apply (infer_absent (immerse_absent returned)).resolve_left
    rw [known]
    exact nofun
  · intro absent
    cases r? with
    | none => rfl
    | some r =>
      obtain ⟨_, _, _, _, _, _, _, found, _⟩ := infer_parts (immerse_returned returned).1
      rw [absent] at found
      cases found

theorem records_users (s : Store) (version : Int) (turns : List Turn) :
    ((turns.filterMap (Turn.recordOf s version)).map (·.userId)).Sublist (turns.map (·.user)) := by
  induction turns with
  | nil => exact .slnil
  | cons turn rest ih =>
    cases record : turn.recordOf s version with
    | none =>
      rw [List.filterMap_cons_none record]
      exact ih.cons turn.user
    | some a =>
      rw [List.filterMap_cons_some record, List.map_cons, recordOf_user record]
      exact ih.cons_cons turn.user

theorem records_others {t : Store} (unlisted : user ∉ turns.map (·.user)) :
    (t.setAssignments (turns.filterMap (Turn.recordOf s version))).assignment? user = t.assignment? user := by
  apply Store.setAssignments_uncovered
  rintro a listed rfl
  exact unlisted ((records_users s version turns).subset (List.mem_map_of_mem listed))

-- What the users of a batch are answered, each as if it came alone at its turn.
def Answers (s : Store) (version : Int) : List Turn → List (Option Inference) → Prop :=
  List.Forall₂ fun turn r? => (turn.engine.immerse turn.user version s).1 = .ok r?

theorem answers_setAssignments {records : List Assignment} :
    Answers (s.setAssignments records) version turns answers ↔ Answers s version turns answers := by
  simp only [Answers, immerse_setAssignments]

theorem answers_each (answered : Answers s version turns answers) (member : turn ∈ turns) :
    ∃ r?, (turn.engine.immerse turn.user version s).1 = .ok r? := by
  induction answered with
  | nil => cases member
  | cons first _ ih =>
    rcases List.mem_cons.mp member with rfl | later
    · exact ⟨_, first⟩
    · exact ih later

theorem immerseEach_answers (ended : immerseEach version turns total s = (.ok done, after)) :
    ∃ answers, Answers s version turns answers ∧ answers.foldlM Summary.count total = .ok done := by
  induction turns generalizing total s with
  | nil =>
    cases ended
    exact ⟨[], .nil, rfl⟩
  | cons turn rest ih =>
    rw [immerseEach, immerse_writes] at ended
    cases answered : (turn.engine.immerse turn.user version s).1 with
    | error f => simp [answered] at ended
    | ok r? =>
      simp only [answered] at ended
      cases counted : Summary.count total r? with
      | error f => simp [counted] at ended
      | ok next =>
        simp only [counted] at ended
        obtain ⟨answers, later, summed⟩ := ih ended
        refine ⟨r? :: answers, .cons answered (answers_setAssignments.mp later), ?_⟩
        rw [List.foldlM_cons, counted]
        exact summed

theorem immerseAll_answers (returned : e.immerseAll choice limit s = (.ok total, after)) :
    e.resolveVersion s choice = .ok total.versionId ∧ ∃ users answers seen,
      e.batch s limit = .ok users ∧ Answers s total.versionId (e.turns users) answers ∧
      answers.foldlM Summary.count ⟨total.versionId, 0, 0, []⟩ = .ok { total with byStage := seen } ∧
      seen.inOrder = .ok total.byStage ∧
      after = s.setAssignments ((e.turns users).filterMap (Turn.recordOf s total.versionId)) := by
  obtain ⟨resolved, users, listed, put⟩ := immerseAll_records returned
  refine ⟨resolved, users, ?_⟩
  simp only [immerseAll, resolved, listed] at returned
  cases batched : immerseEach total.versionId (e.turns users) ⟨total.versionId, 0, 0, []⟩ s with
  | mk result final =>
    cases result with
    | error f => simp [batched] at returned
    | ok done =>
      simp only [batched] at returned
      cases sorted : done.byStage.inOrder with
      | error f => simp [sorted] at returned
      | ok byStage =>
        simp only [sorted] at returned
        obtain ⟨answers, answered, summed⟩ := immerseEach_answers batched
        cases returned
        exact ⟨answers, done.byStage, listed, answered, summed, sorted, put⟩

theorem oneWay_immersedAll (stored : List Assignment) :
    standard.immerseAll (some 1) .null ((oneWay "ab" "b").withAssignments stored) =
      (.ok ⟨1, 1, 0, [(wayOut, 1)]⟩, (oneWay "ab" "b").withAssignments (Store.assign ⟨"u", "b", 1, ⟨0, 0⟩⟩ stored)) := by
  have listed : standard.batch ((oneWay "ab" "b").withAssignments stored) .null = .ok ["u"] := walker_batch rfl
  simp only [immerseAll, resolveVersion, listed, turns_single, immerseEach]
  rw [immerse_writes, recordOf, immerse_withAssignments, oneWay_immersed]
  rfl

end Engine
end Lifecycle
