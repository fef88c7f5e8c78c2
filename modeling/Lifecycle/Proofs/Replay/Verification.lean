import Lifecycle.Proofs.Replay.Answers
import Lifecycle.Proofs.Replay.Arrival

namespace Lifecycle

theorem Store.setAssignments_ext {s : Store} (all : List Assignment)
    (same : ((s.withAssignments all).setAssignments records).assignments = (s.setAssignments others).assignments) :
    (s.withAssignments all).setAssignments records = s.setAssignments others := by
  rw [setAssignments_frame, setAssignments_frame s, same]
  rfl

theorem Fingerprint.ofAssignments_ordered (ordered : all.Pairwise (·.userId < ·.userId)) :
    ofAssignments all = hex (Digest.sha256 (Json.list (all.map row)).compact.toUTF8) := by
  have sorted : all.Pairwise fun a b => decide (a.userId ≤ b.userId) = true := by
    apply ordered.imp
    intro a b before
    exact decide_eq_true (String.not_lt.mp (String.lt_asymm before))
  rw [ofAssignments, canonical, List.mergeSort_of_pairwise sorted]

namespace Engine

variable {e : Engine} {s : Store} {turns : List Turn}

theorem verify_parts (verified : (e.verify expected choice limit s).1 = .ok (matched, actual)) :
    ∃ total after, e.immerseAll choice limit s = (.ok total, after) ∧
      actual = Fingerprint.ofAssignments (after.assignmentsOf (some total.versionId)) ∧
      matched = decide (actual = expected) := by
  unfold verify at verified
  cases batched : e.immerseAll choice limit s with
  | mk result after =>
    cases result with
    | error f => simp [batched] at verified
    | ok total =>
      simp only [batched, Except.ok.injEq, Prod.mk.injEq] at verified
      obtain ⟨compared, rfl⟩ := verified
      exact ⟨total, after, rfl, rfl, compared.symm⟩

theorem verify_immersed (expected : String) (batched : e.immerseAll choice limit s = (.ok total, after)) :
    (e.verify expected choice limit s).1 =
      .ok (Fingerprint.ofAssignments (after.assignmentsOf (some total.versionId)) = expected,
        Fingerprint.ofAssignments (after.assignmentsOf (some total.versionId))) := by
  rw [verify, batched]

theorem listed_record (listed : e.batch s limit = .ok users) (answered : Answers s version (e.turns users) answers)
    (begun : s.initialStage? version ≠ none) (member : turn ∈ e.turns users) :
    ∃ a, turn.recordOf s version = some a := by
  obtain ⟨facts, known⟩ := batch_known listed (turns_user member)
  obtain ⟨r?, returned⟩ := answers_each answered member
  cases r? with
  | none => exact absurd ((immerse_none known returned).mp rfl) begun
  | some r => exact ⟨turn.engine.assignmentFor r, by rw [Turn.recordOf, recordOf, returned]; rfl⟩

theorem immerseInTurn_answered (answered : ∀ turn ∈ turns, ∃ r?, (turn.engine.immerse turn.user version s).1 = .ok r?) :
    ∃ after, immerseInTurn version turns s = .ok after := by
  induction turns generalizing s with
  | nil => exact ⟨s, rfl⟩
  | cons turn rest ih =>
    obtain ⟨r?, returned⟩ := answered turn List.mem_cons_self
    rw [immerseInTurn, immerse_writes, returned]
    apply ih
    intro later member
    rw [immerse_setAssignments]
    exact answered later (List.mem_cons_of_mem _ member)

theorem immerseAll_relisted (keyed : s.Keyed) (returned : e.immerseAll choice limit s = (.ok total, after))
    (listed : e.batch s limit = .ok users) (begun : s.initialStage? total.versionId ≠ none)
    (ordered : all.Pairwise (·.userId < ·.userId))
    (agree : ∀ user, user ∉ users → Store.among all user = s.assignment? user) :
    e.immerseAll choice limit (s.withAssignments all) = (.ok total, after) := by
  obtain ⟨_, listing, answers, _, taken, answered, _, _, put⟩ := immerseAll_answers returned
  cases listed.symm.trans taken
  obtain ⟨result, records, runs, ends⟩ := immerseAll_frame e s choice limit
  have first : (.ok total, after) = (result, s.setAssignments records) := returned.symm.trans (runs s.assignments)
  obtain ⟨rfl, _⟩ := Prod.mk.inj first
  obtain ⟨_, listing, again, rfl⟩ := ends total rfl
  cases listed.symm.trans again
  have others : (s.withAssignments all).Keyed := ⟨keyed.versions, keyed.stages, keyed.users, ordered⟩
  rw [runs all, put]
  apply congrArg (Prod.mk _)
  apply Store.setAssignments_ext all
  apply Store.keyed_ext (Store.setAssignments_keyed others _) (Store.setAssignments_keyed keyed _)
  intro user
  by_cases called : user ∈ (e.turns users).map (·.user)
  · obtain ⟨turn, member, rfl⟩ := List.mem_map.mp called
    obtain ⟨a, record⟩ := listed_record listed answered begun member
    exact Store.setAssignments_covered ⟨a, List.mem_filterMap.mpr ⟨turn, member, record⟩, recordOf_user record⟩
  · rw [records_others called, records_others called]
    rw [turns_users] at called
    exact agree user called

theorem immerseAll_inTurn (keyed : s.Keyed) (pinned : e.Pinned)
    (returned : e.immerseAll choice limit s = (.ok total, after)) (listed : e.batch s limit = .ok users)
    (same : ∀ user, user ∈ called ↔ user ∈ users) :
    immerseInTurn total.versionId (e.turns called) s = .ok after := by
  obtain ⟨_, listing, answers, _, taken, answered, _, _, put⟩ := immerseAll_answers returned
  cases listed.symm.trans taken
  have alone : ∀ turn ∈ e.turns called, ∃ r?, (turn.engine.immerse turn.user total.versionId s).1 = .ok r? := by
    simp only [turns_pinned pinned, List.forall_mem_map] at answered ⊢
    intro user member
    exact answers_each answered (List.mem_map_of_mem ((same user).mp member))
  obtain ⟨final, inTurn⟩ := immerseInTurn_answered alone
  have own : ∀ user a, e.recordOf s total.versionId user = some a → a.userId = user := fun _ _ => recordOf_user
  rw [inTurn, immerseInTurn_writes inTurn, put, turns_records pinned, turns_records pinned]
  apply congrArg Except.ok
  apply Store.setAssignments_ext s.assignments
  apply Store.keyed_ext (Store.setAssignments_keyed keyed _) (Store.setAssignments_keyed keyed _)
  intro user
  rw [Store.setAssignments_found own, Store.setAssignments_found own]
  simp only [same user]

theorem verify_from_scratch (keyed : s.Keyed) (pinned : e.Pinned)
    (verified : (e.verify expected choice .null s).1 = .ok (matched, actual)) :
    ∃ version users, e.resolveVersion s choice = .ok version ∧ e.batch s .null = .ok users ∧
      (matched = true ↔ actual = expected) ∧
      (∀ called, (∀ user, user ∈ called ↔ user ∈ users) →
        ∃ after, immerseInTurn version (e.turns called) s = .ok after ∧
          actual = Fingerprint.ofAssignments (after.assignmentsOf (some version))) ∧
      (s.initialStage? version ≠ none → ∀ all, all.Pairwise (·.userId < ·.userId) →
        (∀ user, user ∉ users → (s.withAssignments all).assignment? user = s.assignment? user) →
        (e.verify expected choice .null (s.withAssignments all)).1 = .ok (matched, actual)) ∧
      ∀ n : Nat, e.config.immersionBatchLimit.toBound? = .ok (some (n : Int)) → s.users.length ≤ n →
        users.Perm (s.users.map (·.id)) := by
  obtain ⟨total, after, returned, rfl, rfl⟩ := verify_parts verified
  obtain ⟨resolved, users, _, _, listed, _⟩ := immerseAll_answers returned
  refine ⟨total.versionId, users, resolved, listed, decide_eq_true_iff, ?_, ?_, ?_⟩
  · intro called same
    exact ⟨after, immerseAll_inTurn keyed pinned returned listed same, rfl⟩
  · intro begun all ordered agree
    exact verify_immersed expected (immerseAll_relisted keyed returned listed begun ordered agree)
  · intro n bounded enough
    have inForce : e.limitInForce .null = e.config.immersionBatchLimit := rfl
    exact batch_everyone (inForce ▸ bounded) enough listed

theorem verify_from_scratch_one_way : (oneWay "ab" "b").Keyed ∧ standard.Pinned ∧ ∃ matched actual,
    (standard.verify "" (some 1) .null (oneWay "ab" "b")).1 = .ok (matched, actual) ∧
    (standard.verify "" (some 1) .null ((oneWay "ab" "b").withAssignments [⟨"u", "a", 2, ⟨7, 0⟩⟩])).1 =
      .ok (matched, actual) := by
  have verified := verify_immersed "" (oneWay_immersedAll [])
  obtain ⟨version, users, resolved, listed, _, _, again, _⟩ := verify_from_scratch oneWay_keyed standard_pinned verified
  cases resolved
  cases (walker_batch rfl).symm.trans listed
  refine ⟨oneWay_keyed, standard_pinned, _, _, verified, again nofun _ (List.pairwise_singleton _ _) ?_⟩
  intro user unlisted
  have other : user ≠ "u" := by simpa using unlisted
  simp [Store.withAssignments, Store.assignment?, oneWay, Ne.symm other]

theorem unbegun_verified (stored : List Assignment) :
    (standard.verify "" (some 2) .null ((oneWay "ab" "b").withAssignments stored)).1 =
      .ok (Fingerprint.ofAssignments (stored.filter (·.versionId = 2)) = "",
        Fingerprint.ofAssignments (stored.filter (·.versionId = 2))) := by
  have listed : standard.batch ((oneWay "ab" "b").withAssignments stored) .null = .ok ["u"] := walker_batch rfl
  have batched : standard.immerseAll (some 2) .null ((oneWay "ab" "b").withAssignments stored) =
      (.ok ⟨2, 0, 1, []⟩, (oneWay "ab" "b").withAssignments stored) := by
    simp only [immerseAll, resolveVersion, listed, turns_single, immerseEach]
    rfl
  have verified := verify_immersed "" batched
  exact verified

def oneByOne : Engine := { standard with config := { standard.config with immersionBatchLimit := .int 1 } }

theorem walkers_batch (all : s.users = walkers) : oneByOne.batch s .null = .ok ["v"] := by
  have newest : Store.isNewer walker { walker with id := "v" } = false := by decide
  simp [batch, reach, oneByOne, standard, pinned, Store.userIds, all, walkers, Json.toBound?, Json.kind, Config.standard,
    takeBound, newest, List.mergeSort, bind, Except.bind, pure, Except.pure]

theorem walkers_verified (stored : List Assignment) :
    (oneByOne.verify "" (some 1) .null ((twoWays [way "ab" "b"] walkers).withAssignments stored)).1 =
      .ok (Fingerprint.ofAssignments ((Store.assign ⟨"v", "b", 1, ⟨0, 0⟩⟩ stored).filter (·.versionId = 1)) = "",
        Fingerprint.ofAssignments ((Store.assign ⟨"v", "b", 1, ⟨0, 0⟩⟩ stored).filter (·.versionId = 1))) := by
  have listed : oneByOne.batch ((twoWays [way "ab" "b"] walkers).withAssignments stored) .null = .ok ["v"] :=
    walkers_batch rfl
  have named : Transition.idNumber? "ab" = none := by decide
  have immersed : (oneByOne.immerse "v" 1 ((twoWays [way "ab" "b"] walkers).withAssignments stored)).1 =
      .ok (some ⟨"v", 1, wayIn, [wayOut], .terminal⟩) := by
    refine (immerse_some rfl rfl).mpr ⟨rfl, rfl, _, ⟨{ walker with id := "v" }, _, rfl, rfl, rfl, rfl⟩, ?_⟩
    refine ⟨.cons ⟨rfl, _, oneWay_picks named, rfl⟩ .nil, rfl, rfl, by decide, ?_, ?_, ?_, ?_⟩
    all_goals simp [Inference.final, Inference.steps, wayOut]
  have batched : oneByOne.immerseAll (some 1) .null ((twoWays [way "ab" "b"] walkers).withAssignments stored) =
      (.ok ⟨1, 1, 0, [(wayOut, 1)]⟩,
        (twoWays [way "ab" "b"] walkers).withAssignments (Store.assign ⟨"v", "b", 1, ⟨0, 0⟩⟩ stored)) := by
    simp only [immerseAll, resolveVersion, listed, turns_single, immerseEach]
    rw [immerse_writes, recordOf, immersed]
    rfl
  have verified := verify_immersed "" batched
  exact verified

theorem verify_from_scratch_stale :
    (∃ matched fresh differs stale, fresh ≠ stale ∧
      (standard.verify "" (some 2) .null ((oneWay "ab" "b").withAssignments [])).1 = .ok (matched, fresh) ∧
      (standard.verify "" (some 2) .null ((oneWay "ab" "b").withAssignments [⟨"u", "b", 2, ⟨0, 0⟩⟩])).1 =
        .ok (differs, stale)) ∧
    ∃ matched fresh differs stale, fresh ≠ stale ∧
      (oneByOne.verify "" (some 1) .null ((twoWays [way "ab" "b"] walkers).withAssignments [])).1 =
        .ok (matched, fresh) ∧
      (oneByOne.verify "" (some 1) .null
          ((twoWays [way "ab" "b"] walkers).withAssignments [⟨"u", "a", 1, ⟨0, 0⟩⟩])).1 =
        .ok (differs, stale) := by
  refine ⟨⟨_, _, _, _, ?_, unbegun_verified _, unbegun_verified _⟩, _, _, _, _, ?_, walkers_verified _, walkers_verified _⟩
  · decide +kernel
  · rw [Fingerprint.ofAssignments_ordered (by decide), Fingerprint.ofAssignments_ordered (by decide)]
    decide +kernel

end Engine
end Lifecycle
