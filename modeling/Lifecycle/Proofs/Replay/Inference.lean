import Lifecycle.Proofs.Outcome
import Lifecycle.Replay

namespace Lifecycle
namespace Engine

variable {e : Engine} {s : Store}

theorem infer_parts (inferred : e.infer s user version = .ok (some r)) :
    e.reach .userFacts = .ok () ∧ e.reach .initialStage = .ok () ∧ r.userId = user ∧ r.versionId = version ∧
    ∃ facts context, s.user? user = some facts ∧ s.initialStage? version = some r.initial ∧
      Context.build facts e.now e.config.lowBalanceThreshold = .ok context ∧
      walk (e.next? s version context facts.isBlocked) (e.config.stepLimit s.stages.length) r.initial =
        .ok (r.visited, r.stop) := by
  unfold infer at inferred
  obtain ⟨_, answered, inferred⟩ := bind_ok.mp inferred
  split at inferred
  · cases inferred
  · rename_i facts known
    obtain ⟨_, asked, inferred⟩ := bind_ok.mp inferred
    split at inferred
    · cases inferred
    · rename_i initial found
      obtain ⟨context, built, inferred⟩ := bind_ok.mp inferred
      obtain ⟨⟨visited, stop⟩, walked, inferred⟩ := bind_ok.mp inferred
      cases inferred
      exact ⟨answered, asked, rfl, rfl, facts, context, known, found, built, walked⟩

theorem immerse_returned (returned : (e.immerse user version s).1 = .ok (some r)) :
    e.infer s user version = .ok (some r) ∧ e.reach .assign = .ok () := by
  unfold immerse at returned
  cases inferred : e.infer s user version with
  | error f => simp [inferred] at returned
  | ok r? =>
    cases r? with
    | none => simp [inferred] at returned
    | some found =>
      cases reached : e.reach .assign with
      | error f => simp [inferred, reached] at returned
      | ok _ =>
        simp only [inferred, reached, Except.ok.injEq, Option.some.injEq] at returned
        exact ⟨by rw [returned], rfl⟩

theorem immerse_reached (reached : e.reach .assign = .ok ()) :
    (e.immerse user version s).1 = e.infer s user version := by
  unfold immerse
  cases e.infer s user version with
  | error f => rfl
  | ok r? => cases r? <;> simp [reached]

theorem immerse_congr {t : Store} (same : e.infer s user version = e.infer t user version) :
    (e.immerse user version s).1 = (e.immerse user version t).1 := by
  unfold immerse
  rw [same]
  cases e.infer t user version with
  | error f => rfl
  | ok r? =>
    cases r? with
    | none => rfl
    | some r => cases e.reach .assign <;> rfl

def written (e : Engine) : Except Fault (Option Inference) → Option Assignment
  | .ok (some r) => some (e.assignmentFor r)
  | _ => none

def recordOf (e : Engine) (s : Store) (version : Int) (user : String) : Option Assignment :=
  e.written (e.immerse user version s).1

theorem recordOf_some (record : e.recordOf s version user = some a) :
    ∃ r, e.infer s user version = .ok (some r) ∧ a = e.assignmentFor r := by
  unfold recordOf at record
  cases returned : (e.immerse user version s).1 with
  | error f => simp [returned, written] at record
  | ok r? =>
    cases r? with
    | none => simp [returned, written] at record
    | some r =>
      rw [returned] at record
      cases record
      exact ⟨r, (immerse_returned returned).1, rfl⟩

theorem recordOf_user (record : e.recordOf s version user = some a) : a.userId = user := by
  obtain ⟨r, inferred, rfl⟩ := recordOf_some record
  exact (infer_parts inferred).2.2.1

theorem recordOf_entered (record : e.recordOf s version user = some a) : a.enteredAt = e.now := by
  obtain ⟨r, _, rfl⟩ := recordOf_some record
  rfl

def Pinned (e : Engine) : Prop := ∀ n, e.clock n = e.now

theorem pinned_later (pinned : e.Pinned) (readings : Nat) : e.later readings = e := by
  have still : (fun n => e.clock (n + readings)) = e.clock := funext fun n => (pinned (n + readings)).trans (pinned n).symm
  rw [later, still]

theorem turns_cons (e : Engine) (user : String) (rest : List String) :
    e.turns (user :: rest) = ⟨e, user⟩ :: (e.later 1).turns rest := List.mapIdx_cons

theorem turns_single (e : Engine) (user : String) : e.turns [user] = [⟨e, user⟩] := rfl

theorem turns_users (e : Engine) (users : List String) : (e.turns users).map (·.user) = users := by
  induction users generalizing e with
  | nil => rfl
  | cons user rest ih => rw [turns_cons, List.map_cons, ih]

theorem turns_length (e : Engine) (users : List String) : (e.turns users).length = users.length := List.length_mapIdx

theorem turns_engine (member : turn ∈ e.turns users) : ∃ readings, turn.engine = e.later readings := by
  obtain ⟨n, _, rfl⟩ := List.mem_mapIdx.mp member
  exact ⟨n, rfl⟩

theorem turns_user (member : turn ∈ e.turns users) : turn.user ∈ users := by
  have listed := List.mem_map_of_mem (f := Turn.user) member
  rwa [turns_users] at listed

theorem turns_pinned (pinned : e.Pinned) (users : List String) : e.turns users = users.map (⟨e, ·⟩) := by
  induction users with
  | nil => rfl
  | cons user rest ih => rw [turns_cons, pinned_later pinned, ih, List.map_cons]

end Engine

def Turn.recordOf (s : Store) (version : Int) (turn : Turn) : Option Assignment :=
  turn.engine.recordOf s version turn.user

theorem Engine.turns_records {e : Engine} (pinned : e.Pinned) (s : Store) (version : Int) (users : List String) :
    (e.turns users).filterMap (Turn.recordOf s version) = users.filterMap (e.recordOf s version) := by
  rw [turns_pinned pinned, List.filterMap_map]
  rfl

end Lifecycle
