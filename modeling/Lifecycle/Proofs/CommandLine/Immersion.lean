import Lifecycle.CommandLine.Execution
import Lifecycle.Proofs.Files.Reading
import Lifecycle.Proofs.Replay.Answers
import Lifecycle.Proofs.Replay.Saving
import Lifecycle.Proofs.Store.Reloading

namespace Lifecycle.Text.Charset

def Prints (c : Charset) (line : String) : Prop := ∀ x ∈ line.toList, c.holds x = true

theorem objection_none {c : Charset} : c.objection? line = none ↔ c.Prints line := by
  unfold objection? Prints
  rw [← List.dropWhile_eq_nil_iff]
  cases line.toList.dropWhile c.holds <;> simp

end Lifecycle.Text.Charset

namespace Lifecycle.CommandLine

variable {s : Surroundings} {files after : Files} {r : Run} {e : Engine} {store : Store}

def target (e : Engine) (store : Store) : Choice → Except Fault (Option Int)
  | .unstated => (e.resolveVersion store none).map some
  | .stated v => (e.resolveVersion store (some v)).map some
  | .blank => .ok none

-- A dataset and what it has become once its users were immersed: each who was
-- to be immersed has an answer, those who got somewhere are assigned to their
-- stage, by the clock of their turn, and all else is as it was.
structure Immersed (e : Engine) (version : Option Int) (users : List String) (loaded saved : Store) : Prop where
  frame : saved = loaded.withAssignments saved.assignments
  ordered : saved.assignments.Pairwise (·.userId < ·.userId)
  distinct : users.Nodup
  answered : ∀ v ∈ version, ∀ turn ∈ e.turns users, ∃ r?, (turn.engine.immerse turn.user v loaded).1 = .ok r?
  placed : ∀ turn ∈ e.turns users, saved.assignment? turn.user =
    ((version.bind fun v => turn.recordOf loaded v) <|> loaded.assignment? turn.user)
  others : ∀ user, user ∉ users → saved.assignment? user = loaded.assignment? user

theorem Immersed.each {Holds : Assignment → Prop} (immersed : Immersed e version users loaded saved)
    (old : ∀ a ∈ loaded.assignments, Holds a)
    (new : ∀ v, ∀ turn ∈ e.turns users, ∀ a, turn.recordOf loaded v = some a → Holds a) :
    ∀ a ∈ saved.assignments, Holds a := by
  intro a member
  have distinct : (saved.assignments.map (·.userId)).Nodup := by
    rw [List.nodup_iff_pairwise_ne, List.pairwise_map]
    apply immersed.ordered.imp
    intro b c before same
    rw [same] at before
    exact String.lt_irrefl _ before
  have found : saved.assignment? a.userId = some a := (find_keyed distinct).mpr ⟨member, rfl⟩
  have held (kept : loaded.assignment? a.userId = some a) : Holds a := old a (List.mem_of_find?_eq_some kept)
  by_cases listed : a.userId ∈ users
  · rw [← Engine.turns_users e users] at listed
    obtain ⟨turn, its, same⟩ := List.mem_map.mp listed
    rw [← same, immersed.placed turn its] at found
    cases version with
    | none => exact held (same ▸ found)
    | some v =>
      rw [Option.bind_some] at found
      cases record : turn.recordOf loaded v with
      | none =>
        rw [record] at found
        exact held (same ▸ found)
      | some b =>
        rw [record] at found
        cases found
        exact new v turn its a record
  · exact held (immersed.others _ listed ▸ found)

theorem recordOf_short {turn : Turn} (bounded : store.encode.Bounded) (record : turn.recordOf store version = some a) :
    Numeral.Short a.versionId := by
  obtain ⟨r, inferred, rfl⟩ := Engine.recordOf_some record
  obtain ⟨_, _, _, named, _, _, _, found, _⟩ := Engine.infer_parts inferred
  have initial := List.find?_some found
  have stage := (Store.bounded_encode.mp bounded).2.1 _ (List.mem_of_find?_eq_some found)
  simp only [Bool.and_eq_true, decide_eq_true_eq] at initial
  simp only [Stage.encode, Json.bounded_cons, Json.bounded_int] at stage
  change Numeral.Short r.versionId
  rw [named, ← initial.1]
  exact stage.2.2.1

theorem Immersed.bounded (immersed : Immersed e version users loaded saved) (bounded : loaded.encode.Bounded) :
    saved.encode.Bounded := by
  obtain ⟨versions, stages, transitions, known, assignments⟩ := Store.bounded_encode.mp bounded
  have kept : ∀ a ∈ saved.assignments, a.encode.Bounded :=
    immersed.each assignments fun _ _ _ _ record => Assignment.encode_bounded (recordOf_short bounded record)
  apply Store.bounded_encode.mpr
  rw [immersed.frame]
  exact ⟨versions, stages, transitions, known, kept⟩

theorem Immersed.readable (immersed : Immersed e version users loaded saved) (clock : ∀ n, (e.clock n).Readable)
    (wellFormed : loaded.WellFormed) : ∀ a ∈ saved.assignments, a.enteredAt.Readable := by
  apply immersed.each wellFormed.entered
  intro v turn member a record
  obtain ⟨readings, same⟩ := Engine.turns_engine member
  rw [Engine.recordOf_entered record, same]
  exact clock _

-- What a run comes to before anything is written: where the dataset stands and what became of its users.
def immersed (s : Surroundings) (files : Files) (r : Run) : Except Fault (String × Batch) := do
  let (engine, store) ← openRun s files r
  return (← pathOf r.dataset, ← batch engine store r)

end Lifecycle.CommandLine
