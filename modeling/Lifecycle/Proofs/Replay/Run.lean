import Lifecycle.Replay

namespace Lifecycle

-- A run lists the stages that it comes to, in order, and ends at the last of them;
-- without any it ends where it started.
inductive Run (moves : Stage → Stage → Prop) : Stage → List Stage → Stage → Prop where
  | nil : Run moves stage [] stage
  | cons : moves stage target → Run moves target visited last → Run moves stage (target :: visited) last

def Goes (onward : Stage → Except Fault (Option Stage)) (stage target : Stage) : Prop :=
  stage.isTerminal = false ∧ onward stage = .ok (some target)

-- What must hold at the end of a run for it to stop there and for this reason.
def Stop.Explains (onward : Stage → Except Fault (Option Stage)) (limit : Nat) (visited : List Stage)
    (last : Stage) : Stop → Prop
  | .terminal => last.isTerminal = true
  | .noMatch => last.isTerminal = false ∧ visited.length < limit ∧ onward last = .ok none
  | .maxDepth => last.isTerminal = false ∧ visited.length = limit

theorem Stop.explains_cons : Stop.Explains onward (limit + 1) (target :: visited) last stop ↔
    Stop.Explains onward limit visited last stop := by
  cases stop with
  | terminal => exact Iff.rfl
  | noMatch => simp [Stop.Explains]
  | maxDepth => simp [Stop.Explains]

section
variable {stop : Stop} (explained : stop.Explains onward limit visited last)
include explained

theorem Stop.explains_terminal : stop = .terminal ↔ last.isTerminal = true := by
  cases stop with
  | terminal => simp [show last.isTerminal = true from explained]
  | noMatch => simp [explained.1]
  | maxDepth => simp [explained.1]

theorem Stop.explains_noMatch : stop = .noMatch ↔ last.isTerminal = false ∧ visited.length < limit := by
  cases stop with
  | terminal => simp [show last.isTerminal = true from explained]
  | noMatch => simp [explained.1, explained.2.1]
  | maxDepth => simp [explained.2]

theorem Stop.explains_maxDepth : stop = .maxDepth ↔ last.isTerminal = false ∧ visited.length = limit := by
  cases stop with
  | terminal => simp [show last.isTerminal = true from explained]
  | noMatch => simp [Nat.ne_of_lt explained.2.1]
  | maxDepth => simp [explained.1, explained.2]

end

namespace Run

theorem last_visited (run : Run moves stage visited last) : visited.getLast?.getD stage = last := by
  induction run with
  | nil => rfl
  | @cons stage target visited last _ _ ih =>
    rw [List.getLast?_cons]
    exact ih

theorem congr (same : ∀ stage target, moves stage target ↔ others stage target)
    (run : Run moves stage visited last) : Run others stage visited last := by
  induction run with
  | nil => exact .nil
  | cons moved _ ih => exact .cons ((same _ _).mp moved) ih

theorem visited_each {Holds : Stage → Prop} (each : ∀ stage target, moves stage target → Holds target)
    (run : Run moves stage visited last) : ∀ passed ∈ visited, Holds passed := by
  induction run with
  | nil =>
    intro passed none
    cases none
  | cons moved _ ih =>
    intro passed member
    rcases List.mem_cons.mp member with rfl | later
    · exact each _ _ moved
    · exact ih passed later

end Run

namespace Engine

theorem walk_ended (ended : stage.isTerminal = true) : walk onward limit stage = .ok ([], .terminal) := by
  cases limit <;> simp [walk, ended]

section
variable {stage : Stage} (unended : stage.isTerminal = false)
include unended

theorem walk_spent : walk onward 0 stage = .ok ([], .maxDepth) := by
  simp [walk, unended]

theorem walk_unmatched (unmatched : onward stage = .ok none) :
    walk onward (limit + 1) stage = .ok ([], .noMatch) := by
  simp [walk, unended, unmatched]

theorem walk_failed (failed : onward stage = .error f) : walk onward (limit + 1) stage = .error f := by
  simp [walk, unended, failed]

end

theorem walk_moved (moved : Goes onward stage target) : walk onward (limit + 1) stage =
    (walk onward limit target).map fun later => (target :: later.1, later.2) := by
  simp only [walk, moved.1, moved.2]
  cases walk onward limit target <;> rfl

theorem walk_cases (onward : Stage → Except Fault (Option Stage)) (stage : Stage) :
    stage.isTerminal = true ∨ (stage.isTerminal = false ∧ onward stage = .ok none) ∨
    (∃ f, stage.isTerminal = false ∧ onward stage = .error f) ∨ ∃ target, Goes onward stage target := by
  cases ended : stage.isTerminal with
  | true => exact .inl rfl
  | false =>
    cases went : onward stage with
    | error f => exact .inr (.inr (.inl ⟨f, rfl, rfl⟩))
    | ok target? =>
      cases target? with
      | none => exact .inr (.inl ⟨rfl, rfl⟩)
      | some target => exact .inr (.inr (.inr ⟨target, ended, went⟩))

-- The step budget counts down while the run grows, so that reason and length
-- are both stated for the steps still to be made.
theorem walk_sound (walked : walk onward limit stage = .ok (visited, stop)) :
    ∃ last, Run (Goes onward) stage visited last ∧ visited.length ≤ limit ∧
      stop.Explains onward limit visited last := by
  induction limit generalizing stage visited with
  | zero =>
    cases ended : stage.isTerminal with
    | true =>
      rw [walk_ended ended] at walked
      cases walked
      exact ⟨stage, .nil, Nat.le_refl 0, ended⟩
    | false =>
      rw [walk_spent ended] at walked
      cases walked
      exact ⟨stage, .nil, Nat.le_refl 0, ended, rfl⟩
  | succ limit ih =>
    rcases walk_cases onward stage with ended | ⟨unended, unmatched⟩ | ⟨f, unended, failed⟩ | ⟨target, moved⟩
    · rw [walk_ended ended] at walked
      cases walked
      exact ⟨stage, .nil, Nat.zero_le _, ended⟩
    · rw [walk_unmatched unended unmatched] at walked
      cases walked
      exact ⟨stage, .nil, Nat.zero_le _, unended, Nat.succ_pos _, unmatched⟩
    · rw [walk_failed unended failed] at walked
      cases walked
    · rw [walk_moved moved] at walked
      cases tail : walk onward limit target with
      | error f => simp [tail, Except.map] at walked
      | ok later =>
        rw [tail] at walked
        cases walked
        obtain ⟨last, run, short, explained⟩ := ih tail
        exact ⟨last, .cons moved run, Nat.succ_le_succ short, Stop.explains_cons.mpr explained⟩

theorem walk_complete (run : Run (Goes onward) stage visited last) (short : visited.length ≤ limit)
    (explained : stop.Explains onward limit visited last) : walk onward limit stage = .ok (visited, stop) := by
  induction run generalizing limit with
  | nil =>
    cases stop with
    | terminal => exact walk_ended explained
    | noMatch =>
      obtain ⟨unended, left, unmatched⟩ := explained
      cases limit with
      | zero => cases left
      | succ limit => exact walk_unmatched unended unmatched
    | maxDepth =>
      obtain ⟨unended, rfl⟩ := explained
      exact walk_spent unended
  | cons moved _ ih =>
    cases limit with
    | zero => cases short
    | succ limit =>
      rw [walk_moved moved, ih (Nat.le_of_succ_le_succ short) (Stop.explains_cons.mp explained)]
      rfl

theorem walk_exact : walk onward limit stage = .ok (visited, stop) ↔
    ∃ last, Run (Goes onward) stage visited last ∧ visited.length ≤ limit ∧
      stop.Explains onward limit visited last := by
  refine ⟨walk_sound, ?_⟩
  rintro ⟨last, run, short, explained⟩
  exact walk_complete run short explained

theorem walk_error : walk onward limit stage = .error f ↔
    ∃ visited last, Run (Goes onward) stage visited last ∧ visited.length < limit ∧
      last.isTerminal = false ∧ onward last = .error f := by
  constructor
  · intro walked
    induction limit generalizing stage with
    | zero => cases walked
    | succ limit ih =>
      rcases walk_cases onward stage with ended | ⟨unended, unmatched⟩ | ⟨g, unended, failed⟩ | ⟨target, moved⟩
      · rw [walk_ended ended] at walked
        cases walked
      · rw [walk_unmatched unended unmatched] at walked
        cases walked
      · rw [walk_failed unended failed] at walked
        cases walked
        exact ⟨[], stage, .nil, Nat.succ_pos _, unended, failed⟩
      · rw [walk_moved moved] at walked
        cases tail : walk onward limit target with
        | ok later => simp [tail, Except.map] at walked
        | error g =>
          rw [tail] at walked
          cases walked
          obtain ⟨visited, last, run, short, facts⟩ := ih tail
          exact ⟨target :: visited, last, .cons moved run, Nat.succ_lt_succ short, facts⟩
  · rintro ⟨visited, last, run, short, unended, failed⟩
    induction run generalizing limit with
    | nil =>
      cases limit with
      | zero => cases short
      | succ limit => exact walk_failed unended failed
    | cons moved _ ih =>
      cases limit with
      | zero => cases short
      | succ limit =>
        rw [walk_moved moved, ih (Nat.lt_of_succ_lt_succ short) unended failed]
        rfl

end Engine
end Lifecycle
