import Lifecycle.Proofs.Replay.Immersion
import Lifecycle.Proofs.Replay.Inference
import Lifecycle.Proofs.Store.Keyed
import Mathlib.Data.List.Perm.Subperm

namespace Lifecycle
namespace Run

theorem from_member (run : Run moves stage visited last) (member : passed ∈ visited) :
    ∃ rest, Run moves passed rest last ∧ rest.length < visited.length := by
  induction run with
  | nil => cases member
  | @cons stage target visited last moved rest ih =>
    rcases List.mem_cons.mp member with rfl | later
    · exact ⟨visited, rest, Nat.lt_succ_self _⟩
    · obtain ⟨tail, run, short⟩ := ih later
      exact ⟨tail, run, Nat.lt_succ_of_lt short⟩

theorem visited_within (closed : ∀ stage target, moves stage target → target ∈ stages)
    (run : Run moves stage visited last) : visited ⊆ stages := fun passed => run.visited_each closed passed

section
variable {moves : Stage → Stage → Prop} (single : ∀ stage one two, moves stage one → moves stage two → one = two)
include single

theorem ended_longest (ended : ∀ target, ¬ moves last target) (run : Run moves stage visited last)
    (other : Run moves stage passed reached) : passed.length ≤ visited.length := by
  induction run generalizing passed with
  | nil =>
    cases other with
    | nil => exact Nat.le_refl 0
    | cons moved _ => exact absurd moved (ended _)
  | cons moved _ ih =>
    cases other with
    | nil => exact Nat.zero_le _
    | cons went rest =>
      have same := single _ _ _ moved went
      subst same
      exact Nat.succ_le_succ (ih ended rest)

theorem ended_nodup (ended : ∀ target, ¬ moves last target) (run : Run moves stage visited last) :
    (stage :: visited).Nodup := by
  induction run with
  | nil => exact List.nodup_singleton _
  | @cons stage target visited last moved rest ih =>
    refine List.nodup_cons.mpr ⟨?_, ih ended⟩
    intro again
    obtain ⟨tail, run, short⟩ := from_member (.cons moved rest) again
    have long := ended_longest single ended run (.cons moved rest)
    exact absurd short (Nat.not_lt.mpr long)

theorem ended_short {stages : List Stage} (ended : ∀ target, ¬ moves last target) (start : stage ∈ stages)
    (closed : ∀ stage target, moves stage target → target ∈ stages) (run : Run moves stage visited last) :
    visited.length < stages.length := by
  have within : stage :: visited ⊆ stages := List.cons_subset.mpr ⟨start, visited_within closed run⟩
  exact ((ended_nodup single ended run).subperm within).length_le

end
end Run

theorem goes_single (stage one two : Stage) (went : Goes onward stage one) (goes : Goes onward stage two) :
    one = two := by
  have same := went.2.symm.trans goes.2
  cases same
  rfl

theorem Stop.explains_ended {stop : Stop} (explained : stop.Explains onward limit visited last)
    (conclusive : stop ≠ .maxDepth) (target : Stage) : ¬ Goes onward last target := by
  rintro ⟨unended, went⟩
  cases stop with
  | terminal => simp [show last.isTerminal = true from explained] at unended
  | noMatch => simp [explained.2.2] at went
  | maxDepth => exact conclusive rfl

namespace Engine

variable {onward : Stage → Except Fault (Option Stage)}

theorem walk_take (walked : walk onward longer stage = .ok (visited, stop)) (shorter_le : shorter ≤ longer) :
    ∃ stop, walk onward shorter stage = .ok (visited.take shorter, stop) := by
  induction shorter generalizing stage visited longer with
  | zero => exact ⟨_, rfl⟩
  | succ shorter ih =>
    obtain ⟨longer, rfl⟩ : ∃ left, longer = left + 1 := ⟨longer - 1, by omega⟩
    rcases walk_cases onward stage with ended | ⟨unended, unmatched⟩ | ⟨f, unended, failed⟩ | ⟨target, moved⟩
    · rw [walk_ended ended] at walked ⊢
      cases walked
      exact ⟨_, rfl⟩
    · rw [walk_unmatched unended unmatched] at walked ⊢
      cases walked
      exact ⟨_, rfl⟩
    · rw [walk_failed unended failed] at walked
      cases walked
    · rw [walk_moved moved] at walked ⊢
      cases tail : walk onward longer target with
      | error f => simp [tail, Except.map] at walked
      | ok later =>
        rw [tail] at walked
        cases walked
        obtain ⟨stop, cut⟩ := ih tail (Nat.le_of_succ_le_succ shorter_le)
        rw [cut]
        exact ⟨stop, rfl⟩

section
variable {stages : List Stage} (start : stage ∈ stages)
  (closed : ∀ stage target, onward stage = .ok (some target) → target ∈ stages)
include start closed

theorem walk_conclusive (walked : walk onward limit stage = .ok (visited, stop)) (conclusive : stop ≠ .maxDepth) :
    (stage :: visited).Nodup ∧ stage :: visited ⊆ stages := by
  obtain ⟨last, run, _, explained⟩ := walk_exact.mp walked
  refine ⟨run.ended_nodup goes_single (Stop.explains_ended explained conclusive), ?_⟩
  exact List.cons_subset.mpr ⟨start, run.visited_within fun _ _ moved => closed _ _ moved.2⟩

-- Where the budget covers all stages and is used up, the walk is in a cycle.
theorem walk_endless (walked : walk onward limit stage = .ok (visited, .maxDepth)) (enough : stages.length ≤ limit)
    (more : Nat) : ∃ passed, walk onward more stage = .ok (passed, .maxDepth) := by
  obtain ⟨last, run, _, _, spent⟩ := walk_exact.mp walked
  -- A run that cannot go on is shorter than the one made.
  have goesOn : ∀ passed reached, Run (Goes onward) stage passed reached → ∃ target, Goes onward reached target := by
    intro passed reached other
    by_contra! ended
    have long := other.ended_longest goes_single ended run
    have short := other.ended_short goes_single ended start fun _ _ moved => closed _ _ moved.2
    omega
  cases outcome : walk onward more stage with
  | error f =>
    obtain ⟨passed, reached, other, _, _, failed⟩ := walk_error.mp outcome
    obtain ⟨target, moved⟩ := goesOn passed reached other
    rw [moved.2] at failed
    cases failed
  | ok found =>
    obtain ⟨passed, stop⟩ := found
    obtain ⟨reached, other, _, explained⟩ := walk_exact.mp outcome
    obtain ⟨target, moved⟩ := goesOn passed reached other
    have inconclusive : stop = .maxDepth := by
      by_contra conclusive
      exact Stop.explains_ended explained conclusive target moved
    exact ⟨passed, by rw [inconclusive]⟩

end

def withDepth (e : Engine) (depth : Nat) : Engine :=
  { e with config := { e.config with maxDepth := .int (depth : Int) } }

variable {e : Engine} {s : Store}

theorem next_taken (went : e.next? s version context blocked stage = .ok (some target)) :
    ∃ t ∈ s.transitionsFrom stage.id version, s.stage? t.target = some target := by
  unfold next? at went
  obtain ⟨_, _, went⟩ := bind_ok.mp went
  obtain ⟨⟨picked, looked⟩, chosen, went⟩ := bind_ok.mp went
  cases picked with
  | none => cases went
  | some t =>
    obtain ⟨_, _, went⟩ := bind_ok.mp went
    cases found : s.stage? t.target with
    | none => simp [found] at went
    | some onto =>
      simp only [found] at went
      cases went
      exact ⟨t, (Selection.choose_picked chosen).1, found⟩

theorem next_within (went : e.next? s version context blocked stage = .ok (some target)) : target ∈ s.stages := by
  obtain ⟨_, _, found⟩ := next_taken went
  exact List.mem_of_find?_eq_some found

theorem immerse_walks (returned : (e.immerse user version s).1 = .ok (some r)) :
    ∃ onward : Stage → Except Fault (Option Stage),
      (∀ stage target, onward stage = .ok (some target) → target ∈ s.stages) ∧ r.initial ∈ s.stages ∧
      walk onward (e.config.stepLimit s.stages.length) r.initial = .ok (r.visited, r.stop) ∧
      ∀ depth, ((e.withDepth depth).immerse user version s).1 =
        (walk onward depth r.initial).map fun found => some ⟨user, version, r.initial, found.1, found.2⟩ := by
  obtain ⟨inferred, reached⟩ := immerse_returned returned
  obtain ⟨answered, asked, rfl, rfl, facts, context, known, found, built, walked⟩ := infer_parts inferred
  refine ⟨e.next? s r.versionId context facts.isBlocked, fun _ _ => next_within,
    List.mem_of_find?_eq_some found, walked, ?_⟩
  intro depth
  have calls : (e.withDepth depth).reach = e.reach := rfl
  have steps : (e.withDepth depth).config.stepLimit s.stages.length = depth := stepLimit_int rfl
  have context_same : Context.build facts (e.withDepth depth).now (e.withDepth depth).config.lowBalanceThreshold =
      .ok context := built
  have next_same : (e.withDepth depth).next? = e.next? := rfl
  rw [immerse_reached (by rw [calls]; exact reached)]
  simp only [infer, calls, answered, asked, known, found, context_same, next_same, steps, bind, Except.bind]
  cases walk (e.next? s r.versionId context facts.isBlocked) depth r.initial <;> rfl

theorem immerse_cut (returned : ((e.withDepth longer).immerse user version s).1 = .ok (some r))
    (shorter_le : shorter ≤ longer) : ∃ cut, ((e.withDepth shorter).immerse user version s).1 = .ok (some cut) ∧
      cut.initial :: cut.visited = (r.initial :: r.visited).take (shorter + 1) := by
  obtain ⟨onward, _, _, walked, replays⟩ := immerse_walks returned
  rw [stepLimit_int rfl] at walked
  obtain ⟨stop, cut⟩ := walk_take walked shorter_le
  refine ⟨⟨user, version, r.initial, r.visited.take shorter, stop⟩, ?_, rfl⟩
  have replayed := replays shorter
  rw [cut] at replayed
  exact replayed

theorem immerse_conclusive (keyed : s.Keyed) (returned : (e.immerse user version s).1 = .ok (some r))
    (conclusive : r.stop ≠ .maxDepth) :
    ((r.initial :: r.visited).map (·.id)).Nodup ∧ r.steps < s.stages.length := by
  obtain ⟨onward, closed, start, walked, _⟩ := immerse_walks returned
  obtain ⟨distinct, within⟩ := walk_conclusive start closed walked conclusive
  refine ⟨?_, (distinct.subperm within).length_le⟩
  apply distinct.map_on
  intro one passed two met same
  exact List.inj_on_of_nodup_map keyed.stages (within passed) (within met) same

theorem immerse_endless (returned : ((e.withDepth depth).immerse user version s).1 = .ok (some r))
    (enough : s.stages.length ≤ depth) (spent : r.stop = .maxDepth) (more : Nat) :
    ∃ longer, ((e.withDepth more).immerse user version s).1 = .ok (some longer) ∧ longer.stop = .maxDepth := by
  obtain ⟨onward, closed, start, walked, replays⟩ := immerse_walks returned
  rw [stepLimit_int rfl, spent] at walked
  obtain ⟨passed, endless⟩ := walk_endless start closed walked enough more
  have replayed := replays more
  rw [endless] at replayed
  exact ⟨_, replayed, rfl⟩

theorem immerse_depth (keyed : s.Keyed) :
    (∀ shorter longer r, shorter ≤ longer → ((e.withDepth longer).immerse user version s).1 = .ok (some r) →
      ∃ cut, ((e.withDepth shorter).immerse user version s).1 = .ok (some cut) ∧
        cut.initial :: cut.visited = (r.initial :: r.visited).take (shorter + 1) ∧
        cut.path = r.path.take (min (shorter + 1) r.path.length)) ∧
    (∀ r, (e.immerse user version s).1 = .ok (some r) → r.stop = .terminal ∨ r.stop = .noMatch →
      ((r.initial :: r.visited).map (·.id)).Nodup ∧ r.steps < s.stages.length) ∧
    ∀ depth more r, s.stages.length ≤ depth → depth ≤ more →
      ((e.withDepth depth).immerse user version s).1 = .ok (some r) → r.stop = .maxDepth →
      ∃ longer, ((e.withDepth more).immerse user version s).1 = .ok (some longer) ∧ longer.stop = .maxDepth := by
  refine ⟨?_, ?_, ?_⟩
  · intro shorter longer r shorter_le returned
    obtain ⟨cut, returns, front⟩ := immerse_cut returned shorter_le
    refine ⟨cut, returns, front, ?_⟩
    rw [← List.take_eq_take_min]
    simp only [Inference.path, front, List.map_take]
  · intro r returned stopped
    apply immerse_conclusive keyed returned
    rcases stopped with terminal | noMatch
    · simp [terminal]
    · simp [noMatch]
  · intro depth more r enough _ returned spent
    exact immerse_endless returned enough spent more

theorem immerse_depth_circle : (oneWay "ab" "a").Keyed ∧
    ((standard.withDepth 2).immerse "u" 1 (oneWay "ab" "a")).1 =
      .ok (some ⟨"u", 1, wayIn, [wayIn, wayIn], .maxDepth⟩) ∧
    ∀ more, 2 ≤ more → ∃ longer, ((standard.withDepth more).immerse "u" 1 (oneWay "ab" "a")).1 = .ok (some longer) ∧
      longer.stop = .maxDepth := by
  have keyed : (oneWay "ab" "a").Keyed := ⟨.nil, by decide, by decide, .nil⟩
  have named : Transition.idNumber? "ab" = none := by decide
  have moved : ∀ context, Replay.Moves ⟨oneWay "ab" "a", 1, context, false, Config.defaultBlockedName⟩ wayIn wayIn :=
    fun _ => ⟨rfl, _, oneWay_picks named, rfl⟩
  have returned : ((standard.withDepth 2).immerse "u" 1 (oneWay "ab" "a")).1 =
      .ok (some ⟨"u", 1, wayIn, [wayIn, wayIn], .maxDepth⟩) := by
    refine (immerse_some rfl rfl).mpr ⟨rfl, rfl, _, ⟨walker, _, rfl, rfl, rfl, rfl⟩, ?_⟩
    refine ⟨.cons (moved _) (.cons (moved _) .nil), rfl, rfl, by decide, ?_, ?_, ?_, ?_⟩
    all_goals simp [Inference.final, Inference.steps, wayIn]
  refine ⟨keyed, returned, ?_⟩
  intro more enough
  exact (immerse_depth keyed).2.2 2 more _ (Nat.le_refl 2) enough returned rfl

end Engine
end Lifecycle
