import Lifecycle.Proofs.Outcome
import Lifecycle.Proofs.Replay.Run
import Lifecycle.Proofs.Selection.Choice

namespace Lifecycle

-- The replay of one user in one version: what stays the same from step to step.
structure Replay where
  store : Store
  version : Int
  context : Context
  blocked : Bool
  blockedName : Json

namespace Replay

def situation (p : Replay) (stage : Stage) : Situation := ⟨stage, p.context, p.blocked, p.blockedName⟩

def candidates (p : Replay) (stage : Stage) : List Transition := p.store.transitionsFrom stage.id p.version

def choice (p : Replay) (stage : Stage) : Except Fault Selection :=
  Selection.choose (p.situation stage) (p.candidates stage)

def Picks (p : Replay) (stage : Stage) (t : Transition) : Prop := ∃ looked, p.choice stage = .ok ⟨some t, looked⟩

def PicksNone (p : Replay) (stage : Stage) : Prop := ∃ looked, p.choice stage = .ok ⟨none, looked⟩

def Moves (p : Replay) (stage target : Stage) : Prop :=
  stage.isTerminal = false ∧ ∃ t, p.Picks stage t ∧ p.store.stage? t.target = some target

def onward (p : Replay) (stage : Stage) : Except Fault (Option Stage) :=
  match p.choice stage with
  | .error f => .error f
  | .ok ⟨none, _⟩ => .ok none
  | .ok ⟨some t, _⟩ =>
    match p.store.stage? t.target with
    | none => .error (.danglingTarget t.id t.target)
    | some target => .ok (some target)

variable {p : Replay} {t : Transition}

theorem onward_none : p.onward stage = .ok none ↔ p.PicksNone stage := by
  unfold onward PicksNone
  cases chosen : p.choice stage with
  | error f => simp
  | ok selection =>
    obtain ⟨t?, looked⟩ := selection
    cases t? with
    | none => simp
    | some t => cases found : p.store.stage? t.target <;> simp [found]

theorem onward_some : p.onward stage = .ok (some target) ↔
    ∃ t, p.Picks stage t ∧ p.store.stage? t.target = some target := by
  unfold onward Picks
  cases chosen : p.choice stage with
  | error f => simp
  | ok selection =>
    obtain ⟨t?, looked⟩ := selection
    cases t? with
    | none => simp
    | some t => cases found : p.store.stage? t.target <;> simp [found]

theorem onward_error : p.onward stage = .error f ↔ p.choice stage = .error f ∨
    ∃ t, p.Picks stage t ∧ p.store.stage? t.target = none ∧ f = .danglingTarget t.id t.target := by
  unfold onward Picks
  cases chosen : p.choice stage with
  | error g => simp
  | ok selection =>
    obtain ⟨t?, looked⟩ := selection
    cases t? with
    | none => simp
    | some t => cases found : p.store.stage? t.target <;> simp [found, eq_comm]

theorem goes_exact : Goes p.onward stage target ↔ p.Moves stage target := by
  unfold Goes Moves
  rw [onward_some]

-- Of the faults of a step only these two concern a value; what else goes wrong is
-- a condition that compares what cannot be compared.
theorem onward_badValue : (∃ f, p.onward stage = .error f ∧ f.family = .badValue) ↔
    (∃ t ∈ p.candidates stage, t.IsOverlong) ∨ ∃ t, p.Picks stage t ∧ p.store.stage? t.target = none := by
  constructor
  · rintro ⟨f, failed, value⟩
    rcases onward_error.mp failed with unchosen | ⟨t, picked, missing, _⟩
    · exact .inl (Selection.choose_badValue.mp ⟨f, unchosen, value⟩)
    · exact .inr ⟨t, picked, missing⟩
  · rintro (overlong | ⟨t, picked, missing⟩)
    · obtain ⟨f, unchosen, value⟩ := Selection.choose_badValue.mpr overlong
      exact ⟨f, onward_error.mpr (.inl unchosen), value⟩
    · exact ⟨_, onward_error.mpr (.inr ⟨t, picked, missing, rfl⟩), rfl⟩

theorem picks_lawful (picked : p.Picks stage t) : t ∈ p.candidates stage ∧
    t.isImplied (p.situation stage) = true ∧ Condition.evaluate p.context t.conditions = .ok true ∧
    t.trigger ≠ .time := by
  obtain ⟨looked, chosen⟩ := picked
  obtain ⟨member, implied, holds⟩ := Selection.choose_picked chosen
  refine ⟨member, implied, holds, ?_⟩
  intro timed
  simp [Transition.isImplied, timed] at implied

end Replay

theorem Json.compareWith_error {v w : Json} : v.compareWith sign holds w = .error f ↔
    (v.number? = none ∨ w.number? = none) ∧ f = .misuse (.order sign v.kind w.kind) := by
  unfold compareWith
  cases v.number? <;> cases w.number? <;> simp [eq_comm]

theorem Context.build_error : build u now threshold = .error f ↔
    threshold.number? = none ∧ f = .misuse (.order "<" .int threshold.kind) := by
  rw [build, bind_error, Json.compareWith_error]
  simp [Json.number?, Json.kind, pure, Except.pure]

-- How the answer to a replay of at most so many steps tells its run.
structure Inference.Follows (r : Inference) (p : Replay) (depth : Nat) : Prop where
  run : Run p.Moves r.initial r.visited r.final
  path : r.path = (r.initial :: r.visited).map (·.name)
  length : r.path.length = r.steps + 1
  bounded : r.steps ≤ depth
  terminal : r.stop = .terminal ↔ r.final.isTerminal = true
  maxDepth : r.stop = .maxDepth ↔ r.final.isTerminal = false ∧ r.steps = depth
  noMatch : r.stop = .noMatch ↔ r.final.isTerminal = false ∧ r.steps < depth
  unmatched : r.stop = .noMatch → p.PicksNone r.final

theorem Inference.follows_exact {r : Inference} : r.Follows p depth ↔
    Engine.walk p.onward depth r.initial = .ok (r.visited, r.stop) := by
  constructor
  · intro follows
    refine Engine.walk_exact.mpr ⟨r.final, follows.run.congr fun _ _ => Replay.goes_exact.symm, follows.bounded, ?_⟩
    cases reason : r.stop with
    | terminal => exact follows.terminal.mp reason
    | maxDepth => exact follows.maxDepth.mp reason
    | noMatch =>
      obtain ⟨unended, short⟩ := follows.noMatch.mp reason
      exact ⟨unended, short, Replay.onward_none.mpr (follows.unmatched reason)⟩
  · intro walked
    obtain ⟨last, run, bounded, explained⟩ := Engine.walk_exact.mp walked
    have arrived : r.final = last := run.last_visited
    subst arrived
    refine ⟨run.congr fun _ _ => Replay.goes_exact, rfl, ?_, bounded, Stop.explains_terminal explained,
      Stop.explains_maxDepth explained, Stop.explains_noMatch explained, ?_⟩
    · simp [Inference.path, Inference.steps]
    · intro unmatched
      rw [unmatched] at explained
      exact Replay.onward_none.mp explained.2.2

namespace Engine

def Begins (e : Engine) (s : Store) (user : String) (version : Int) (p : Replay) (initial : Stage) : Prop :=
  ∃ facts context, s.user? user = some facts ∧ s.initialStage? version = some initial ∧
    Context.build facts e.now e.config.lowBalanceThreshold = .ok context ∧
    p = ⟨s, version, context, facts.isBlocked, e.config.blockedStageName⟩

variable {e : Engine} {s : Store} {depth : Nat}

theorem reach_calm (calm : e.stalled = []) : e.reach call = .ok () := by
  simp [reach, calm]

theorem next_calm (calm : e.stalled = []) : e.next? s version context blocked =
    Replay.onward ⟨s, version, context, blocked, e.config.blockedStageName⟩ := by
  funext stage
  simp only [next?, reach_calm calm, Replay.onward, Replay.choice, Replay.situation, Replay.candidates]
  cases chosen : Selection.choose ⟨stage, context, blocked, e.config.blockedStageName⟩
      (s.transitionsFrom stage.id version) with
  | error f => rfl
  | ok selection =>
    obtain ⟨t?, looked⟩ := selection
    cases t? with
    | none => rfl
    | some t =>
      cases found : s.stage? t.target with
      | none => rfl
      | some onto =>
        simp only [bind, Except.bind, found]
        rfl

theorem immerse_calm (calm : e.stalled = []) : (e.immerse user version s).1 = e.infer s user version := by
  unfold immerse
  cases inferred : e.infer s user version with
  | error f => rfl
  | ok r? =>
    cases r? with
    | none => rfl
    | some r => simp [reach_calm calm]

theorem infer_skipped (calm : e.stalled = []) (absent : s.user? user = none ∨ s.initialStage? version = none) :
    e.infer s user version = .ok none := by
  unfold infer
  rw [reach_calm calm, reach_calm calm]
  cases known : s.user? user with
  | none => rfl
  | some facts =>
    cases found : s.initialStage? version with
    | none => simp [bind, Except.bind, pure, Except.pure]
    | some initial => simp [known, found] at absent

theorem infer_begins (calm : e.stalled = []) (begins : e.Begins s user version p initial) :
    e.infer s user version = (walk p.onward (e.config.stepLimit s.stages.length) initial).map
      fun outcome => some ⟨user, version, initial, outcome.1, outcome.2⟩ := by
  obtain ⟨facts, context, known, found, built, rfl⟩ := begins
  simp only [infer, reach_calm calm, known, found, built, next_calm calm, bind, Except.bind]
  cases walk (Replay.onward ⟨s, version, context, facts.isBlocked, e.config.blockedStageName⟩)
    (e.config.stepLimit s.stages.length) initial <;> rfl

theorem infer_cases (calm : e.stalled = []) (user : String) (version : Int) :
    (s.user? user = none ∨ s.initialStage? version = none) ∨
    (∃ m, e.infer s user version = .error (.misuse m)) ∨
    ∃ p initial, e.Begins s user version p initial := by
  cases known : s.user? user with
  | none => exact .inl (.inl rfl)
  | some facts =>
    cases found : s.initialStage? version with
    | none => exact .inl (.inr rfl)
    | some initial =>
      cases built : Context.build facts e.now e.config.lowBalanceThreshold with
      | ok context => exact .inr (.inr ⟨_, initial, facts, context, known, found, built, rfl⟩)
      | error f =>
        obtain ⟨m, rfl⟩ : ∃ m, f = .misuse m := ⟨_, (Context.build_error.mp built).2⟩
        refine .inr (.inl ⟨m, ?_⟩)
        simp [infer, reach_calm calm, known, found, built, bind, Except.bind]

theorem infer_none (calm : e.stalled = []) : e.infer s user version = .ok none ↔
    s.user? user = none ∨ s.initialStage? version = none := by
  refine ⟨?_, infer_skipped calm⟩
  intro inferred
  rcases infer_cases calm user version with absent | ⟨m, failed⟩ | ⟨p, initial, begins⟩
  · exact absent
  · rw [failed] at inferred
    cases inferred
  · rw [infer_begins calm begins] at inferred
    cases walked : walk p.onward (e.config.stepLimit s.stages.length) initial <;>
      simp [walked, Except.map] at inferred

theorem infer_some (calm : e.stalled = []) : e.infer s user version = .ok (some r) ↔
    r.userId = user ∧ r.versionId = version ∧ ∃ p, e.Begins s user version p r.initial ∧
      walk p.onward (e.config.stepLimit s.stages.length) r.initial = .ok (r.visited, r.stop) := by
  constructor
  · intro inferred
    rcases infer_cases calm user version with absent | ⟨m, failed⟩ | ⟨p, initial, begins⟩
    · rw [infer_skipped calm absent] at inferred
      cases inferred
    · rw [failed] at inferred
      cases inferred
    · rw [infer_begins calm begins] at inferred
      cases walked : walk p.onward (e.config.stepLimit s.stages.length) initial with
      | error f => simp [walked, Except.map] at inferred
      | ok outcome =>
        rw [walked] at inferred
        cases inferred
        exact ⟨rfl, rfl, p, begins, walked⟩
  · rintro ⟨rfl, rfl, p, begins, walked⟩
    rw [infer_begins calm begins, walked]
    rfl

theorem infer_badValue (calm : e.stalled = []) :
    (∃ f, e.infer s user version = .error f ∧ f.family = .badValue) ↔
    ∃ p initial f, e.Begins s user version p initial ∧
      walk p.onward (e.config.stepLimit s.stages.length) initial = .error f ∧ f.family = .badValue := by
  constructor
  · rintro ⟨f, failed, value⟩
    rcases infer_cases calm user version with absent | ⟨m, unbuilt⟩ | ⟨p, initial, begins⟩
    · rw [infer_skipped calm absent] at failed
      cases failed
    · rw [unbuilt] at failed
      cases failed
      cases value
    · refine ⟨p, initial, f, begins, ?_, value⟩
      rw [infer_begins calm begins] at failed
      cases walked : walk p.onward (e.config.stepLimit s.stages.length) initial with
      | error g =>
        rw [walked] at failed
        cases failed
        rfl
      | ok outcome => simp [walked, Except.map] at failed
  · rintro ⟨p, initial, f, begins, walked, value⟩
    refine ⟨f, ?_, value⟩
    rw [infer_begins calm begins, walked]
    rfl

theorem stepLimit_int (bound : c.maxDepth.number? = some (.int (depth : Int))) :
    Config.stepLimit c stages = depth := by
  simp [Config.stepLimit, bound]

-- Besides a picked transition without target, one more thing in reach of the run
-- refuses a value: a candidate whose id is a number too long to be read.
theorem immerse_badValue (calm : e.stalled = []) (bound : e.config.maxDepth.number? = some (.int (depth : Int))) :
    (∃ f, (e.immerse user version s).1 = .error f ∧ f.family = .badValue) ↔
    ∃ p initial visited last, e.Begins s user version p initial ∧ Run p.Moves initial visited last ∧
      visited.length < depth ∧ last.isTerminal = false ∧
      ((∃ t ∈ p.candidates last, t.IsOverlong) ∨ ∃ t, p.Picks last t ∧ p.store.stage? t.target = none) := by
  rw [immerse_calm calm, infer_badValue calm]
  simp only [stepLimit_int bound, walk_error]
  constructor
  · rintro ⟨p, initial, f, begins, ⟨visited, last, run, short, unended, failed⟩, value⟩
    exact ⟨p, initial, visited, last, begins, run.congr fun _ _ => Replay.goes_exact, short, unended,
      Replay.onward_badValue.mp ⟨f, failed, value⟩⟩
  · rintro ⟨p, initial, visited, last, begins, run, short, unended, broken⟩
    obtain ⟨f, failed, value⟩ := Replay.onward_badValue.mpr broken
    have replayed := run.congr fun _ _ => Replay.goes_exact.symm
    exact ⟨p, initial, f, begins, ⟨visited, last, replayed, short, unended, failed⟩, value⟩

theorem immerse_some (calm : e.stalled = []) (bound : e.config.maxDepth.number? = some (.int (depth : Int))) :
    (e.immerse user version s).1 = .ok (some r) ↔
    r.userId = user ∧ r.versionId = version ∧ ∃ p, e.Begins s user version p r.initial ∧ r.Follows p depth := by
  rw [immerse_calm calm, infer_some calm, stepLimit_int bound]
  simp only [Inference.follows_exact]

theorem immerse_exact (calm : e.stalled = []) (bound : e.config.maxDepth.number? = some (.int (depth : Int))) :
    ((e.immerse user version s).1 = .ok none ↔ s.user? user = none ∨ s.initialStage? version = none) ∧
    ((∃ f, (e.immerse user version s).1 = .error f ∧ f.family = .badValue) ↔
      ∃ p initial visited last, e.Begins s user version p initial ∧ Run p.Moves initial visited last ∧
        visited.length < depth ∧ last.isTerminal = false ∧
        ((∃ t ∈ p.candidates last, t.IsOverlong) ∨ ∃ t, p.Picks last t ∧ p.store.stage? t.target = none)) ∧
    (∀ r, (e.immerse user version s).1 = .ok (some r) ↔
      r.userId = user ∧ r.versionId = version ∧ ∃ p, e.Begins s user version p r.initial ∧ r.Follows p depth) ∧
    ∀ p initial stage t, e.Begins s user version p initial → p.Picks stage t →
      t ∈ p.candidates stage ∧ t.isImplied (p.situation stage) = true ∧
        Condition.evaluate p.context t.conditions = .ok true ∧ t.trigger ≠ .time := by
  refine ⟨?_, immerse_badValue calm bound, fun _ => immerse_some calm bound, fun _ _ _ _ _ => Replay.picks_lawful⟩
  rw [immerse_calm calm]
  exact infer_none calm

def wayIn : Stage := ⟨"a", .text "NEW", 1, true, false⟩

def wayOut : Stage := ⟨"b", .text "DONE", 1, false, true⟩

def way (key target : String) : Transition :=
  ⟨key, "a", target, 1, .event, .text "BOT_START", none, 0, [], []⟩

def walker : UserFacts := ⟨"u", 0, ⟨0, 0⟩, 0, [], none, false, 0, none, none, none, .null, []⟩

def oneWay (key target : String) : Store := ⟨[], [wayIn, wayOut], [way key target], [walker], []⟩

def standard : Engine := .pinned .standard ⟨0, 0⟩ []

theorem oneWay_candidates :
    Replay.candidates ⟨oneWay key target, 1, context, blocked, name⟩ wayIn = [way key target] := by
  simp [Replay.candidates, Store.transitionsFrom, oneWay, way, wayIn]

theorem oneWay_begins (key target : String) : ∃ context, standard.Begins (oneWay key target) "u" 1
    ⟨oneWay key target, 1, context, false, standard.config.blockedStageName⟩ wayIn :=
  ⟨_, walker, _, rfl, rfl, rfl, rfl⟩

theorem oneWay_picks (named : Transition.idNumber? key = none) :
    Replay.Picks ⟨oneWay key target, 1, context, blocked, name⟩ wayIn (way key target) := by
  refine ⟨1, ?_⟩
  rw [Replay.choice, oneWay_candidates]
  simp [Selection.choose, Transition.inOrder, Transition.checkId, way, named, bind, Except.bind, pure, Except.pure]
  rfl

theorem immerse_exact_one_way :
    standard.stalled = [] ∧ standard.config.maxDepth.number? = some (.int ((50 : Nat) : Int)) ∧
    (standard.immerse "u" 1 (oneWay "ab" "b")).1 = .ok (some ⟨"u", 1, wayIn, [wayOut], .terminal⟩) ∧
    ∃ f, (standard.immerse "u" 1 (oneWay "ab" "c")).1 = .error f ∧ f.family = .badValue := by
  have bound : standard.config.maxDepth.number? = some (.int ((50 : Nat) : Int)) := rfl
  have named : Transition.idNumber? "ab" = none := by decide
  refine ⟨rfl, bound, ?_, ?_⟩
  · obtain ⟨context, begins⟩ := oneWay_begins "ab" "b"
    refine ((immerse_exact rfl bound).2.2.1 _).mpr ⟨rfl, rfl, _, begins, ?_⟩
    refine ⟨.cons ⟨rfl, _, oneWay_picks named, rfl⟩ .nil, rfl, rfl, by decide, ?_, ?_, ?_, ?_⟩
    all_goals simp [Inference.final, Inference.steps, wayOut]
  · obtain ⟨context, begins⟩ := oneWay_begins "ab" "c"
    exact (immerse_exact rfl bound).2.1.mpr
      ⟨_, _, [], _, begins, .nil, by decide, rfl, .inr ⟨_, oneWay_picks named, rfl⟩⟩

def ones (count : Nat) : String := String.ofList (List.replicate count '1')

theorem way_overlong (many : Numeral.digitLimit < count) : (way (ones count) target).IsOverlong := by
  have digit : Text.isAsciiDigit '1' = true := by decide
  have filled : count ≠ 0 := Nat.ne_zero_of_lt many
  simp [Transition.IsOverlong, Transition.idNumber?, way, ones, digit, filled, many]

theorem immerse_overlong :
    (∃ f, (standard.immerse "u" 1 (oneWay (ones 4301) "b")).1 = .error f ∧ f.family = .badValue) ∧
    ¬ ∃ p initial visited last t, standard.Begins (oneWay (ones 4301) "b") "u" 1 p initial ∧
      Run p.Moves initial visited last ∧ visited.length < 50 ∧ last.isTerminal = false ∧
      p.Picks last t ∧ p.store.stage? t.target = none := by
  constructor
  · obtain ⟨context, begins⟩ := oneWay_begins (ones 4301) "b"
    have bound : standard.config.maxDepth.number? = some (.int ((50 : Nat) : Int)) := rfl
    refine (immerse_badValue rfl bound).mpr
      ⟨_, _, [], _, begins, .nil, by decide, rfl, .inl ⟨way (ones 4301) "b", ?_, ?_⟩⟩
    · rw [oneWay_candidates]
      exact List.mem_singleton_self _
    · exact way_overlong (by decide)
  · rintro ⟨p, initial, visited, last, t, ⟨facts, context, _, _, _, rfl⟩, _, _, _, picked, missing⟩
    have member := (Replay.picks_lawful picked).1
    simp [Replay.candidates, Store.transitionsFrom, oneWay] at member
    rw [member.1] at missing
    cases missing

end Engine
end Lifecycle
