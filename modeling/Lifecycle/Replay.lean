import Lifecycle.Selection
import Lifecycle.Store
import Lifecycle.Tally

namespace Lifecycle

-- The questions that a store answers; an engine waits for each only so long.
inductive Call where
  | userFacts
  | userIds
  | activeVersion
  | stage
  | initialStage
  | transitions
  | assign
deriving DecidableEq, Repr

def Call.name : Call → String
  | .userFacts => "get_user_facts"
  | .userIds => "list_user_ids"
  | .activeVersion => "get_active_version"
  | .stage => "get_state"
  | .initialStage => "get_initial_state"
  | .transitions => "get_transitions"
  | .assign => "upsert_user_state"

-- The settings, what the clock shows each time it is read, and the calls that
-- the store never finishes.
structure Engine where
  config : Config
  clock : Nat → Timestamp
  stalled : List Call

structure Turn where
  engine : Engine
  user : String

inductive Stop where
  | terminal
  | noMatch
  | maxDepth
deriving DecidableEq, Repr

def Stop.name : Stop → String
  | .terminal => "TERMINAL"
  | .noMatch => "NO_MATCH"
  | .maxDepth => "MAX_DEPTH"

structure Inference where
  userId : String
  versionId : Int
  initial : Stage
  visited : List Stage
  stop : Stop

namespace Inference

def final (r : Inference) : Stage := r.visited.getLast?.getD r.initial

def path (r : Inference) : List Json := (r.initial :: r.visited).map (·.name)

def steps (r : Inference) : Nat := r.visited.length

def encode (r : Inference) : Json := .record [
  ("user_id", .text r.userId),
  ("version_id", .int r.versionId),
  ("state_id", .text r.final.id),
  ("state_name", r.final.name),
  ("path", .list r.path),
  ("steps", .int (r.steps : Int)),
  ("stop_reason", .text r.stop.name)]

end Inference

structure Summary where
  versionId : Int
  processed : Nat
  skipped : Nat
  byStage : Tally

namespace Engine

def pinned (config : Config) (now : Timestamp) (stalled : List Call) : Engine := ⟨config, fun _ => now, stalled⟩

def now (e : Engine) : Timestamp := e.clock 0

def later (e : Engine) (readings : Nat) : Engine := { e with clock := fun n => e.clock (n + readings) }

-- The clock is read anew for every user.
def turns (e : Engine) (users : List String) : List Turn := users.mapIdx fun n user => ⟨e.later n, user⟩

def reach (e : Engine) (call : Call) : Except Fault Unit :=
  if e.stalled.contains call then .error (.timeout call.name e.config.ioTimeoutSeconds) else .ok ()

def next? (e : Engine) (s : Store) (version : Int) (context : Context) (blocked : Bool) (stage : Stage) :
    Except Fault (Option Stage) := do
  e.reach .transitions
  let situation := ⟨stage, context, blocked, e.config.blockedStageName⟩
  let selection ← Selection.choose situation (s.transitionsFrom stage.id version)
  match selection.transition with
  | none => return none
  | some t =>
    e.reach .stage
    match s.stage? t.target with
    | none => throw (.danglingTarget t.id t.target)
    | some target => return some target

-- The stages visited from here and why the run stopped, in at most the given
-- number of steps.
def walk (next? : Stage → Except Fault (Option Stage)) : Nat → Stage → Except Fault (List Stage × Stop)
  | 0, stage => .ok ([], if stage.isTerminal then .terminal else .maxDepth)
  | left + 1, stage =>
    if stage.isTerminal then .ok ([], .terminal)
    else match next? stage with
      | .error e => .error e
      | .ok none => .ok ([], .noMatch)
      | .ok (some target) =>
        match walk next? left target with
        | .error e => .error e
        | .ok (visited, stop) => .ok (target :: visited, stop)

def infer (e : Engine) (s : Store) (user : String) (version : Int) : Except Fault (Option Inference) := do
  e.reach .userFacts
  match s.user? user with
  | none => return none
  | some facts =>
    e.reach .initialStage
    match s.initialStage? version with
    | none => return none
    | some initial =>
      let context ← Context.build facts e.now e.config.lowBalanceThreshold
      let (visited, stop) ← walk (e.next? s version context facts.isBlocked)
        (e.config.stepLimit s.stages.length) initial
      return some ⟨user, version, initial, visited, stop⟩

def assignmentFor (e : Engine) (r : Inference) : Assignment := ⟨r.userId, r.final.id, r.versionId, e.now⟩

def immerse (e : Engine) (user : String) (version : Int) (s : Store) :
    Except Fault (Option Inference) × Store :=
  match e.infer s user version with
  | .error f => (.error f, s)
  | .ok none => (.ok none, s)
  | .ok (some r) =>
    match e.reach .assign with
    | .error f => (.error f, s)
    | .ok () => (.ok (some r), s.setAssignment (e.assignmentFor r))

def resolveVersion (e : Engine) (s : Store) (version : Option Int) : Except Fault Int :=
  match version with
  | some v => .ok v
  | none =>
    match e.reach .activeVersion, s.activeVersion? with
    | .error f, _ => .error f
    | .ok (), none => .error .noActiveVersion
    | .ok (), some v => .ok v.id

def Summary.count (total : Summary) (r : Option Inference) : Except Fault Summary :=
  match r with
  | none => .ok { total with skipped := total.skipped + 1 }
  | some r =>
    match total.byStage.add r.final with
    | .error f => .error f
    | .ok byStage => .ok { total with processed := total.processed + 1, byStage }

-- One user after the other. A fault ends the batch, and what was stored by then stays.
def immerseEach (version : Int) : List Turn → Summary → Store → Except Fault Summary × Store
  | [], total, s => (.ok total, s)
  | turn :: rest, total, s =>
    match turn.engine.immerse turn.user version s with
    | (.error f, s) => (.error f, s)
    | (.ok r, s) =>
      match Summary.count total r with
      | .error f => (.error f, s)
      | .ok total => immerseEach version rest total s

def batch (e : Engine) (s : Store) (limit : Json) : Except Fault (List String) :=
  match e.reach .userIds with
  | .error f => .error f
  | .ok () => s.userIds (if limit.kind = .null then e.config.immersionBatchLimit else limit)

def immerseAll (e : Engine) (version : Option Int) (limit : Json) (s : Store) :
    Except Fault Summary × Store :=
  match e.resolveVersion s version with
  | .error f => (.error f, s)
  | .ok target =>
    match e.batch s limit with
    | .error f => (.error f, s)
    | .ok users =>
      match immerseEach target (e.turns users) ⟨target, 0, 0, []⟩ s with
      | (.error f, s) => (.error f, s)
      | (.ok total, s) =>
        match total.byStage.inOrder with
        | .error f => (.error f, s)
        | .ok byStage => (.ok { total with byStage }, s)

-- A batch in a version that no record is of: every user is asked for and passed
-- over. Gives their number.
def passOver (e : Engine) (s : Store) (limit : Json) : Except Fault Nat := do
  let users ← e.batch s limit
  if !users.isEmpty then
    e.reach .userFacts
    e.reach .initialStage
  return users.length

end Engine
end Lifecycle
