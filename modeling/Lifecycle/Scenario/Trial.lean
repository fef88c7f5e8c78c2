import Lifecycle.Dispatch
import Lifecycle.Fingerprint
import Lifecycle.Formula.Pieces
import Lifecycle.Sample.History
import Lifecycle.Scenario.Form

namespace Lifecycle.Scenario

abbrev Trial := Answers → Except Fault Json

def engine : Engine := .pinned .standard Sample.baseTime []

def readFormula : Json → Except Fault (Formula Formula.Leaf)
  | .text s => (Formula.parse s).mapError .formula
  | v => .error (.lacksOperation v.kind "strip")

def contextOf (v : Answers) : Except Fault Context := do
  Context.build (← subject Sample.baseTime v) Sample.baseTime Config.defaultThreshold

def validation : Trial := fun v => do
  let answered ← v.field "formula"
  let expected := affirmed (← v.field "expect_valid")
  match ← Formula.objectionTo answered Context.knownFields with
  | some o =>
    return .record [
      ("passed", .bool !expected), ("valid", .bool false), ("error", .text o.message),
      ("position", .int o.position), ("length", .int (o.length : Int)),
      ("explanation", .text ("Rejected at position " ++ Text.decimalOfInt o.position ++ ": " ++ o.message))]
  | none =>
    let tree ← readFormula answered
    let conditions := Condition.ofFormula tree
    return .record [
      ("passed", .bool expected), ("valid", .bool true), ("error", .null), ("position", .null), ("length", .null),
      ("conditions", .list (conditions.map Condition.encode)), ("normalized", .text tree.render),
      ("explanation", .text ("Parsed into " ++ Text.decimalOfNat conditions.length ++ " condition(s) ✅"))]

def findingFields (f : Condition.Finding) : Json := .record [
  ("field", f.condition.field), ("operator", f.condition.operator), ("value", .text f.condition.value),
  ("groupId", .int (f.condition.groupId : Int)), ("actual", f.actual), ("passed", .bool f.passed)]

def evaluation : Trial := fun v => do
  let conditions := Condition.ofFormula (← readFormula (← v.field "formula"))
  let context ← contextOf v
  let actual ← Condition.evaluate context conditions
  let expected := (← v.field "expected").same (.text "true")
  let trace ← Condition.trace context conditions
  return .record [
    ("passed", .bool (actual = expected)), ("actual", .bool actual), ("expected", .bool expected),
    ("context", context.encode), ("trace", .list (trace.map findingFields)),
    ("explanation", .text ("Groups are ORed, conditions within a group ANDed → " ++ (Json.bool actual).display))]

def immersion : Trial := fun v => do
  let user ← subject Sample.baseTime v
  match ← (engine.immerse user.id 1 (storeOf user)).1 with
  | none => throw (.lacksOperation .null "state_name")
  | some r =>
    let expected ← v.field "expected_state"
    let path := " → ".intercalate (r.path.map Json.display)
    return .record [
      ("passed", .bool (r.final.name.same expected)), ("actual_state", r.final.name),
      ("expected_state", expected), ("result", r.encode),
      ("explanation", .text ("Path: " ++ path ++ " (" ++ r.stop.name ++ ")"))]

def acceptAll : Dispatcher := fun _ _ _ => .outcome .done

def outcomeName (o : Outcome) : String :=
  if o.success then "success" else if o.skipped then "skipped" else "failed"

def readGate : Json → Except Fault (List Condition)
  | .text s =>
    let gate := Text.trim s
    if gate.isEmpty then .ok [] else (readFormula (.text gate)).map Condition.ofFormula
  | v => .error (.lacksOperation v.kind "strip")

def readConfig (v : Json) : Except Fault Json :=
  if !v.truthy then .ok (.record [])
  else match v with
    | .text s => (Json.parse s).mapError .document
    | v => .error (.misuse (.document v.kind))

def dispatch : Trial := fun v => do
  let user ← subject Sample.baseTime v
  let gate ← readGate (← v.fieldOr "gate" (.text ""))
  let config ← readConfig (← v.fieldOrNull "config")
  let type ← v.field "action_type"
  let (outcome, _) ← Dispatch.manual engine (storeOf user) acceptAll type config gate user.id []
  let actual := outcomeName outcome
  let expected ← v.field "expected_outcome"
  let reason := match outcome.error with
    | some e => if e.isEmpty then "" else " (" ++ e ++ ")"
    | none => ""
  return .record [
    ("passed", .bool (expected.same (.text actual))), ("actual_outcome", .text actual),
    ("expected_outcome", expected), ("error", .ofOption .text outcome.error),
    ("explanation", .text (type.display ++ " → " ++ actual ++ reason))]

def immersedAnew (dataset : Json) : Except Fault (String × Tally) := do
  let store ← Store.decode dataset
  let (total, after) := engine.immerseAll none .null store
  return (Fingerprint.ofAssignments (after.assignmentsOf (some 1)), (← total).byStage)

def determinism : Trial := fun v => do
  let count ← (← v.field "count").toInt
  let seed ← (← v.field "seed").toInt
  let dataset := Sample.dataset count seed
  let (first, _) ← immersedAnew dataset
  let (second, byStage) ← immersedAnew dataset
  return .record [
    ("passed", .bool (first = second)), ("hashes", .texts [first, second]),
    ("by_state", .record (byStage.named.map fun (name, n) => (name.display, .int (n : Int)))),
    ("explanation", .text (Text.decimalOfInt count ++ " users, seed=" ++ Text.decimalOfInt seed ++ ": " ++
      (if first = second then "hashes match ✅" else "hashes differ ❌")))]

def trials : List (Form × Trial) := [
  (validationForm, validation), (evaluationForm, evaluation), (immersionForm, immersion),
  (dispatchForm, dispatch), (determinismForm, determinism)]

def catalog : Json := .list (trials.map fun t => t.1.encode)

structure Reply where
  status : Nat
  body : Json

def run (scenario : Json) (answers : Answers) : Reply :=
  match trials.find? fun t => scenario.same (.text t.1.id) with
  | none => ⟨400, .record [("error", .text ("Unknown scenario: " ++ scenario.display))]⟩
  | some (_, trial) =>
    match trial answers with
    | .ok body => ⟨200, body⟩
    | .error f => ⟨200, .record [("passed", .bool false), ("error", .text f.message)]⟩

end Lifecycle.Scenario
