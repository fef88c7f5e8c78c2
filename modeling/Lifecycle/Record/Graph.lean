import Lifecycle.Json.Reading
import Lifecycle.Record.Action
import Lifecycle.Record.Condition

namespace Lifecycle

structure Version where
  id : Int
  name : Json
  isActive : Bool

namespace Version

def decode (v : Json) : Except Fault Version := do
  let id ← (← v.field "id").toInt
  let name ← v.fieldOr "name" (.text "")
  let isActive ← v.fieldOr "isActive" (.bool false)
  return ⟨id, name, isActive.truthy⟩

def encode (v : Version) : Json := .record [
  ("id", .int v.id), ("name", v.name), ("isActive", .bool v.isActive)]

end Version

structure Stage where
  id : String
  name : Json
  versionId : Int
  isInitial : Bool
  isTerminal : Bool

namespace Stage

def decode (v : Json) : Except Fault Stage := do
  let id ← v.field "id"
  let name ← v.field "name"
  let versionId ← (← v.field "versionId").toInt
  let isInitial ← v.fieldOr "isInitial" (.bool false)
  let isTerminal ← v.fieldOr "isTerminal" (.bool false)
  return ⟨id.display, name, versionId, isInitial.truthy, isTerminal.truthy⟩

def encode (s : Stage) : Json := .record [
  ("id", .text s.id), ("name", s.name), ("versionId", .int s.versionId),
  ("isInitial", .bool s.isInitial), ("isTerminal", .bool s.isTerminal)]

end Stage

inductive Trigger where
  | event
  | time
deriving DecidableEq, Repr

namespace Trigger

def name : Trigger → String
  | .event => "EVENT"
  | .time => "TIME"

def ofJson? : Json → Option Trigger
  | .text "EVENT" => some .event
  | .text "TIME" => some .time
  | _ => none

end Trigger

structure Transition where
  id : String
  source : String
  target : String
  versionId : Int
  trigger : Trigger
  event : Json
  timeoutMinutes : Option Int
  priority : Int
  conditions : List Condition
  actions : List Action

namespace Transition

def decode (v : Json) : Except Fault Transition := do
  let timeout ← v.fieldOrNull "timeoutMinutes"
  let id ← v.field "id"
  let source ← v.field "fromStateId"
  let target ← v.field "toStateId"
  let versionId ← (← v.field "versionId").toInt
  let triggerType ← v.fieldOr "triggerType" (.text "EVENT")
  let event ← v.fieldOrNull "triggerEvent"
  let timeoutMinutes ← if timeout.kind = .null then pure none else (timeout.toInt).map some
  let priority ← (← v.fieldOr "priority" (.int 0)).toInt
  let conditions ← (← (← v.fieldOr "conditions" (.list [])).items).mapM Condition.decode
  let actions ← (← (← v.fieldOr "actions" (.list [])).items).mapM Action.decode
  match Trigger.ofJson? triggerType with
  | none => throw (.triggerType triggerType)
  | some trigger => return {
      id := id.display, source := source.display, target := target.display, versionId, trigger
      event := if event.truthy then event else .null
      timeoutMinutes, priority, conditions, actions }

def encode (t : Transition) : Json := .record [
  ("id", .text t.id),
  ("fromStateId", .text t.source),
  ("toStateId", .text t.target),
  ("versionId", .int t.versionId),
  ("triggerType", .text t.trigger.name),
  ("triggerEvent", t.event),
  ("timeoutMinutes", .ofOption .int t.timeoutMinutes),
  ("priority", .int t.priority),
  ("conditions", .list (t.conditions.map Condition.encode)),
  ("actions", .list (t.actions.map Action.encode))]

def orderedActions (t : Transition) : List Action :=
  t.actions.mergeSort fun a b => a.order ≤ b.order

end Transition

structure Assignment where
  userId : String
  stageId : String
  versionId : Int
  enteredAt : Timestamp
deriving DecidableEq, Repr

namespace Assignment

def decode (v : Json) : Except Fault Assignment := do
  let entered ← (← v.field "enteredAt").toTimestamp?
  let enteredAt ← match entered with
    | some t => pure t
    | none => throw (.noEntry (← v.fieldOrNull "userId"))
  let userId ← v.field "userId"
  let stageId ← v.field "stateId"
  let versionId ← (← v.field "versionId").toInt
  return ⟨userId.display, stageId.display, versionId, enteredAt⟩

def encode (a : Assignment) : Json := .record [
  ("userId", .text a.userId), ("stateId", .text a.stageId), ("versionId", .int a.versionId),
  ("enteredAt", .ofTimestamp a.enteredAt)]

end Assignment
end Lifecycle
