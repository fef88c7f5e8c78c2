import Lifecycle.Config
import Lifecycle.Record.Graph

namespace Lifecycle

-- Records written by hand: fields by name, each with the value that it was
-- given. Nothing is converted, missing fields take their defaults, and only
-- the bounds of the record are checked.
namespace Draft

abbrev Layout := List (String × Option Json)

def fill (layout : Layout) (given : List (String × Json)) : Except Fault (List (String × Json)) := do
  given.forM fun g =>
    if layout.any (·.1 = g.1) then .ok () else .error (.misuse (.unknownSetting g.1))
  layout.mapM fun (name, fallback) =>
    match given.lookup name, fallback with
    | some v, _ => .ok (name, v)
    | none, some v => .ok (name, v)
    | none, none => .error (.misuse (.missingSetting name))

def get (fields : List (String × Json)) (name : String) : Json := (fields.lookup name).getD .null

def rename (fields : List (String × Json)) (names : List (String × String)) : List (String × Json) :=
  names.map fun (stored, name) => (stored, get fields name)

def condition (given : List (String × Json)) : Except Fault Json := do
  let fields ← fill [("field", none), ("operator", none), ("value", none), ("group_id", some (.int 0))] given
  match get fields "group_id" with
  | .int id => discard (Condition.checkGroup id)
  | v => throw (.misuse (.groupId v.kind))
  return .record (rename fields [
    ("field", "field"), ("operator", "operator"), ("value", "value"), ("groupId", "group_id")])

def isWhole : Json → Bool
  | .int _ => true
  | .bool _ => true
  | _ => false

-- Records inside a draft would have to be complete ones, which plain values are not.
def noRecords (v : Json) : Except Fault Unit :=
  match v.items with
  | .error f => .error f
  | .ok [] => .ok ()
  | .ok (item :: _) => .error (.lacksOperation item.kind "encode")

def transition (given : List (String × Json)) : Except Fault Json := do
  let fields ← fill [
    ("id", none), ("from_state_id", none), ("to_state_id", none), ("version_id", none),
    ("trigger_type", some (.text "EVENT")), ("trigger_event", some .null), ("timeout_minutes", some .null),
    ("priority", some (.int 0)), ("conditions", some (.list [])), ("actions", some (.list []))] given
  let trigger := get fields "trigger_type"
  if (Trigger.ofJson? trigger).isNone then throw (.triggerType trigger)
  let priority := get fields "priority"
  if !isWhole priority then throw (.misuse (.priority priority.kind))
  noRecords (get fields "conditions")
  noRecords (get fields "actions")
  return .record (rename fields [
    ("id", "id"), ("fromStateId", "from_state_id"), ("toStateId", "to_state_id"), ("versionId", "version_id"),
    ("triggerType", "trigger_type"), ("triggerEvent", "trigger_event"), ("timeoutMinutes", "timeout_minutes"),
    ("priority", "priority")] ++ [("conditions", .list []), ("actions", .list [])])

def action (given : List (String × Json)) : Except Fault Json := do
  let fields ← fill [("type", none), ("order", some (.int 0))] given
  let type := get fields "type"
  if (ActionType.ofJson? type).isNone then throw (.actionType type)
  return .record [("ok", .bool true)]

def bonus (given : List (String × Json)) : Except Fault Json := do
  let fields ← fill [
    ("amount", none), ("expires_in_hours", some (.int 24)), ("condition_generations", some .null),
    ("condition_top_up_amount", some .null)] given
  let amount := get fields "amount"
  if ← Config.atMost amount 0 then throw (.bonusAmount amount)
  let hours := get fields "expires_in_hours"
  if ← Config.atMost hours 0 then throw (.bonusLifetime hours)
  return .record fields

def tag (given : List (String × Json)) : Except Fault Json := do
  let fields ← fill [("tag", none)] given
  match get fields "tag" with
  | .text s => if (Text.trim s).isEmpty then throw .emptyTag else return .record fields
  | v => throw (.lacksOperation v.kind "strip")

def offer (given : List (String × Json)) : Except Fault Json := do
  let fields ← fill [("package_id", some .null), ("custom_package", some .null), ("message", some (.text ""))] given
  if (get fields "package_id").kind = .null && (get fields "custom_package").kind = .null then throw .emptyOffer
  return .record fields

def config (given : List (String × Json)) : Except Fault Json := (Config.ofSettings given).map Config.encode

def build (kind : String) (given : List (String × Json)) : Option (Except Fault Json) :=
  match kind with
  | "condition" => some (condition given)
  | "transition" => some (transition given)
  | "action" => some (action given)
  | "bonus" => some (bonus given)
  | "tag" => some (tag given)
  | "offer" => some (offer given)
  | "config" => some (config given)
  | _ => none

end Draft
end Lifecycle
