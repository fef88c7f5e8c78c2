import Lifecycle.Formula.Basic
import Lifecycle.Json.Reading

namespace Lifecycle

-- A field compared with a value, as a stored record spells it. A record may
-- name its field and operator by any value; only texts find something.
structure Comparison where
  field : Json
  operator : Json
  value : String
deriving Inhabited

structure Condition extends Comparison where
  groupId : Nat
deriving Inhabited

namespace Comparison

def ofLeaf (c : Formula.Leaf) : Comparison := ⟨.text c.field, .text c.operator, c.value⟩

def toLeaf (c : Comparison) : Except Fault Formula.Leaf :=
  if c.operator.isKey then .ok ⟨c.field.display, c.operator.display, c.value⟩
  else .error (.misuse (.keyOf c.operator.kind))

def encode (c : Comparison) : Json := .record [
  ("field", c.field), ("operator", c.operator), ("value", .text c.value)]

end Comparison

namespace Condition

def checkGroup (id : Int) : Except Fault Nat :=
  if 0 ≤ id then .ok id.toNat else .error (.negativeGroup id)

def decode (v : Json) : Except Fault Condition := do
  let field ← v.field "field"
  let operator ← v.field "operator"
  let value ← v.fieldOrNull "value"
  let group ← v.fieldOrNull "groupId"
  let id ← if group.truthy then group.toInt else .ok 0
  let groupId ← checkGroup id
  return { field, operator, groupId, value := if value.kind = .null then "" else value.display }

def encode (c : Condition) : Json := .record [
  ("field", c.field), ("operator", c.operator), ("value", .text c.value),
  ("groupId", .int (c.groupId : Int))]

def decodeList (v : Json) : Except Fault (List Condition) :=
  if v.kind = .null then .ok []
  else do (← v.items).mapM decode

def groups (cs : List Condition) : List (Nat × List Condition) :=
  (cs.map (·.groupId)).eraseDups.map fun id => (id, cs.filter (·.groupId = id))

def ofTree (tree : Formula Comparison) : List Condition :=
  tree.grouped.map fun (groupId, c) => { c with groupId }

def ofFormula (formula : Formula Formula.Leaf) : List Condition := ofTree (formula.map Comparison.ofLeaf)

def formula? (cs : List Condition) : Option (Formula Comparison) :=
  Formula.ofGroups? ((groups cs).map fun g => g.2.map (·.toComparison))

def render (cs : List Condition) : Except Fault String :=
  match formula? cs with
  | none => .ok ""
  | some formula => (formula.traverse Comparison.toLeaf).map Formula.render

end Condition
end Lifecycle
