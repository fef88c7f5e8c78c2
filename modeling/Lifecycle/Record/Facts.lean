import Lifecycle.Json.Reading

namespace Lifecycle

structure UserFacts where
  id : String
  credits : Int
  createdAt : Timestamp
  totalGenerated : Nat
  tags : List Json
  lastActiveAt : Option Timestamp
  isBlocked : Bool
  completedPurchases : Nat
  lastCompletedPurchaseAt : Option Timestamp
  lastFailedPurchaseAt : Option Timestamp
  lastGenerationAt : Option Timestamp
  lastGenerationModel : Json
  activeOverlays : List Json

namespace UserFacts

def checkCounts (purchases generations : Int) (id : String) : Except Fault (Nat × Nat) :=
  if purchases < 0 then .error (.negativePurchases purchases id)
  else if generations < 0 then .error (.negativeGenerations generations id)
  else .ok (purchases.toNat, generations.toNat)

def orNull (v : Json) : Json := if v.truthy then v else .null

def decode (v : Json) : Except Fault UserFacts := do
  let created ← (← v.field "createdAt").toTimestamp?
  let createdAt ← match created with
    | some t => pure t
    | none => throw (.noCreation (← v.fieldOrNull "id"))
  let found ← v.fieldOrNull "lastGeneration"
  let generation := if found.truthy then found else .record []
  let id := (← v.field "id").display
  let credits ← (← v.fieldOr "credits" (.int 0)).toInt
  let generated ← (← v.fieldOr "totalGenerated" (.int 0)).toInt
  let tags ← (← v.fieldOr "tags" (.list [])).items
  let lastActiveAt ← (← v.fieldOrNull "lastActiveAt").toTimestamp?
  let isBlocked := (← v.fieldOr "isBlocked" (.bool false)).truthy
  let purchases ← (← v.fieldOr "completedPurchases" (.int 0)).toInt
  let lastCompletedPurchaseAt ← (← v.fieldOrNull "lastCompletedPurchaseAt").toTimestamp?
  let lastFailedPurchaseAt ← (← v.fieldOrNull "lastFailedPurchaseAt").toTimestamp?
  let lastGenerationAt ← (← generation.fieldOrNull "createdAt").toTimestamp?
  let lastGenerationModel := orNull (← generation.fieldOrNull "modelId")
  let activeOverlays ← (← v.fieldOr "activeOverlays" (.list [])).items
  let (completedPurchases, totalGenerated) ← checkCounts purchases generated id
  return {
    id, credits, createdAt, totalGenerated, tags, lastActiveAt, isBlocked, completedPurchases,
    lastCompletedPurchaseAt, lastFailedPurchaseAt, lastGenerationAt, lastGenerationModel, activeOverlays }

def encodeGeneration (u : UserFacts) : Json :=
  match u.lastGenerationAt with
  | none => .null
  | some t => .record [("createdAt", .ofTimestamp t), ("modelId", u.lastGenerationModel)]

def encode (u : UserFacts) : Json := .record [
  ("id", .text u.id),
  ("credits", .int u.credits),
  ("createdAt", .ofTimestamp u.createdAt),
  ("totalGenerated", .int (u.totalGenerated : Int)),
  ("tags", .list u.tags),
  ("lastActiveAt", .ofOption .ofTimestamp u.lastActiveAt),
  ("isBlocked", .bool u.isBlocked),
  ("completedPurchases", .int (u.completedPurchases : Int)),
  ("lastCompletedPurchaseAt", .ofOption .ofTimestamp u.lastCompletedPurchaseAt),
  ("lastFailedPurchaseAt", .ofOption .ofTimestamp u.lastFailedPurchaseAt),
  ("lastGeneration", u.encodeGeneration),
  ("activeOverlays", .list u.activeOverlays)]

end UserFacts
end Lifecycle
