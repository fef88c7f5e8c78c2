import Lifecycle.Config
import Lifecycle.Record.Facts

namespace Lifecycle

structure Context where
  userId : String
  credits : Int
  totalGenerations : Nat
  totalPayments : Nat
  createdAt : Timestamp
  lastPaymentFailed : Bool
  isPaidUser : Bool
  isLowBalance : Bool
  daysSinceCreated : Double
  tags : List Json
  lastGenerationAt : Option Timestamp
  lastPaymentAt : Option Timestamp
  preferredModel : Json
  hoursSinceLastPay : Option Double
  hoursSinceLastGen : Option Double
  hoursSinceLastActivity : Option Double
  activeOverlays : List Json

namespace Context

def millisPerHour : Nat := 3600000
def millisPerDay : Nat := 24 * millisPerHour

def paymentFailed (failed paid : Option Timestamp) : Bool :=
  match failed, paid with
  | none, _ => false
  | some _, none => true
  | some f, some p => p.before f

def build (u : UserFacts) (now : Timestamp) (threshold : Json) : Except Fault Context := do
  let isLowBalance ← Json.compareWith "<" Number.lt (.int u.credits) threshold
  return {
    userId := u.id
    credits := u.credits
    totalGenerations := u.totalGenerated
    totalPayments := u.completedPurchases
    createdAt := u.createdAt
    lastPaymentFailed := paymentFailed u.lastFailedPurchaseAt u.lastCompletedPurchaseAt
    isPaidUser := 0 < u.completedPurchases
    isLowBalance
    daysSinceCreated := now.elapsed u.createdAt millisPerDay
    tags := u.tags
    lastGenerationAt := u.lastGenerationAt
    lastPaymentAt := u.lastCompletedPurchaseAt
    preferredModel := u.lastGenerationModel
    hoursSinceLastPay := u.lastCompletedPurchaseAt.map (now.elapsed · millisPerHour)
    hoursSinceLastGen := u.lastGenerationAt.map (now.elapsed · millisPerHour)
    hoursSinceLastActivity := u.lastActiveAt.map (now.elapsed · millisPerHour)
    activeOverlays := u.activeOverlays }

def isFreeloader (c : Context) : Bool :=
  0 < c.totalGenerations && c.totalPayments = 0 && c.isLowBalance

def isDead (c : Context) : Bool := c.totalGenerations = 0

def fields : List (String × (Context → Json)) := [
  ("credits_balance", fun c => .int c.credits),
  ("total_generations", fun c => .int (c.totalGenerations : Int)),
  ("total_payments", fun c => .int (c.totalPayments : Int)),
  ("is_paid_user", fun c => .bool c.isPaidUser),
  ("user_tags", fun c => .list c.tags),
  ("preferred_model", fun c => c.preferredModel),
  ("last_payment_failed", fun c => .bool c.lastPaymentFailed),
  ("days_since_created", fun c => .real c.daysSinceCreated),
  ("hours_since_last_pay", fun c => .ofOption .real c.hoursSinceLastPay),
  ("hours_since_last_gen", fun c => .ofOption .real c.hoursSinceLastGen),
  ("hours_since_last_activity", fun c => .ofOption .real c.hoursSinceLastActivity),
  ("is_low_balance", fun c => .bool c.isLowBalance),
  ("is_freeloader", fun c => .bool c.isFreeloader),
  ("is_dead", fun c => .bool c.isDead)]

def knownFields : List String := fields.map (·.1)

def value (c : Context) (field : String) : Json :=
  match fields.lookup field with
  | some read => read c
  | none => .null

def resolve (c : Context) (field : Json) : Except Fault Json :=
  match field with
  | .text name => .ok (c.value name)
  | v => if v.isKey then .ok .null else .error (.misuse (.keyOf v.kind))

def encode (c : Context) : Json := .record [
  ("userId", .text c.userId),
  ("userTags", .list c.tags),
  ("credits", .int c.credits),
  ("totalGenerations", .int (c.totalGenerations : Int)),
  ("totalPayments", .int (c.totalPayments : Int)),
  ("lastGenerationAt", .ofOption .ofTimestamp c.lastGenerationAt),
  ("lastPaymentAt", .ofOption .ofTimestamp c.lastPaymentAt),
  ("lastPaymentFailed", .bool c.lastPaymentFailed),
  ("createdAt", .ofTimestamp c.createdAt),
  ("preferredModel", c.preferredModel),
  ("isPaidUser", .bool c.isPaidUser),
  ("isLowBalance", .bool c.isLowBalance),
  ("daysSinceCreated", .real c.daysSinceCreated),
  ("hoursSinceLastPay", .ofOption .real c.hoursSinceLastPay),
  ("hoursSinceLastGen", .ofOption .real c.hoursSinceLastGen),
  ("hoursSinceLastActivity", .ofOption .real c.hoursSinceLastActivity),
  ("activeOverlays", .list c.activeOverlays)]

end Context
end Lifecycle
