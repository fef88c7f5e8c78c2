import Lifecycle.Config
import Lifecycle.Record.Action
import Lifecycle.Record.Facts
import Lifecycle.StockGraph
import Lifecycle.Store

namespace Lifecycle.Timestamp

def maxSpanDays : Nat := 999999999

def wordBound : Nat := twoPow 31

def checkSpan (micros : Int) : Except Fault Int :=
  let days := micros.fdiv (microsPerDay : Int)
  if days < -(wordBound : Int) || (wordBound : Int) ≤ days then .error .wideSpan
  else if maxSpanDays < days.natAbs then .error (.daySpan days)
  else .ok micros

def spanOfDays (days : Int) : Except Fault Int := checkSpan (days * (microsPerDay : Int))

-- Whole hours count exactly; the fraction is scaled as a double, and the sum
-- goes to the nearest microsecond.
def spanOfHours : Double → Except Fault Int
  | .nan _ => .error (.numeral .nanInteger)
  | .infinite _ => .error (.numeral .infiniteInteger)
  | .finite negative steps =>
    let whole := steps / Double.unit * microsPerHour
    let fraction := match (Double.finite false (steps % Double.unit)).mul (.ofQuotient microsPerHour 1) with
      | .finite _ part => part
      | _ => 0
    checkSpan (Double.signedSteps negative (Double.nearest (whole * Double.unit + fraction) Double.unit))

def plus (t : Timestamp) (span : Int) : Except Fault Timestamp :=
  match t.shift? span with
  | some moved => .ok moved
  | none => .error .dateRange

def minus (t : Timestamp) (span : Int) : Except Fault Timestamp := t.plus (-span)

end Lifecycle.Timestamp

namespace Lifecycle.Scenario

inductive Entry where
  | number
  | text
  | choice (options : List String)
deriving DecidableEq, Repr

structure Field where
  name : String
  label : String
  entry : Entry
  fallback : Json
  help : Option String

namespace Field

def entryFields : Entry → List (String × Json)
  | .number => [("type", .text "number")]
  | .text => [("type", .text "text")]
  | .choice options => [("type", .text "select"), ("options", .texts options)]

def encode (f : Field) : Json := .record (
  [("name", .text f.name), ("label", .text f.label), ("default", f.fallback)] ++ entryFields f.entry ++
    (f.help.toList.map fun s => ("help", .text s)))

end Field

def number (name label : String) (fallback : Int) : Field := ⟨name, label, .number, .int fallback, none⟩
def line (name label fallback : String) : Field := ⟨name, label, .text, .text fallback, none⟩
def choice (name label fallback : String) (options : List String) : Field :=
  ⟨name, label, .choice options, .text fallback, none⟩

def yesOrNo : List String := ["yes", "no"]

def subjectFields : List Field := [
  { number "credits" "Credits" 100 with help := some ("Low balance below " ++ Config.defaultThreshold.display) },
  number "total_generated" "Total Generations" 5,
  number "payments" "Completed Payments" 0,
  number "days_old" "Account Age (days)" 30,
  number "idle_hours" "Hours Since Last Activity" 24,
  choice "failed_after_payment" "Payment Failed Since?" "no" yesOrNo,
  choice "is_blocked" "Blocked?" "no" yesOrNo]

structure Form where
  id : String
  name : String
  icon : String
  description : String
  fields : List Field

def Form.encode (f : Form) : Json := .record [
  ("id", .text f.id), ("name", .text f.name), ("icon", .text f.icon), ("description", .text f.description),
  ("fields", .list (f.fields.map Field.encode))]

def validationForm : Form where
  id := "formula_validate"
  name := "Formula Validation"
  icon := "🧮"
  description := "Parse a formula, show its grouped conditions and the normalized formula."
  fields := [
    line "formula" "Formula" "(credits_balance < 20 AND total_payments == 0) OR is_dead == true",
    choice "expect_valid" "Expect Valid?" "yes" yesOrNo]

def evaluationForm : Form where
  id := "condition_eval"
  name := "Condition Evaluation"
  icon := "✅"
  description := "Evaluate a formula against a synthetic user's derived context."
  fields :=
    [line "formula" "Formula" "is_freeloader == true OR hours_since_last_activity > 336"] ++ subjectFields ++
    [choice "expected" "Expected Result" "false" ["true", "false"]]

def immersionForm : Form where
  id := "immersion"
  name := "Immersion (Default Graph)"
  icon := "🧭"
  description := "Replay a synthetic user through the default lifecycle graph."
  fields := subjectFields ++ [choice "expected_state" "Expected State" "ACTIVE_FREE" StockGraph.stageNames]

def dispatchForm : Form where
  id := "manual_action"
  name := "Manual Action Dispatch"
  icon := "📨"
  description := "Dispatch an operator action to a user, optionally gated by a formula."
  fields :=
    [choice "action_type" "Action Type" "TAG_USER" (ActionType.all.map ActionType.name),
      line "config" "Config (JSON)" "\x7b\"tag\": \"vip\"\x7d",
      line "gate" "Gate Formula (optional)" "is_low_balance == true"] ++ subjectFields ++
    [choice "expected_outcome" "Expected Outcome" "skipped" ["success", "skipped", "failed"]]

def determinismForm : Form where
  id := "replay_determinism"
  name := "Replay Determinism"
  icon := "🔁"
  description := "Generate a dataset, immerse it twice from scratch and compare assignment hashes."
  fields := [number "count" "Users" 100, number "seed" "Seed" 42]

abbrev Answers := Json

def subjectId : String := "scenario-user"

def affirmed (v : Json) : Bool := v.same (.text "yes") || v.same (.bool true)

def lastPaid (now : Timestamp) (daysOld payments : Int) : Except Fault (Option Timestamp) :=
  if payments = 0 then .ok none
  else do return some (← now.minus (← Timestamp.spanOfDays (max (daysOld.fdiv 2) 0)))

def lastFailed (paid : Option Timestamp) (created : Timestamp) (failed : Bool) :
    Except Fault (Option Timestamp) :=
  if failed then do return some (← (paid.getD created).plus (Timestamp.microsPerHour : Int))
  else .ok none

def subject (now : Timestamp) (v : Answers) : Except Fault UserFacts := do
  let daysOld ← (← v.fieldOr "days_old" (.int 30)).toInt
  let createdAt ← now.minus (← Timestamp.spanOfDays daysOld)
  let generated ← (← v.fieldOr "total_generated" (.int 0)).toInt
  let payments ← (← v.fieldOr "payments" (.int 0)).toInt
  let lastCompletedPurchaseAt ← lastPaid now daysOld payments
  let failed := affirmed (← v.fieldOr "failed_after_payment" (.text "no"))
  let lastFailedPurchaseAt ← lastFailed lastCompletedPurchaseAt createdAt failed
  let credits ← (← v.fieldOr "credits" (.int 0)).toInt
  let idle ← (← v.fieldOr "idle_hours" (.int 0)).toReal
  let lastActiveAt ← now.minus (← Timestamp.spanOfHours idle)
  let isBlocked := affirmed (← v.fieldOr "is_blocked" (.text "no"))
  let (completedPurchases, totalGenerated) ← UserFacts.checkCounts payments generated subjectId
  return {
    id := subjectId
    credits, createdAt, totalGenerated, isBlocked, completedPurchases, lastCompletedPurchaseAt
    lastFailedPurchaseAt
    tags := []
    lastActiveAt := some lastActiveAt
    lastGenerationAt := if generated = 0 then none else some createdAt
    lastGenerationModel := if generated = 0 then .null else .text "sdxl"
    activeOverlays := [] }

def storeOf (u : UserFacts) : Store :=
  .ofRecords [StockGraph.version 1] (StockGraph.stages 1) (StockGraph.transitions 1) [u] []

end Lifecycle.Scenario
