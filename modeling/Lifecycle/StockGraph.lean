import Lifecycle.Record.Graph

namespace Lifecycle

namespace StockGraph

def stageTable : List (String × Bool × Bool) := [
  ("NEW", true, false),
  ("ACTIVATING", false, false),
  ("ACTIVE_FREE", false, false),
  ("PAYWALL", false, false),
  ("PAID_ACTIVE", false, false),
  ("INACTIVE", false, false),
  ("CHURNED", false, true),
  ("BLOCKED", false, false)]

def stageNames : List String := stageTable.map (·.1)

def tagged (version : Int) (name : String) : String := "v" ++ Text.decimalOfInt version ++ "-" ++ name

def stageId (version : Int) (name : String) : String := tagged version (Text.lower name)

def version (id : Int) : Version := ⟨id, .text ("lifecycle-v" ++ Text.decimalOfInt id), true⟩

def stages (id : Int) : List Stage :=
  stageTable.map fun (name, isInitial, isTerminal) => ⟨stageId id name, .text name, id, isInitial, isTerminal⟩

def condition (field operator value : String) (groupId : Nat) : Condition :=
  { field := .text field, operator := .text operator, value, groupId }

def welcome : Action := ⟨.message "Welcome aboard!" .null none none, 0⟩

def starterPack : Package := ⟨"Starter", .ofDecimal false 499 (-2), 100⟩

def deal : Action := ⟨.offer .null (some starterPack) "Out of credits? Here is a deal.", 0⟩

def gift : Action := ⟨.bonus ⟨30, 24, none, none⟩, 1⟩

def tagPayer : Action := ⟨.tag "payer", 0⟩

def onEvent (version : Int) (id source target : String) (priority : Int) (event : String)
    (conditions : List Condition) (actions : List Action) : Transition where
  id := tagged version id
  source := stageId version source
  target := stageId version target
  versionId := version
  trigger := .event
  event := if event.isEmpty then .null else .text event
  timeoutMinutes := none
  priority := priority
  conditions := conditions
  actions := actions

def onTimeout (version : Int) (id source target : String) (priority minutes : Int) : Transition :=
  { onEvent version id source target priority "" [] [] with trigger := .time, timeoutMinutes := some minutes }

def transitions (v : Int) : List Transition := [
  onEvent v "t01" "NEW" "BLOCKED" 100 "USER_BLOCKED" [] [],
  onEvent v "t02" "NEW" "ACTIVATING" 10 "BOT_START" [] [welcome],
  onEvent v "t03" "ACTIVATING" "BLOCKED" 100 "USER_BLOCKED" [] [],
  onEvent v "t04" "ACTIVATING" "PAID_ACTIVE" 50 "PAYMENT_COMPLETED" [] [tagPayer],
  onEvent v "t05" "ACTIVATING" "ACTIVE_FREE" 10 "FIRST_GENERATION" [] [],
  onEvent v "t06" "ACTIVATING" "CHURNED" 5 ""
    [condition "is_dead" "EQUALS" "true" 0, condition "days_since_created" "GT" "14" 0] [],
  onEvent v "t07" "ACTIVE_FREE" "BLOCKED" 100 "USER_BLOCKED" [] [],
  onEvent v "t08" "ACTIVE_FREE" "PAID_ACTIVE" 50 "PAYMENT_COMPLETED" [] [tagPayer],
  onEvent v "t09" "ACTIVE_FREE" "PAYWALL" 20 "CREDITS_ZERO"
    [condition "is_low_balance" "EQUALS" "true" 0] [deal, gift],
  onEvent v "t10" "PAYWALL" "PAID_ACTIVE" 50 "PAYMENT_COMPLETED" [] [tagPayer],
  onEvent v "t11" "PAYWALL" "CHURNED" 10 "TIMEOUT"
    [condition "hours_since_last_activity" "GT" "720" 0] [],
  onEvent v "t12" "PAID_ACTIVE" "INACTIVE" 10 "TIMEOUT"
    [condition "hours_since_last_activity" "GT" "336" 0, condition "last_payment_failed" "EQUALS" "true" 1] [],
  onTimeout v "t13" "INACTIVE" "CHURNED" 10 43200,
  onEvent v "t14" "BLOCKED" "ACTIVATING" 100 "USER_UNBLOCKED" [] []]

end StockGraph
end Lifecycle
