import Lifecycle.Json.Reading

namespace Lifecycle

structure Config where
  lowBalanceThreshold : Json
  maxDepth : Json
  blockedStageName : Json
  ioTimeoutSeconds : Json
  immersionBatchLimit : Json
  actionBatchLimit : Json

namespace Config

def defaultThreshold : Json := .int 20
def defaultBlockedName : Json := .text "BLOCKED"

def standard : Config where
  lowBalanceThreshold := defaultThreshold
  maxDepth := .int 50
  blockedStageName := defaultBlockedName
  ioTimeoutSeconds := .real (.ofQuotient 5 1)
  immersionBatchLimit := .int 1000
  actionBatchLimit := .int 100

def set (c : Config) (name : String) (v : Json) : Except Fault Config :=
  match name with
  | "low_balance_threshold" => .ok { c with lowBalanceThreshold := v }
  | "max_depth" => .ok { c with maxDepth := v }
  | "blocked_state_name" => .ok { c with blockedStageName := v }
  | "io_timeout_seconds" => .ok { c with ioTimeoutSeconds := v }
  | "immersion_batch_limit" => .ok { c with immersionBatchLimit := v }
  | "action_batch_limit" => .ok { c with actionBatchLimit := v }
  | _ => .error (.misuse (.unknownSetting name))

def below (v : Json) (bound : Int) : Except Fault Bool := Json.compareWith "<" Number.lt v (.int bound)

def atMost (v : Json) (bound : Int) : Except Fault Bool := Json.compareWith "<=" Number.le v (.int bound)

def check (c : Config) : Except Fault Config := do
  if ← below c.maxDepth 1 then throw (.maxDepth c.maxDepth)
  if ← atMost c.ioTimeoutSeconds 0 then throw (.ioTimeout c.ioTimeoutSeconds)
  if ← below c.immersionBatchLimit 1 then throw .batchLimit
  if ← below c.actionBatchLimit 1 then throw .batchLimit
  return c

def setAll (c : Config) (settings : List (String × Json)) : Except Fault Config :=
  settings.foldlM (fun c s => c.set s.1 s.2) c

def ofSettings (settings : List (String × Json)) : Except Fault Config := do
  (← standard.setAll settings).check

def withOverrides (c : Config) (settings : List (String × Json)) : Except Fault Config := do
  (← c.setAll (settings.filter fun s => s.2.kind ≠ .null)).check

def variableStem : String := "LIFECYCLE_"

inductive Cast where
  | integer
  | real
  | text

def Cast.read (s : String) : Cast → Except NumeralError Json
  | .integer => (Numeral.readInteger s).map .int
  | .real => (Numeral.readReal s).map .real
  | .text => .ok (.text s)

def bindings : List (String × String × Cast) := [
  ("low_balance_threshold", "LOW_BALANCE_THRESHOLD", .integer),
  ("max_depth", "MAX_DEPTH", .integer),
  ("blocked_state_name", "BLOCKED_STATE", .text),
  ("io_timeout_seconds", "IO_TIMEOUT", .real),
  ("immersion_batch_limit", "IMMERSION_BATCH_LIMIT", .integer),
  ("action_batch_limit", "ACTION_BATCH_LIMIT", .integer)]

def readVariable (environment : List (String × String)) (setting key : String) (cast : Cast) :
    Except Fault (Option (String × Json)) :=
  let name := variableStem ++ key
  match environment.lookup name with
  | none => .ok none
  | some raw =>
    let trimmed := Text.trim raw
    if trimmed.isEmpty then .ok none
    else match cast.read trimmed with
      | .ok v => .ok (some (setting, v))
      | .error _ => .error (.variable name raw)

def ofEnvironment (environment : List (String × String)) : Except Fault Config := do
  let found ← bindings.mapM fun (setting, key, cast) => readVariable environment setting key cast
  ofSettings (found.filterMap id)

def encode (c : Config) : Json := .record [
  ("low_balance_threshold", c.lowBalanceThreshold),
  ("max_depth", c.maxDepth),
  ("blocked_state_name", c.blockedStageName),
  ("io_timeout_seconds", c.ioTimeoutSeconds),
  ("immersion_batch_limit", c.immersionBatchLimit),
  ("action_batch_limit", c.actionBatchLimit)]

-- How many steps a run may take. An unbounded run that ends by itself visits no
-- stage twice, so for it as many steps as there are stages are enough.
def stepLimit (c : Config) (stages : Nat) : Nat :=
  match c.maxDepth.number? with
  | some (.int i) => i.toNat
  | some (.real (.finite false steps)) => (steps + Double.unit - 1) / Double.unit
  | some (.real (.infinite false)) => stages
  | _ => 0

end Config
end Lifecycle
