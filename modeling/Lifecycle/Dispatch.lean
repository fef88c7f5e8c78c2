import Lifecycle.Replay

namespace Lifecycle

structure Outcome where
  success : Bool
  error : Option String
  skipped : Bool
deriving DecidableEq, Repr

namespace Outcome

def done : Outcome := ⟨true, none, false⟩
def passedOver : Outcome := ⟨true, none, true⟩
def failed (error : String) : Outcome := ⟨false, some error, false⟩
def unmet : Outcome := ⟨false, some "Conditions not met", true⟩

def encode (o : Outcome) : Json := .record [
  ("success", .bool o.success), ("error", .ofOption .text o.error), ("skipped", .bool o.skipped)]

end Outcome

inductive Answer where
  | outcome (o : Outcome)
  | raised (message : String)

structure Attempt where
  user : String
  payload : Payload
  answer : Answer

-- What a dispatcher answers may depend on all that it was handed before.
abbrev Dispatcher := List Attempt → String → Payload → Answer

namespace Dispatch

def outcomeOf : Answer → Outcome
  | .outcome o => o
  | .raised message => .failed message

def deliver (d : Dispatcher) (user : String) (payload : Payload) (log : List Attempt) :
    Outcome × List Attempt :=
  let answer := d log user payload
  (outcomeOf answer, log ++ [⟨user, payload, answer⟩])

def deliverAll (d : Dispatcher) (user : String) :
    List Action → List Attempt → List Outcome × List Attempt
  | [], log => ([], log)
  | a :: rest, log =>
    if a.type = .noAction then
      let (outcomes, log) := deliverAll d user rest log
      (.passedOver :: outcomes, log)
    else
      let (outcome, log) := deliver d user a.payload log
      let (outcomes, log) := deliverAll d user rest log
      (outcome :: outcomes, log)

def transition (d : Dispatcher) (user : String) (t : Transition) (log : List Attempt) :
    List Outcome × List Attempt :=
  deliverAll d user t.orderedActions log

-- The payload of a manual action. A bad one makes the action fail, unless the
-- fault is none of the configuration's values.
def payload (type config : Json) : Except Fault (Except String Payload) :=
  if (ActionType.ofJson? type).isNone then .ok (.error ("Invalid action type: " ++ type.display))
  else match Payload.decode type config with
    | .ok p => .ok (.ok p)
    | .error f => if f.family = .badValue then .ok (.error f.message) else .error f

def context? (e : Engine) (s : Store) (user : String) : Except Fault (Option Context) :=
  match e.reach .userFacts with
  | .error f => .error f
  | .ok () =>
    match s.user? user with
    | none => .ok none
    | some facts => (Context.build facts e.now e.config.lowBalanceThreshold).map some

def manual (e : Engine) (s : Store) (d : Dispatcher) (type config : Json) (conditions : List Condition)
    (user : String) (log : List Attempt) : Except Fault (Outcome × List Attempt) :=
  match payload type config with
  | .error f => .error f
  | .ok (.error message) => .ok (.failed message, log)
  | .ok (.ok p) =>
    match context? e s user with
    | .error f => .error f
    | .ok none => .ok (.failed "User not found", log)
    | .ok (some context) =>
      match Condition.evaluate context conditions with
      | .error f => .error f
      | .ok false => .ok (.unmet, log)
      | .ok true => .ok (deliver d user p log)

structure Bulk where
  processed : Nat
  succeeded : Nat
  failed : Nat
  skipped : Nat
  limitReached : Bool
  results : List (String × Outcome)

def Bulk.count (b : Bulk) (user : String) (o : Outcome) : Bulk :=
  let b := { b with processed := b.processed + 1, results := put Prod.fst b.results (user, o) }
  if o.success then { b with succeeded := b.succeeded + 1 }
  else if o.skipped then { b with skipped := b.skipped + 1 }
  else { b with failed := b.failed + 1 }

def Bulk.encode (b : Bulk) : Json := .record [
  ("processed", .int (b.processed : Int)),
  ("success_count", .int (b.succeeded : Int)),
  ("fail_count", .int (b.failed : Int)),
  ("skipped_count", .int (b.skipped : Int)),
  ("limit_reached", .bool b.limitReached),
  ("results", .list (b.results.map fun (user, o) => .list [.text user, o.encode]))]

def each (s : Store) (d : Dispatcher) (type config : Json) (conditions : List Condition) :
    List Turn → Bulk → List Attempt → Except Fault (Bulk × List Attempt)
  | [], b, log => .ok (b, log)
  | turn :: rest, b, log =>
    match manual turn.engine s d type config conditions turn.user log with
    | .error f => .error f
    | .ok (o, log) => each s d type config conditions rest (b.count turn.user o) log

def bulk (e : Engine) (s : Store) (d : Dispatcher) (type config : Json) (conditions : List Condition)
    (users : List String) (limit : Json) (log : List Attempt) : Except Fault (Bulk × List Attempt) :=
  if users.isEmpty then .error .noUsers
  else
    let limit := if limit.kind = .null then e.config.actionBatchLimit else limit
    match Json.compareWith ">" (fun x y => y.lt x) (.int (users.length : Int)) limit with
    | .error f => .error f
    | .ok limitReached =>
      match limit.toBound? with
      | .error f => .error f
      | .ok bound =>
        each s d type config conditions (e.turns (takeBound bound users)) ⟨0, 0, 0, 0, limitReached, []⟩ log

end Dispatch
end Lifecycle
