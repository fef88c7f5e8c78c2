import Lifecycle.Evaluation
import Lifecycle.Record.Graph

namespace Lifecycle

inductive Event where
  | botStart
  | paymentCompleted
  | firstGeneration
  | generationCompleted
  | userBlocked
  | userUnblocked
deriving DecidableEq, Repr

namespace Event

def names : List (String × Event) := [
  ("BOT_START", .botStart), ("PAYMENT_COMPLETED", .paymentCompleted),
  ("FIRST_GENERATION", .firstGeneration), ("GENERATION_COMPLETED", .generationCompleted),
  ("USER_BLOCKED", .userBlocked), ("USER_UNBLOCKED", .userUnblocked)]

def ofJson? : Json → Option Event
  | .text s => names.lookup s
  | _ => none

end Event

structure Situation where
  stage : Stage
  context : Context
  blocked : Bool
  blockedName : Json

namespace Transition

-- Whether the trigger may already have fired, judged by history alone. Time
-- leaves no trace; an event that history does not show counts only under conditions.
def isImplied (t : Transition) (s : Situation) : Bool :=
  match t.trigger with
  | .time => false
  | .event =>
    match Event.ofJson? t.event with
    | some .botStart => true
    | some .paymentCompleted => 0 < s.context.totalPayments
    | some .firstGeneration => 0 < s.context.totalGenerations
    | some .generationCompleted => 0 < s.context.totalGenerations
    | some .userBlocked => s.blocked
    | some .userUnblocked => !s.blocked && s.stage.name.same s.blockedName
    | none => !t.conditions.isEmpty

def idNumber? (id : String) : Option Nat :=
  if !id.isEmpty && id.toList.all Text.isAsciiDigit then some (Text.natOfAscii id.toList) else none

def idAtMost (a b : String) : Bool :=
  match idNumber? a, idNumber? b with
  | some m, some n => m < n || (m = n && a ≤ b)
  | some _, none => true
  | none, some _ => false
  | none, none => a ≤ b

def isBefore (a b : Transition) : Bool :=
  b.priority < a.priority || (a.priority = b.priority && idAtMost a.id b.id)

-- A numeric id that is too long to be read stops the ordering.
def checkId (t : Transition) : Except Fault Unit :=
  if (idNumber? t.id).isSome && Numeral.digitLimit < t.id.length then
    .error (.numeral (.tooManyDigits t.id.length))
  else .ok ()

def inOrder (ts : List Transition) : Except Fault (List Transition) := do
  ts.forM checkId
  return ts.mergeSort isBefore

end Transition

structure Selection where
  transition : Option Transition
  evaluated : Nat

namespace Selection

def scan (s : Situation) (evaluated : Nat) : List Transition → Except Fault Selection
  | [] => .ok ⟨none, evaluated⟩
  | t :: rest =>
    if t.isImplied s then
      match Condition.evaluate s.context t.conditions with
      | .error e => .error e
      | .ok true => .ok ⟨some t, evaluated + 1⟩
      | .ok false => scan s (evaluated + 1) rest
    else scan s (evaluated + 1) rest

def choose (s : Situation) (candidates : List Transition) : Except Fault Selection :=
  match Transition.inOrder candidates with
  | .error e => .error e
  | .ok ordered => scan s 0 ordered

end Selection
end Lifecycle
