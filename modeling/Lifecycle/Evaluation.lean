import Lifecycle.Context
import Lifecycle.Json.Reading
import Lifecycle.Record.Condition

namespace Lifecycle

inductive Relation where
  | equals
  | notEquals
  | greater
  | greaterOrEqual
  | less
  | lessOrEqual
  | contains
  | isIn
  | isNotIn
  | isPresent
  | isMissing
deriving DecidableEq, Repr

namespace Relation

def names : List (String × Relation) := [
  ("EQUALS", .equals), ("NOT_EQUALS", .notEquals), ("GT", .greater), ("GTE", .greaterOrEqual),
  ("LT", .less), ("LTE", .lessOrEqual), ("CONTAINS", .contains), ("IN", .isIn),
  ("NOT_IN", .isNotIn), ("EXISTS", .isPresent), ("NOT_EXISTS", .isMissing),
  ("GREATER_THAN", .greater), ("GREATER_OR_EQUAL", .greaterOrEqual),
  ("LESS_THAN", .less), ("LESS_OR_EQUAL", .lessOrEqual)]

def ofName? (name : String) : Option Relation := names.lookup name

-- A text in ASCII decimal notation, blanks around it aside: an integer when it
-- is all digits and not too long, else a double. A double out of range is no number.
def numeral? (s : String) : Option Number :=
  let cs := Text.trimChars s.toList
  let (negative, body) := match cs with
    | '-' :: rest => (true, rest)
    | _ => (false, cs)
  if !body.isEmpty && body.all Text.isAsciiDigit && body.length ≤ Numeral.digitLimit then
    some (.int (Numeral.signed negative (Text.natOfAscii body)))
  else
    match Numeral.readDecimal negative body with
    | some (.finite s steps) => some (.real (.finite s steps))
    | _ => none

def coerce : Json → Json
  | .null => .null
  | .bool b => .bool b
  | .int i => .int i
  | .real d => .real d
  | v =>
    let s := v.display
    if s = "true" then .bool true
    else if s = "false" then .bool false
    else match numeral? s with
      | some (.int i) => .int i
      | some (.real d) => .real d
      | none => .text s

def asNumber? : Json → Option Number
  | .int i => some (.int i)
  | .real (.nan _) => none
  | .real d => some (.real d)
  | .text s => numeral? s
  | _ => none

mutual
-- The text that a live value is taken for: a whole double has no fraction, a
-- list is written with commas, a missing value is empty.
def asText : Json → String
  | .null => ""
  | .bool b => if b then "true" else "false"
  | .real d => match d.whole? with
    | some i => Text.decimalOfInt i
    | none => d.text
  | .list xs => ",".intercalate (itemTexts xs)
  | v => v.display

def itemTexts : List Json → List String
  | [] => []
  | x :: xs => asText x :: itemTexts xs
end

def asEqualNumber? : Json → Option Number
  | .bool b => some (.int (if b then 1 else 0))
  | v => asNumber? v

-- Values of one kind are compared as they are, a list by its text; across kinds
-- only numbers can be equal. A missing value equals another one alone.
def looselyEqual (current target : Json) : Bool :=
  if current.kind = .null || target.kind = .null then current.kind = target.kind
  else
    let current := if current.kind = .list then .text (asText current) else current
    if current.kind = target.kind then current.same target
    else match asEqualNumber? current, asEqualNumber? target with
      | some x, some y => x.eq y
      | _, _ => false

def ordered (holds : Number → Number → Bool) (current target : Json) : Bool :=
  match asNumber? current, asNumber? target with
  | some x, some y => holds x y
  | _, _ => false

def containedIn (current target : Json) : Bool :=
  match current with
  | .list xs => xs.any fun x => looselyEqual x target && x.kind = target.kind
  | .text s => Text.occursIn (asText target).toList s.toList
  | _ => false

def memberTexts (target : Json) : List String := (Text.split ',' (asText target)).map Text.trim

def isMember (current target : Json) : Bool :=
  let members := memberTexts target
  match current with
  | .list xs => xs.any fun x => members.contains (asText x)
  | .null => false
  | v => members.contains (asText v)

def holds (r : Relation) (current target : Json) : Bool :=
  match r with
  | .equals => looselyEqual current (coerce target)
  | .notEquals => !looselyEqual current (coerce target)
  | .greater => ordered (fun x y => y.lt x) current (coerce target)
  | .greaterOrEqual => ordered (fun x y => y.le x) current (coerce target)
  | .less => ordered Number.lt current (coerce target)
  | .lessOrEqual => ordered Number.le current (coerce target)
  | .contains => containedIn current (coerce target)
  | .isIn => isMember current target
  | .isNotIn => !isMember current target
  | .isPresent => current.kind ≠ .null
  | .isMissing => current.kind = .null

def compare (current operator target : Json) : Except Fault Bool :=
  match operator with
  | .text name => .ok (((ofName? name).map fun r => r.holds current target).getD false)
  | v => if v.isKey then .ok false else .error (.misuse (.keyOf v.kind))

end Relation

namespace Condition

def check (ctx : Context) (c : Condition) : Except Fault Bool :=
  match ctx.resolve c.field with
  | .error e => .error e
  | .ok current => Relation.compare current c.operator (.text c.value)

def allHold (ctx : Context) : List Condition → Except Fault Bool
  | [] => .ok true
  | c :: rest =>
    match c.check ctx with
    | .error e => .error e
    | .ok false => .ok false
    | .ok true => allHold ctx rest

def anyHolds (ctx : Context) : List (Nat × List Condition) → Except Fault Bool
  | [] => .ok false
  | g :: rest =>
    match allHold ctx g.2 with
    | .error e => .error e
    | .ok true => .ok true
    | .ok false => anyHolds ctx rest

def evaluate (ctx : Context) (cs : List Condition) : Except Fault Bool :=
  if cs.isEmpty then .ok true else anyHolds ctx (groups cs)

structure Finding where
  condition : Condition
  actual : Json
  passed : Bool

def trace (ctx : Context) (cs : List Condition) : Except Fault (List Finding) :=
  cs.mapM fun c => do
    let actual ← ctx.resolve c.field
    let passed ← Relation.compare actual c.operator (.text c.value)
    return ⟨c, actual, passed⟩

end Condition

structure Rule where
  id : String
  name : Json
  trigger : Json
  conditions : List Condition
  details : Json

namespace Rule

def decode (v : Json) : Except Fault Rule := do
  let id ← v.field "id"
  let name ← v.fieldOr "name" (.text "")
  let trigger ← v.fieldOrNull "trigger"
  let conditions ← (← (← v.fieldOr "conditions" (.list [])).items).mapM Condition.decode
  let details ← v.fieldOr "meta" (.record [])
  return ⟨id.display, name, trigger, conditions, details⟩

def simulate (ctx : Context) (rules : List Rule) : Except Fault (List Rule) :=
  rules.filterM fun r => Condition.evaluate ctx r.conditions

end Rule
end Lifecycle
