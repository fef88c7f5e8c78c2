import Lifecycle.Fault

namespace Lifecycle.Json

def field (v : Json) (key : String) : Except Fault Json :=
  match v with
  | .record fields =>
    match fields.lookup key with
    | some value => .ok value
    | none => .error (.missingKey key)
  | v => .error (.misuse (.fieldOf v.kind))

def field? (v : Json) (key : String) : Except Fault (Option Json) :=
  match v with
  | .record fields => .ok (fields.lookup key)
  | v => .error (.lacksOperation v.kind "get")

def fieldOr (v : Json) (key : String) (fallback : Json) : Except Fault Json :=
  match v.field? key with
  | .ok found => .ok (found.getD fallback)
  | .error e => .error e

def fieldOrNull (v : Json) (key : String) : Except Fault Json := v.fieldOr key .null

def toInt : Json → Except Fault Int
  | .bool b => .ok (if b then 1 else 0)
  | .int i => .ok i
  | .real d => (Numeral.truncate d).mapError .numeral
  | .text s => (Numeral.readInteger s).mapError .numeral
  | v => .error (.misuse (.integerOf v.kind))

def toReal : Json → Except Fault Double
  | .bool b => .ok (if b then .ofQuotient 1 1 else .finite false 0)
  | .int i => (Numeral.realOfInteger i).mapError .numeral
  | .real d => .ok d
  | .text s => (Numeral.readReal s).mapError .numeral
  | v => .error (.misuse (.realOf v.kind))

def items : Json → Except Fault (List Json)
  | .list xs => .ok xs
  | .text s => .ok (s.toList.map fun c => .text c.toString)
  | .record fields => .ok (fields.map fun f => .text f.1)
  | v => .error (.misuse (.itemsOf v.kind))

def toTimestamp? : Json → Except Fault (Option Timestamp)
  | .null => .ok none
  | .text "" => .ok none
  | v =>
    let spelled := v.display.toList.flatMap fun c => if c = 'Z' then "+00:00".toList else [c]
    match Timestamp.parse (String.ofList spelled) with
    | .ok t => .ok (some t)
    | .error e => .error (.timestamp e)

def ofTimestamp (t : Timestamp) : Json := .text t.text

def compareWith (sign : String) (holds : Number → Number → Bool) (a b : Json) : Except Fault Bool :=
  match a.number?, b.number? with
  | some x, some y => .ok (holds x y)
  | _, _ => .error (.misuse (.order sign a.kind b.kind))

def toBound? : Json → Except Fault (Option Int)
  | .null => .ok none
  | .bool b => .ok (some (if b then 1 else 0))
  | .int i => .ok (some i)
  | _ => .error (.misuse .bound)

end Lifecycle.Json

namespace Lifecycle

def takeBound {α : Type} (bound : Option Int) (xs : List α) : List α :=
  match bound with
  | none => xs
  | some n => if 0 ≤ n then xs.take n.toNat else xs.take (xs.length - n.natAbs)

end Lifecycle
