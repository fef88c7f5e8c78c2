import Lifecycle.Number.Double

namespace Lifecycle

-- A value of the wire format. Integers and doubles stay apart, since they are
-- written apart; a record keeps its fields in the order in which they came.
inductive Json where
  | null
  | bool (b : Bool)
  | int (i : Int)
  | real (d : Double)
  | text (s : String)
  | list (items : List Json)
  | record (fields : List (String × Json))
deriving Inhabited

namespace Json

inductive Kind where
  | null | bool | int | real | text | list | record
deriving DecidableEq, Repr

def kind : Json → Kind
  | .null => .null
  | .bool _ => .bool
  | .int _ => .int
  | .real _ => .real
  | .text _ => .text
  | .list _ => .list
  | .record _ => .record

def Kind.name : Kind → String
  | .null => "NoneType"
  | .bool => "bool"
  | .int => "int"
  | .real => "float"
  | .text => "str"
  | .list => "list"
  | .record => "dict"

def number? : Json → Option Number
  | .bool b => some (.int (if b then 1 else 0))
  | .int i => some (.int i)
  | .real d => some (.real d)
  | _ => none

def isKey : Json → Bool
  | .list _ => false
  | .record _ => false
  | _ => true

def truthy : Json → Bool
  | .null => false
  | .bool b => b
  | .int i => i != 0
  | .real d => !d.isZero
  | .text s => !s.isEmpty
  | .list xs => !xs.isEmpty
  | .record fs => !fs.isEmpty

def ofOption {α : Type} (f : α → Json) : Option α → Json
  | none => .null
  | some a => f a

def texts (xs : List String) : Json := .list (xs.map .text)

def isConstant : Json → Bool
  | .real (.nan constant) => constant
  | _ => false

mutual
-- Equality of values: numbers by their place on the line, so that one, one
-- point zero and true are equal; records by their fields in any order. A
-- constant equals itself only as a part of lists and records.
def same : Json → Json → Bool
  | .null, .null => true
  | .text s, .text t => s = t
  | .list xs, .list ys => sameItems xs ys
  | .record fs, .record gs => fs.length = gs.length && sameFields fs gs
  | a, b => match a.number?, b.number? with
    | some x, some y => x.eq y
    | _, _ => false

def sameItems : List Json → List Json → Bool
  | [], [] => true
  | x :: xs, y :: ys => ((x.isConstant && y.isConstant) || same x y) && sameItems xs ys
  | _, _ => false

def sameFields : List (String × Json) → List (String × Json) → Bool
  | [], _ => true
  | (k, v) :: rest, gs =>
    (match gs.lookup k with
      | some w => (v.isConstant && w.isConstant) || same v w
      | none => false) && sameFields rest gs
end

mutual
def identical : Json → Json → Bool
  | .null, .null => true
  | .bool a, .bool b => a = b
  | .int a, .int b => a = b
  | .real a, .real b => a = b
  | .text a, .text b => a = b
  | .list xs, .list ys => identicalItems xs ys
  | .record fs, .record gs => fs.length = gs.length && identicalFields fs gs
  | _, _ => false

def identicalItems : List Json → List Json → Bool
  | [], [] => true
  | x :: xs, y :: ys => identical x y && identicalItems xs ys
  | _, _ => false

def identicalFields : List (String × Json) → List (String × Json) → Bool
  | [], _ => true
  | (k, v) :: rest, gs =>
    (match gs.lookup k with
      | some w => identical v w
      | none => false) && identicalFields rest gs
end

end Json
end Lifecycle
