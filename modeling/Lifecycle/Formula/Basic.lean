import Lifecycle.Text.Basic

namespace Lifecycle

namespace Formula

-- How two parts are joined. A tree from elsewhere may name a joint that is
-- neither of the two; it is written by its name and read as a choice.
inductive Joint where
  | conj
  | disj
  | other (name : String)
deriving DecidableEq, Repr

def Joint.name : Joint → String
  | .conj => "AND"
  | .disj => "OR"
  | .other name => name

def Joint.ofName (name : String) : Joint :=
  if name = "AND" then .conj else if name = "OR" then .disj else .other name

structure Leaf where
  field : String
  operator : String
  value : String
deriving DecidableEq, Repr

end Formula

inductive Formula (α : Type) where
  | leaf (a : α)
  | node (joint : Formula.Joint) (left right : Formula α)
deriving DecidableEq, Repr

namespace Formula
variable {α β : Type}

def leaves : Formula α → List α
  | .leaf a => [a]
  | .node _ left right => left.leaves ++ right.leaves

def map (f : α → β) : Formula α → Formula β
  | .leaf a => .leaf (f a)
  | .node joint left right => .node joint (left.map f) (right.map f)

def traverse {ε : Type} (f : α → Except ε β) : Formula α → Except ε (Formula β)
  | .leaf a => do return .leaf (← f a)
  | .node joint left right => do return .node joint (← left.traverse f) (← right.traverse f)

-- Leaves with the number of their group. A conjunction keeps the group, any
-- other joint opens a new one for its right part; the counter is the number of
-- the last group that was opened.
def groupedFrom (group counter : Nat) : Formula α → List (Nat × α) × Nat
  | .leaf a => ([(group, a)], counter)
  | .node .conj left right =>
    let (first, counter) := left.groupedFrom group counter
    let (second, counter) := right.groupedFrom group counter
    (first ++ second, counter)
  | .node _ left right =>
    let (first, counter) := left.groupedFrom group counter
    let (second, counter) := right.groupedFrom (counter + 1) (counter + 1)
    (first ++ second, counter)

def grouped (formula : Formula α) : List (Nat × α) := (formula.groupedFrom 0 0).1

def chain? (joint : Joint) : List (Formula α) → Option (Formula α)
  | [] => none
  | first :: rest => some (rest.foldl (.node joint) first)

def ofGroups? (groups : List (List α)) : Option (Formula α) :=
  chain? .disj (groups.filterMap fun group => chain? .conj (group.map .leaf))

def operatorNames : List (String × String) := [
  ("==", "EQUALS"), ("!=", "NOT_EQUALS"), (">", "GT"), (">=", "GTE"), ("<", "LT"), ("<=", "LTE"),
  ("in", "IN"), ("!in", "NOT_IN"), ("exists", "EXISTS"), ("!exists", "NOT_EXISTS")]

def operatorName (written : String) : String := (operatorNames.lookup written).getD written

def writtenOperator (name : String) : String :=
  ((operatorNames.find? fun pair => pair.2 = name).map (·.1)).getD name

end Formula
end Lifecycle

namespace Lifecycle.Formula

def isNumberText (cs : List Char) : Bool :=
  let body := match cs with
    | '-' :: rest => rest
    | _ => cs
  let whole := body.takeWhile Text.isDigit
  let rest := match body.dropWhile Text.isDigit with
    | '.' :: tail =>
      if (tail.takeWhile Text.isDigit).isEmpty then '.' :: tail else tail.dropWhile Text.isDigit
    | tail => tail
  !whole.isEmpty && (rest.isEmpty || rest = ['\n'])

def literal (value : String) : String :=
  if isNumberText value.toList || value = "true" || value = "false" then value
  else if value.toList.contains '"' then "'" ++ value ++ "'"
  else "\"" ++ value ++ "\""

def Leaf.render (c : Leaf) : String :=
  c.field ++ " " ++ writtenOperator c.operator ++ " " ++ literal c.value

def renderUnder (parent : Option Joint) : Formula Leaf → String
  | .leaf c => c.render
  | .node joint left right =>
    let text := left.renderUnder (some joint) ++ " " ++ joint.name ++ " " ++ right.renderUnder (some joint)
    if joint = .conj && parent = some .disj then "(" ++ text ++ ")" else text

def render (formula : Formula Leaf) : String := formula.renderUnder none

end Lifecycle.Formula
