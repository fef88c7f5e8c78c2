import Lifecycle.Record.Graph

namespace Lifecycle.Sorting

variable {α ε : Type}

-- Sorted lists are halved until the slot of a new element is found, which is
-- behind those that it does not come before. A comparison may fail.
def insert (before : α → α → Except ε Bool) (a : α) (xs : List α) : Except ε (List α) :=
  match halves : xs.drop (xs.length / 2) with
  | [] => .ok [a]
  | b :: right =>
    have := congrArg List.length halves
    match before a b with
    | .error e => .error e
    | .ok true => (insert before a (xs.take (xs.length / 2))).map (· ++ b :: right)
    | .ok false => (insert before a right).map (xs.take (xs.length / 2) ++ b :: ·)
termination_by xs.length
decreasing_by
  all_goals
    simp only [List.length_drop, List.length_cons, List.length_take] at this ⊢
    omega

def run (before : α → α → Except ε Bool) (falling : Bool) (last : α) : List α → Except ε (List α × List α)
  | [] => .ok ([], [])
  | a :: rest =>
    match before a last with
    | .error e => .error e
    | .ok first =>
      if first = falling then (run before falling a rest).map fun (front, rest) => (a :: front, rest)
      else .ok ([], a :: rest)

def insertAll (before : α → α → Except ε Bool) (sorted : List α) : List α → Except ε (List α)
  | [] => .ok sorted
  | a :: rest =>
    match insert before a sorted with
    | .error e => .error e
    | .ok sorted => insertAll before sorted rest

-- A stable order. The front that is in order already, or falls throughout and
-- is turned round, is kept, and the others are inserted one by one; so it is
-- settled what becomes of elements that no comparison can place.
def sort (before : α → α → Except ε Bool) : List α → Except ε (List α)
  | [] => .ok []
  | [a] => .ok [a]
  | a :: b :: rest =>
    match before b a with
    | .error e => .error e
    | .ok falling =>
      match run before falling b rest with
      | .error e => .error e
      | .ok (front, rest) =>
        let front := a :: b :: front
        insertAll before (if falling then front.reverse else front) rest

end Lifecycle.Sorting

namespace Lifecycle

-- How often the name of each stage was seen, in the order of their first sight.
-- Stages of one name count together, under the first of them.
abbrev Tally := List (Stage × Nat)

namespace Tally

def sharesName (a b : Stage) : Bool :=
  a.id = b.id || a.name.same b.name || (a.name.isConstant && b.name.isConstant)

def increment (stage : Stage) : Tally → Tally
  | [] => [(stage, 1)]
  | (other, n) :: rest =>
    if sharesName other stage then (other, n + 1) :: rest else (other, n) :: increment stage rest

def add (t : Tally) (stage : Stage) : Except Fault Tally :=
  if stage.name.isKey then .ok (increment stage t) else .error (.misuse (.keyOf stage.name.kind))

def named (t : Tally) : List (Json × Nat) := t.map fun (stage, n) => (stage.name, n)

def isBefore (a b : Stage × Nat) : Except Fault Bool :=
  match a.1.name, b.1.name with
  | .text s, .text t => .ok (s < t)
  | x, y => x.compareWith "<" Number.lt y

def inOrder (t : Tally) : Except Fault Tally := Sorting.sort isBefore t

end Tally

structure Distribution where
  versionId : Int
  counts : List (Stage × Nat)

namespace Distribution

def countAt (assignments : List Assignment) (version : Int) (stage : String) : Nat :=
  (assignments.filter fun a => a.versionId = version && a.stageId = stage).length

def ofRecords (version : Int) (stages : List Stage) (assignments : List Assignment) : Distribution :=
  ⟨version, (stages.filter fun g => g.versionId = version).map fun g => (g, countAt assignments version g.id)⟩

def total (d : Distribution) : Nat := d.counts.foldr (fun c n => c.2 + n) 0

def encode (d : Distribution) : Json := .record [
  ("versionId", .int d.versionId),
  ("totalActiveUsers", .int (d.total : Int)),
  ("stateDistribution", .list (d.counts.map fun (g, n) => .record [
    ("stateId", .text g.id), ("name", g.name), ("isTerminal", .bool g.isTerminal),
    ("isInitial", .bool g.isInitial), ("count", .int (n : Int))]))]

def ofNone (version : Json) : Json := .record [
  ("versionId", version), ("totalActiveUsers", .int 0), ("stateDistribution", .list [])]

end Distribution
end Lifecycle
