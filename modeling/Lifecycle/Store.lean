import Lifecycle.Json.Printer
import Lifecycle.Record.Graph
import Lifecycle.Record.Facts

namespace Lifecycle

def put {α κ : Type} [DecidableEq κ] (key : α → κ) (records : List α) (a : α) : List α :=
  if records.any (key · = key a) then records.map fun b => if key b = key a then a else b
  else records ++ [a]

def collect {α κ : Type} [DecidableEq κ] (key : α → κ) (records : List α) : List α :=
  records.foldl (put key) []

-- The records of one dataset. Versions, stages and users keep the order in
-- which they came, one for each id; assignments are in the order of their
-- users, which is the only order that anyone sees.
structure Store where
  versions : List Version
  stages : List Stage
  transitions : List Transition
  users : List UserFacts
  assignments : List Assignment

namespace Store

def assign (a : Assignment) : List Assignment → List Assignment
  | [] => [a]
  | b :: rest =>
    if a.userId < b.userId then a :: b :: rest
    else if a.userId = b.userId then a :: rest
    else b :: assign a rest

def ofRecords (versions : List Version) (stages : List Stage) (transitions : List Transition)
    (users : List UserFacts) (assignments : List Assignment) : Store where
  versions := collect (·.id) versions
  stages := collect (·.id) stages
  transitions := transitions
  users := collect (·.id) users
  assignments := assignments.foldl (fun all a => assign a all) []

def decodeAll {α : Type} (read : Json → Except Fault α) (v : Json) (key : String) : Except Fault (List α) := do
  (← (← v.fieldOr key (.list [])).items).mapM read

def decode (v : Json) : Except Fault Store := do
  let versions ← decodeAll Version.decode v "versions"
  let stages ← decodeAll Stage.decode v "states"
  let transitions ← decodeAll Transition.decode v "transitions"
  let users ← decodeAll UserFacts.decode v "users"
  let assignments ← decodeAll Assignment.decode v "assignments"
  return ofRecords versions stages transitions users assignments

def encode (s : Store) : Json := .record [
  ("versions", .list (s.versions.map Version.encode)),
  ("states", .list (s.stages.map Stage.encode)),
  ("transitions", .list (s.transitions.map Transition.encode)),
  ("users", .list (s.users.map UserFacts.encode)),
  ("assignments", .list (s.assignments.map Assignment.encode))]

def save (s : Store) : String := s.encode.sorted.pretty

def load (text : String) : Except Fault Store :=
  match Json.parse text with
  | .error refusal => .error (.document refusal)
  | .ok v => decode v

def user? (s : Store) (id : String) : Option UserFacts := s.users.find? fun u => u.id = id

def version? (s : Store) (id : Int) : Option Version := s.versions.find? fun v => v.id = id

def activeVersion? (s : Store) : Option Version := s.versions.find? (·.isActive)

def stage? (s : Store) (id : String) : Option Stage := s.stages.find? fun g => g.id = id

def initialStage? (s : Store) (version : Int) : Option Stage :=
  s.stages.find? fun g => g.versionId = version && g.isInitial

def stagesOf (s : Store) (version : Int) : List Stage := s.stages.filter fun g => g.versionId = version

def isNewer (a b : UserFacts) : Bool :=
  b.createdAt.moment < a.createdAt.moment ||
    (a.createdAt.moment = b.createdAt.moment && b.id ≤ a.id)

def userIds (s : Store) (limit : Json) : Except Fault (List String) := do
  let bound ← limit.toBound?
  return takeBound bound ((s.users.mergeSort isNewer).map (·.id))

def transitionsFrom (s : Store) (stage : String) (version : Int) : List Transition :=
  (s.transitions.filter fun t => t.source = stage && t.versionId = version).mergeSort
    fun a b => b.priority ≤ a.priority

def setAssignment (s : Store) (a : Assignment) : Store := { s with assignments := assign a s.assignments }

def putUser (s : Store) (u : UserFacts) : Store := { s with users := put (·.id) s.users u }

def assignment? (s : Store) (user : String) : Option Assignment :=
  s.assignments.find? fun a => a.userId = user

def assignmentsOf (s : Store) (version : Option Int) : List Assignment :=
  match version with
  | none => s.assignments
  | some v => s.assignments.filter fun a => a.versionId = v

end Store
end Lifecycle
