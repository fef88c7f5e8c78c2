import Lifecycle.CommandLine.Arguments

namespace Lifecycle.CommandLine

-- A number that a command may be given. One that was left blank is not the same
-- as one that was never mentioned.
inductive Choice where
  | unstated
  | blank
  | stated (i : Int)
deriving DecidableEq, Repr

def Choice.toJson : Choice → Json
  | .unstated => .null
  | .blank => .list []
  | .stated i => .int i

structure Run where
  dataset : Option String
  version : Choice
  limit : Choice
  maxDepth : Choice
  now : String
deriving DecidableEq, Repr

inductive Command where
  | validate (formula fields : String)
  | immerse (run : Run) (fingerprint : String)
  | replay (run : Run) (fingerprint : Option String)
  | stats (dataset : Option String) (version : Choice)
  | generate (output : Option String) (count seed : Choice)
deriving DecidableEq, Repr

def text (name : String) : Setting := ⟨[name], .text⟩
def integer (name : String) : Setting := ⟨[name], .integer⟩

def verbose : Setting := ⟨["--verbose", "-v"], .flag⟩

namespace Command

def runSettings : List Setting :=
  [text "--dataset", integer "--version", integer "--limit", integer "--max-depth", text "--now"]

def readText (given : Given) (name : String) : String :=
  match given.lookup name with
  | some (.text s) => s
  | _ => ""

def need (given : Given) (name : String) : Except Refusal Unit :=
  if (given.lookup name).isSome then .ok () else .error .usage

def readPath (given : Given) (name : String) : Except Refusal (Option String) :=
  match given.lookup name with
  | none => .error .usage
  | some (.text s) => .ok (some s)
  | some _ => .ok none

def readChoice (given : Given) (name : String) : Choice :=
  match given.lookup name with
  | none => .unstated
  | some (.integer i) => .stated i
  | some _ => .blank

def readRun (given : Given) : Except Refusal Run := do
  let dataset ← readPath given "--dataset"
  return {
    dataset
    version := readChoice given "--version"
    limit := readChoice given "--limit"
    maxDepth := readChoice given "--max-depth"
    now := readText given "--now" }

def validateOf (given : Given) : Except Refusal Command := do
  need given "--formula"
  return .validate (readText given "--formula") (readText given "--fields")

def immerseOf (given : Given) : Except Refusal Command := do
  return .immerse (← readRun given) (readText given "--hash-out")

def replayOf (given : Given) : Except Refusal Command := do
  return .replay (← readRun given) (← readPath given "--verify")

def statsOf (given : Given) : Except Refusal Command := do
  return .stats (← readPath given "--dataset") (readChoice given "--version")

def generateOf (given : Given) : Except Refusal Command := do
  return .generate (← readPath given "--output") (readChoice given "--count") (readChoice given "--seed")

def table : List (String × List Setting × (Given → Except Refusal Command)) := [
  ("validate", [text "--formula", text "--fields"], validateOf),
  ("immerse", runSettings ++ [text "--hash-out"], immerseOf),
  ("replay", runSettings ++ [text "--verify"], replayOf),
  ("stats", [text "--dataset", integer "--version"], statsOf),
  ("generate", [text "--output", integer "--count", integer "--seed"], generateOf)]

def ofArguments (arguments : List String) : Except Refusal Command := do
  match ← readLevel [.help, verbose] arguments with
  | (_, []) => throw .usage
  | (_, name :: rest) =>
    match table.lookup name with
    | none => throw .usage
    | some (settings, make) =>
      match ← readLevel (.help :: settings) rest with
      | (given, []) => make given
      | _ => throw .usage

end Command
end Lifecycle.CommandLine
