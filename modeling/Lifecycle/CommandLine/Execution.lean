import Lifecycle.CommandLine.Command
import Lifecycle.Tally
import Lifecycle.Files.Tree
import Lifecycle.Fingerprint
import Lifecycle.Formula.Basic
import Lifecycle.Formula.Parser
import Lifecycle.Sample.History

namespace Lifecycle.CommandLine

structure Report where
  code : Nat
  output : String
  errors : String
deriving DecidableEq, Repr

-- What a command finds: the variables around it, what the clock on the wall
-- shows each time it is read, and what its output can hold.
structure Surroundings where
  environment : List (String × String)
  clock : Nat → Timestamp
  output : Text.Charset

inductive Verdict where
  | said (texts : List String)
  | refused (complaint : String)

-- A command that goes wrong midway leaves what it has written by then.
abbrev Effect := Except Fault Verdict × Files

def allowedFields (fields : String) : List String :=
  if fields.isEmpty then Context.knownFields else (Text.split ',' fields).filter (!·.isEmpty)

def objectionText (o : Formula.Objection) : String :=
  "INVALID at " ++ Text.decimalOfInt o.position ++ " (len " ++ Text.decimalOfNat o.length ++ "): " ++ o.message

def validate (formula fields : String) : Except Fault Verdict :=
  match Formula.objection? formula (allowedFields fields) with
  | some o => .ok (.refused (objectionText o))
  | none =>
    match Formula.parse formula with
    | .error e => .error (.formula e)
    | .ok tree => .ok (.said [(Json.record [
        ("formula", .text tree.render),
        ("conditions", .list ((Condition.ofFormula tree).map Condition.encode))]).pretty])

def pathOf (path : Option String) : Except Fault String :=
  match path with
  | some s => .ok s
  | none => .error (.misuse (.pathOf .list))

def loadStore (files : Files) (path : Option String) : Except Fault Store := do
  Store.load (← files.read (Path.ofText (← pathOf path)).text)

-- The configuration is read before the dataset, and the fixed time after it.
def openRun (s : Surroundings) (files : Files) (run : Run) : Except Fault (Engine × Store) := do
  let base ← Config.ofEnvironment s.environment
  let config ← base.withOverrides [("max_depth", run.maxDepth.toJson)]
  let store ← loadStore files run.dataset
  let fixed ← (Json.text run.now).toTimestamp?
  let clock := match fixed with
    | some now => fun _ => now
    | none => s.clock
  return (⟨config, clock, []⟩, store)

structure Batch where
  version : Json
  processed : Nat
  skipped : Nat
  byStage : Tally
  assignments : List Assignment
  store : Store

def batchIn (engine : Engine) (store : Store) (version : Option Int) (limit : Choice) : Except Fault Batch :=
  match engine.immerseAll version limit.toJson store with
  | (.error f, _) => .error f
  | (.ok total, after) => .ok {
      version := .int total.versionId
      processed := total.processed
      skipped := total.skipped
      byStage := total.byStage
      assignments := after.assignmentsOf (some total.versionId)
      store := after }

def batchInNone (engine : Engine) (store : Store) (limit : Choice) : Except Fault Batch := do
  let skipped ← engine.passOver store limit.toJson
  return ⟨Choice.blank.toJson, 0, skipped, [], [], store⟩

def batch (engine : Engine) (store : Store) (run : Run) : Except Fault Batch :=
  match run.version with
  | .unstated => batchIn engine store none run.limit
  | .stated v => batchIn engine store (some v) run.limit
  | .blank => batchInNone engine store run.limit

def keyText : Json → String
  | .text s => s
  | v => v.compact

def Batch.texts (b : Batch) (fingerprint : String) : List String := [
  (Json.record [
    ("versionId", b.version),
    ("processed", .int (b.processed : Int)),
    ("skipped", .int (b.skipped : Int)),
    ("byState", .record (b.byStage.named.map fun (name, n) => (keyText name, .int (n : Int))))]).pretty,
  "IMMERSE OK — Assignments hash: " ++ fingerprint]

def saveFingerprint (files : Files) (path fingerprint : String) : Except Fault Unit × Files :=
  if path.isEmpty then (.ok (), files) else files.write path (Fingerprint.save fingerprint)

-- Nothing is written unless every user has been immersed, and nothing is printed
-- before all is written.
def immerse (s : Surroundings) (run : Run) (path : String) (files : Files) : Effect :=
  let opened := do
    let (engine, store) ← openRun s files run
    return (← pathOf run.dataset, ← batch engine store run)
  match opened with
  | .error f => (.error f, files)
  | .ok (dataset, b) =>
    match files.write dataset b.store.save with
    | (.error f, files) => (.error f, files)
    | (.ok (), files) =>
      let fingerprint := Fingerprint.ofAssignments b.assignments
      match saveFingerprint files path fingerprint with
      | (.error f, files) => (.error f, files)
      | (.ok (), files) => (.ok (.said (b.texts fingerprint)), files)

def replay (s : Surroundings) (run : Run) (path : Option String) (files : Files) : Except Fault Verdict := do
  let (engine, store) ← openRun s files run
  let expected := Fingerprint.load (← files.read (← pathOf path))
  let actual := Fingerprint.ofAssignments (← batch engine store run).assignments
  if actual = expected then return .said ["REPLAY OK: hash matches ✓"]
  else return .refused ("REPLAY FAILED: hash does NOT match ✗ (got " ++ actual ++ ")")

def noDistribution : Json := .record [
  ("stateDistribution", .list []), ("totalActiveUsers", .int 0),
  ("warning", .text "No active version found")]

def distribution (store : Store) (version : Int) : Json :=
  (Distribution.ofRecords version (store.stagesOf version) (store.assignmentsOf (some version))).encode

def distributionOf (store : Store) : Choice → Json
  | .blank => Distribution.ofNone Choice.blank.toJson
  | .stated v => distribution store v
  | .unstated =>
    match store.activeVersion? with
    | some v => distribution store v.id
    | none => noDistribution

def stats (path : Option String) (version : Choice) (files : Files) : Except Fault Verdict := do
  let store ← loadStore files path
  return .said [(distributionOf store version).pretty]

def defaultSeed : Int := 42
def defaultCount : Int := 200

def readSample (path : Option String) (count seed : Choice) : Except Fault (String × Int × Int) := do
  let seed ← match seed with
    | .blank => .error (.misuse .seed)
    | .stated i => .ok i
    | .unstated => .ok defaultSeed
  let count ← match count with
    | .blank => .error (.misuse (.countOf .list))
    | .stated i => .ok i
    | .unstated => .ok defaultCount
  return (← pathOf path, count, seed)

def generate (path : Option String) (count seed : Choice) (files : Files) : Effect :=
  match readSample path count seed with
  | .error f => (.error f, files)
  | .ok (path, count, seed) =>
    match files.write path (Sample.dataset count seed).sorted.pretty with
    | (.error f, files) => (.error f, files)
    | (.ok (), files) =>
      (.ok (.said ["Generated " ++ Text.decimalOfInt count ++ " users → " ++ path]), files)

def execute (s : Surroundings) (files : Files) : Command → Effect
  | .validate formula fields => (validate formula fields, files)
  | .immerse run path => immerse s run path files
  | .replay run path => (replay s run path files, files)
  | .stats path version => (stats path version files, files)
  | .generate path count seed => generate path count seed files

def usage : String :=
  "usage: lifecycle [-h] [-v] validate|immerse|replay|stats|generate ...\n"

def errorText (f : Fault) : String := "ERROR: " ++ f.message ++ "\n"

-- Text by text, up to the first that the output cannot hold. What goes to the
-- errors can be written on any output.
def reportOf (output : Text.Charset) : Except Fault Verdict → Report
  | .error f => ⟨1, "", errorText f⟩
  | .ok (.refused complaint) => ⟨1, "", complaint ++ "\n"⟩
  | .ok (.said texts) =>
    let printed := String.join ((texts.takeWhile fun text => (output.objection? text).isNone).map (· ++ "\n"))
    match texts.findSome? output.objection? with
    | none => ⟨0, printed, ""⟩
    | some flaw => ⟨1, printed, errorText (.unencodable flaw)⟩

def run (s : Surroundings) (files : Files) (arguments : List String) : Report × Files :=
  match Command.ofArguments arguments with
  | .error .help => (⟨0, usage, ""⟩, files)
  | .error .usage => (⟨2, "", usage⟩, files)
  | .ok command =>
    let (result, files) := execute s files command
    (reportOf s.output result, files)

def runAll (files : Files) : List (Surroundings × List String) → List Report × Files
  | [] => ([], files)
  | (s, arguments) :: rest =>
    let (report, files) := run s files arguments
    let (reports, files) := runAll files rest
    (report :: reports, files)

end Lifecycle.CommandLine
