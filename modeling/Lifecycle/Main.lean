import Lifecycle.CommandLine.Execution

namespace Lifecycle.Main

def variableNames : List String := Config.bindings.map fun v => Config.variableStem ++ v.2.1

def environment : IO (List (String × String)) := do
  let found ← variableNames.mapM fun name => do return (← IO.getEnv name).map fun value => (name, value)
  return found.filterMap id

def epoch : Timestamp := Timestamp.midnight 1970 1 1

def wallClock : IO Timestamp := do
  let (file, path) ← IO.FS.createTempFile
  file.putStr "now"
  file.flush
  let written := (← path.metadata).modified
  IO.FS.removeFile path
  let micros := written.sec * (Timestamp.microsPerSecond : Int) + ((written.nsec.toNat / 1000 : Nat) : Int)
  return { epoch with clock := epoch.clock + micros }

-- What the clock shows at each of so many turns, from now on.
def readings (turns : Nat) : IO (Array Timestamp) := do
  let start ← wallClock
  let first ← IO.monoNanosNow
  (Array.range turns).mapM fun _ => do
    let passed := ((← IO.monoNanosNow) - first) / 1000
    return { start with clock := start.clock + (passed : Int) }

def mentionedPaths (arguments : List String) : List String :=
  (arguments.flatMap fun a => a :: (CommandLine.splitEquals a.toList).2.toList.map String.ofList).eraseDups

def passed (place : Location) : List String → List Location
  | [] => [place]
  | name :: rest => place :: passed (Files.enter place name) rest

def spell (place : Location) : String := Path.text ⟨.root, place⟩

def readEntry? (place : Location) : IO (Option (Location × Entry)) := do
  let here ← IO.currentDir
  if ← (here / spell place).isDir then return some (place, .directory)
  try
    let content ← IO.FS.readBinFile (spell place)
    match String.fromUTF8? content with
    | some s => return some (place, .text s)
    | none =>
      let bytes := content.toList
      match found : Text.undecodable? bytes with
      | some flaw => return some (place, .garbled ⟨bytes, flaw, found⟩)
      | none => return none
  catch _ => return none

def readFiles (arguments : List String) : IO Files := do
  let here := (Path.ofText (← IO.currentDir).toString).names
  let nothing : Files := ⟨here, []⟩
  let places := (mentionedPaths arguments).flatMap fun path =>
    passed (nothing.start path) (Files.steps path)
  let found ← (places.filter fun place => !place.isSuffixOf here).eraseDups.mapM readEntry?
  return { nothing with entries := found.filterMap id }

-- Every user of a dataset is a record, so no batch has more turns than this.
def turnsWithin (files : Files) : Nat :=
  files.entries.foldr (fun entry turns => match entry.2 with
    | .text s => s.toList.count '\x7b' + turns
    | .directory | .garbled _ => turns) 0

def writeEntry : Location × Entry → IO Unit
  | (place, .directory) => IO.FS.createDirAll (spell place)
  | (place, .text s) => IO.FS.writeFile (spell place) s
  | (place, .garbled g) => IO.FS.writeBinFile (spell place) g.bytes.toByteArray

def run (arguments : List String) : IO UInt32 := do
  let files ← readFiles arguments
  let shown ← readings (turnsWithin files + 1)
  let (report, after) := CommandLine.run ⟨← environment, fun n => shown.getD n epoch, .utf8⟩ files arguments
  for (place, entry) in after.entries do
    if files.entry? place ≠ some entry then writeEntry (place, entry)
  IO.print report.output
  IO.eprint report.errors
  return UInt32.ofNat report.code

end Lifecycle.Main

def main (arguments : List String) : IO UInt32 := Lifecycle.Main.run arguments
