import Lifecycle.Fault
import Lifecycle.Text.Printable

namespace Lifecycle

-- Where a path sets out from. A root may be spelled with two slashes; more than
-- two say no more than one.
inductive Origin where
  | here
  | root
  | doubleRoot
deriving DecidableEq, Repr

def Origin.text : Origin → String
  | .here => ""
  | .root => "/"
  | .doubleRoot => "//"

structure Path where
  origin : Origin
  names : List String
deriving DecidableEq, Repr

namespace Path

def originOf (slashes : Nat) : Origin :=
  match slashes with
  | 0 => .here
  | 2 => .doubleRoot
  | _ => .root

def pieces (s : String) : List String := (Text.split '/' s).filter (!·.isEmpty)

-- Single dots are left out. Double dots stay, because the name before one may
-- be missing or be that of a file.
def ofText (s : String) : Path :=
  ⟨originOf (s.toList.takeWhile (· = '/')).length, ((pieces s).filter (· ≠ ".")).reverse⟩

def text (p : Path) : String :=
  if p.origin = .here && p.names.isEmpty then "."
  else p.origin.text ++ "/".intercalate p.names.reverse

def parent (p : Path) : Path := { p with names := p.names.drop 1 }

end Path

-- Where something may stand in a tree of files, by the names that lead there,
-- the last one first. The root has none.
abbrev Location := List String

-- What a file holds when it is not the encoding of a text.
structure Garbled where
  bytes : List UInt8
  flaw : Text.Undecodable
  found : Text.undecodable? bytes = some flaw
deriving DecidableEq, Repr

inductive Entry where
  | directory
  | text (content : String)
  | garbled (content : Garbled)
deriving DecidableEq, Repr

structure Files where
  here : Location
  entries : List (Location × Entry)
deriving DecidableEq, Repr

namespace Files

def entry? (files : Files) (place : Location) : Option Entry :=
  if place.isSuffixOf files.here then some .directory else files.entries.lookup place

def putEntry (place : Location) (entry : Entry) : List (Location × Entry) → List (Location × Entry)
  | [] => [(place, entry)]
  | (p, e) :: rest => if p = place then (place, entry) :: rest else (p, e) :: putEntry place entry rest

def put (files : Files) (place : Location) (entry : Entry) : Files :=
  { files with entries := putEntry place entry files.entries }

def nameRoom : Nat := 255
def pathRoom : Nat := 4095

def enter (place : Location) (name : String) : Location :=
  if name = "." then place else if name = ".." then place.drop 1 else name :: place

def step (files : Files) (place : Location) (name : String) : Except Obstacle Location :=
  match files.entry? place with
  | none => .error .missing
  | some (.text _) | some (.garbled _) => .error .noDirectory
  | some .directory => if nameRoom < name.utf8ByteSize then .error .longName else .ok (enter place name)

def follow (files : Files) (place : Location) : List String → Except Obstacle Location
  | [] => .ok place
  | name :: rest =>
    match files.step place name with
    | .error o => .error o
    | .ok next => files.follow next rest

def steps (path : String) : List String :=
  Path.pieces path ++ if path.toList.getLast? = some '/' then ["."] else []

def start (files : Files) (path : String) : Location :=
  if path.toList.head? = some '/' then [] else files.here

def locate (files : Files) (path : String) : Except Obstacle Location :=
  if path.isEmpty then .error .missing
  else if pathRoom < path.utf8ByteSize then .error .longName
  else files.follow (files.start path) (steps path)

def hasNull (path : String) : Bool := path.toList.contains '\x00'

def isDirectory (files : Files) (path : String) : Bool :=
  match files.locate path with
  | .error _ => false
  | .ok place => files.entry? place = some .directory

def content (files : Files) (path : String) : Except Fault String :=
  match files.locate path with
  | .error o => .error (.path o path)
  | .ok place =>
    match files.entry? place with
    | none => .error (.path .missing path)
    | some .directory => .error (.path .directory path)
    | some (.garbled g) => .error (.undecodable g.flaw)
    | some (.text s) => .ok s

def read (files : Files) (path : String) : Except Fault String :=
  if hasNull path then .error .nullCharacter
  else match files.content path with
    | .error f => .error f
    | .ok s => .ok (String.ofList (Text.unifyLines s.toList))

def makeDirectory (files : Files) (path : String) : Except Obstacle Files :=
  match files.locate path with
  | .error o => .error o
  | .ok place =>
    match files.entry? place with
    | some _ => .error .present
    | none => .ok (files.put place .directory)

def ensureDirectory (files : Files) (path : String) : Except Fault Unit × Files :=
  match files.makeDirectory path with
  | .ok files => (.ok (), files)
  | .error o => (if files.isDirectory path then .ok () else .error (.path o path), files)

-- Missing directories are made from the outermost one on. Those that were made
-- stay, also when a later one cannot be.
def makeWay (origin : Origin) : List String → Files → Except Fault Unit × Files
  | [], files => (.ok (), files)
  | name :: up, files =>
    let path := Path.text ⟨origin, name :: up⟩
    match files.makeDirectory path with
    | .error .missing =>
      match makeWay origin up files with
      | (.error f, files) => (.error f, files)
      | (.ok (), files) => files.ensureDirectory path
    | _ => files.ensureDirectory path

def replace (files : Files) (path text : String) : Except Obstacle Files :=
  match files.locate path with
  | .error o => .error o
  | .ok place =>
    match files.entry? place with
    | some .directory => .error .directory
    | _ => .ok (files.put place (.text text))

def write (files : Files) (spelled text : String) : Except Fault Unit × Files :=
  let path := Path.ofText spelled
  if hasNull path.parent.text then (.error .nullCharacter, files)
  else match makeWay path.origin path.parent.names files with
    | (.error f, files) => (.error f, files)
    | (.ok (), files) =>
      if hasNull path.text then (.error .nullCharacter, files)
      else match files.replace path.text text with
        | .error o => (.error (.path o path.text), files)
        | .ok files => (.ok (), files)

def ofTexts (here : Location) (texts : List (String × String)) : Files :=
  texts.foldl (fun files t => (files.write t.1 t.2).2) ⟨here, []⟩

def pathBelow? (here place : Location) : Option String :=
  if here.isSuffixOf place then some (Path.text ⟨.here, place.take (place.length - here.length)⟩) else none

def texts (files : Files) : List (String × String) :=
  files.entries.filterMap fun (place, entry) =>
    match entry with
    | .directory | .garbled _ => none
    | .text s => (pathBelow? files.here place).map (·, s)

end Files
end Lifecycle
