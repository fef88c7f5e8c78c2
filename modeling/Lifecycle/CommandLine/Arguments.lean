import Lifecycle.Json.Reading

namespace Lifecycle.CommandLine

inductive Form where
  | flag
  | text
  | integer
deriving DecidableEq, Repr

structure Setting where
  names : List String
  form : Form
deriving DecidableEq, Repr

inductive Refusal where
  | usage
  | help
deriving DecidableEq, Repr

namespace Setting

def key (s : Setting) : String := s.names.headD ""

def helpKey : String := "--help"

def help : Setting := ⟨[helpKey, "-h"], .flag⟩

end Setting

def named? (settings : List Setting) (name : String) : Option Setting :=
  settings.find? fun s => s.names.contains name

inductive Mention where
  | flag (s : Setting)
  | value (s : Setting) (text : String)
  | awaiting (s : Setting)

def Setting.bare (s : Setting) : Mention := if s.form = .flag then .flag s else .awaiting s

-- An option with a text behind its name. Flags of one letter may stand in a
-- row, and the last of them may be an option whose value is the rest.
def withText (settings : List Setting) (s : Setting) (short : Bool) : List Char → Except Refusal (List Mention)
  | [] => if s.form = .flag then .error .usage else .ok [.value s ""]
  | c :: rest =>
    if s.form ≠ .flag then .ok [.value s (String.ofList (c :: rest))]
    else if !short then .error .usage
    else match named? settings (String.ofList ['-', c]), rest with
      | none, _ => .error .usage
      | some next, [] => .ok [.flag s, next.bare]
      | some next, text => (withText settings next true text).map (.flag s :: ·)

def isNegativeNumber : List Char → Bool
  | '-' :: body =>
    let body := if body.getLast? = some '\n' then body.dropLast else body
    let whole := body.takeWhile Text.isDigit
    match body.dropWhile Text.isDigit with
    | [] => !whole.isEmpty
    | '.' :: fraction => !fraction.isEmpty && fraction.all Text.isDigit
    | _ => false
  | _ => false

def splitEquals (cs : List Char) : List Char × Option (List Char) :=
  match cs.dropWhile (· ≠ '=') with
  | [] => (cs, none)
  | _ :: rest => (cs.takeWhile (· ≠ '='), some rest)

structure Reading where
  setting : Setting
  short : Bool
  text : Option (List Char)

def Reading.mentions (settings : List Setting) (r : Reading) : Except Refusal (List Mention) :=
  match r.text with
  | none => .ok [r.setting.bare]
  | some text => withText settings r.setting r.short text

def isLong (cs : List Char) : Bool := "--".toList.isPrefixOf cs

def readings (settings : List Setting) (cs : List Char) : List Reading :=
  let (stem, text) := if isLong cs then splitEquals cs else (cs, none)
  settings.flatMap fun s => s.names.filterMap fun name =>
    if stem.isPrefixOf name.toList then some ⟨s, false, text⟩
    else if !isLong cs && name.toList = cs.take 2 then some ⟨s, true, some (cs.drop 2)⟩
    else none

def exactReading? (settings : List Setting) (cs : List Char) : Option Reading := do
  let (stem, text) := splitEquals cs
  let text ← text
  let s ← named? settings (String.ofList stem)
  return ⟨s, !isLong stem, some text⟩

inductive Piece where
  | word
  | option (r : Reading)
  | unknown
  | ambiguous

-- An argument is an option when it begins with a dash, unless it is a lone dash,
-- a negative number or, unless it names an option, a text with a space in it.
def classify (settings : List Setting) (argument : String) : Piece :=
  let cs := argument.toList
  if cs.head? ≠ some '-' then .word
  else match named? settings argument, exactReading? settings cs with
    | some s, _ => .option ⟨s, false, none⟩
    | none, some r => .option r
    | none, none =>
      if cs.length = 1 then .word
      else match readings settings cs with
        | [r] => .option r
        | [] => if isNegativeNumber cs || cs.contains ' ' then .word else .unknown
        | _ => .ambiguous

def Piece.isWord : Piece → Bool
  | .word => true
  | _ => false

def Piece.isAmbiguous : Piece → Bool
  | .ambiguous => true
  | _ => false

def twoDashes : String := "--"

def hasAmbiguity (settings : List Setting) (arguments : List String) : Bool :=
  (arguments.takeWhile (· ≠ twoDashes)).any fun a => (classify settings a).isAmbiguous

inductive Value where
  | mark
  | blank
  | text (s : String)
  | integer (i : Int)
deriving DecidableEq, Repr

abbrev Given := List (String × Value)

def readValue (s : Setting) (text : String) : Except Refusal Value :=
  match s.form with
  | .integer =>
    match Numeral.readInteger text with
    | .ok i => .ok (.integer i)
    | .error _ => .error .usage
  | _ => .ok (.text text)

def readJoined (s : Setting) (text : String) : Except Refusal Value :=
  if text = twoDashes then .ok .blank else readValue s text

def settle (given : Given) : List Mention → Except Refusal (Given × Option Setting)
  | [] => .ok (given, none)
  | .flag s :: rest =>
    if s.key = Setting.helpKey then .error .help else settle ((s.key, .mark) :: given) rest
  | .value s text :: rest =>
    match readJoined s text with
    | .error e => .error e
    | .ok v => settle ((s.key, v) :: given) rest
  | .awaiting s :: _ => .ok (given, some s)

def readAwaited (settings : List Setting) (s : Setting) (text : String) : Except Refusal Value :=
  if text = twoDashes || !(classify settings text).isWord then .error .usage else readValue s text

-- The options before the first word, and the arguments from that word on. Two
-- dashes open nothing, so they are refused.
def readOptions (settings : List Setting) (given : Given) : List String → Except Refusal (Given × List String)
  | [] => .ok (given, [])
  | argument :: rest =>
    if argument = twoDashes then .error .usage
    else match classify settings argument with
      | .word => .ok (given, argument :: rest)
      | .unknown => .error .usage
      | .ambiguous => .error .usage
      | .option r =>
        match (r.mentions settings).bind (settle given), rest with
        | .error e, _ => .error e
        | .ok (given, none), rest => readOptions settings given rest
        | .ok (_, some _), [] => .error .usage
        | .ok (given, some s), text :: rest =>
          match readAwaited settings s text with
          | .error e => .error e
          | .ok v => readOptions settings ((s.key, v) :: given) rest

def readLevel (settings : List Setting) (arguments : List String) : Except Refusal (Given × List String) :=
  if hasAmbiguity settings arguments then .error .usage else readOptions settings [] arguments

end Lifecycle.CommandLine
