import Lifecycle.Json.Basic
import Lifecycle.Number.Numeral

namespace Lifecycle.Json

inductive Flaw where
  | value
  | propertyName
  | colon
  | comma
  | extraData
  | unterminatedText
  | controlCharacter
  | escapeMark
  | unicodeEscape
  | byteOrderMark
deriving DecidableEq, Repr

def Flaw.wording : Flaw → String
  | .value => "Expecting value"
  | .propertyName => "Expecting property name enclosed in double quotes"
  | .colon => "Expecting ':' delimiter"
  | .comma => "Expecting ',' delimiter"
  | .extraData => "Extra data"
  | .unterminatedText => "Unterminated string starting at"
  | .controlCharacter => "Invalid control character at"
  | .escapeMark => "Invalid \\escape"
  | .unicodeEscape => "Invalid \\uXXXX escape"
  | .byteOrderMark => "Unexpected UTF-8 BOM (decode using utf-8-sig)"

-- A flaw has the place of the character that shows it. A text with half of a
-- surrogate pair is no sequence of characters; no text here stands for it, and
-- a document that spells one is set apart from those that are read.
inductive Refusal where
  | flaw (cause : Flaw) (position line column : Nat)
  | numeral (error : NumeralError)
  | halfPair
deriving DecidableEq, Repr

structure Rest where
  position : Nat
  chars : List Char

inductive Stop where
  | flaw (cause : Flaw) (position : Nat)
  | numeral (error : NumeralError)
  | halfPair

abbrev Read (α : Type) := Except Stop (α × Rest)

def isSpace (c : Char) : Bool := c = ' ' || c = '\t' || c = '\n' || c = '\r'

def skipFrom : Nat → List Char → Rest
  | position, [] => ⟨position, []⟩
  | position, c :: rest => if isSpace c then skipFrom (position + 1) rest else ⟨position, c :: rest⟩

def Rest.skipSpace (r : Rest) : Rest := skipFrom r.position r.chars

def hexDigit? (c : Char) : Option Nat :=
  if '0' ≤ c && c ≤ '9' then some (c.toNat - '0'.toNat)
  else if 'a' ≤ c && c ≤ 'f' then some (c.toNat - 'a'.toNat + 10)
  else if 'A' ≤ c && c ≤ 'F' then some (c.toNat - 'A'.toNat + 10)
  else none

def unit? : List Char → Option (Nat × List Char)
  | a :: b :: c :: d :: e :: rest => do
    let n := ((((← hexDigit? a) * 16 + (← hexDigit? b)) * 16) + (← hexDigit? c)) * 16 + (← hexDigit? d)
    return (n, e :: rest)
  | _ => none

def joinUnits (high : Nat) (rest : List Char) : Option (Char × List Char × Nat) :=
  if 0xD800 ≤ high && high < 0xDC00 then
    match rest with
    | '\\' :: 'u' :: tail =>
      match unit? tail with
      | some (low, after) =>
        if 0xDC00 ≤ low && low < 0xE000 then
          some (Char.ofNat (0x10000 + (high - 0xD800) * 0x400 + (low - 0xDC00)), after, 6)
        else none
      | none => none
    | _ => none
  else if 0xDC00 ≤ high && high < 0xE000 then none
  else some (Char.ofNat high, rest, 0)

def shortEscape? : Char → Option Char
  | '"' => some '"'
  | '\\' => some '\\'
  | '/' => some '/'
  | 'b' => some '\x08'
  | 'f' => some '\x0c'
  | 'n' => some '\n'
  | 'r' => some '\r'
  | 't' => some '\t'
  | _ => none

-- The inside of a text up to its closing quote; start is where it opened. Every
-- round takes at least one character and one unit of fuel.
def readText (start : Nat) : Nat → List Char → Rest → Read String
  | 0, _, _ => .error (.flaw .unterminatedText start)
  | fuel + 1, acc, ⟨position, chars⟩ =>
    match chars with
    | [] => .error (.flaw .unterminatedText start)
    | '"' :: rest => .ok (String.ofList acc.reverse, ⟨position + 1, rest⟩)
    | ['\\'] => .error (.flaw .unterminatedText start)
    | '\\' :: 'u' :: rest =>
      match unit? rest with
      | none => .error (.flaw .unicodeEscape (position + 1))
      | some (n, after) =>
        match joinUnits n after with
        | none => .error .halfPair
        | some (c, tail, more) => readText start fuel (c :: acc) ⟨position + 6 + more, tail⟩
    | '\\' :: c :: rest =>
      match shortEscape? c with
      | some e => readText start fuel (e :: acc) ⟨position + 2, rest⟩
      | none => .error (.flaw .escapeMark position)
    | c :: rest =>
      if c.toNat < 32 then .error (.flaw .controlCharacter position)
      else readText start fuel (c :: acc) ⟨position + 1, rest⟩

def splitFraction : List Char → List Char × List Char
  | '.' :: rest =>
    let digits := rest.takeWhile Text.isAsciiDigit
    if digits.isEmpty then ([], '.' :: rest) else ('.' :: digits, rest.dropWhile Text.isAsciiDigit)
  | cs => ([], cs)

def splitPower : List Char → List Char × List Char
  | [] => ([], [])
  | c :: rest =>
    let sign := rest.takeWhile fun s => s = '-' || s = '+'
    let body := rest.drop sign.length
    let digits := body.takeWhile Text.isAsciiDigit
    if (c = 'e' || c = 'E') && sign.length ≤ 1 && !digits.isEmpty then
      (c :: sign ++ digits, body.drop digits.length)
    else ([], c :: rest)

def splitWhole : List Char → Option (List Char × List Char)
  | '0' :: rest => some (['0'], rest)
  | cs =>
    let digits := cs.takeWhile Text.isAsciiDigit
    if digits.isEmpty then none else some (digits, cs.dropWhile Text.isAsciiDigit)

def readNumber (r : Rest) : Read Json :=
  let (negative, body) := match r.chars with
    | '-' :: rest => (true, rest)
    | cs => (false, cs)
  match splitWhole body with
  | none => .error (.flaw .value r.position)
  | some (whole, afterWhole) =>
    let (fraction, afterFraction) := splitFraction afterWhole
    let (power, rest) := splitPower afterFraction
    let used := (if negative then 1 else 0) + whole.length + fraction.length + power.length
    if fraction.isEmpty && power.isEmpty then
      if Numeral.digitLimit < whole.length then .error (.numeral (.tooManyDigits whole.length))
      else .ok (.int (Numeral.signed negative (Text.natOfAscii whole)), ⟨r.position + used, rest⟩)
    else
      match Numeral.readDecimal negative (whole ++ fraction ++ power) with
      | some d => .ok (.real d, ⟨r.position + used, rest⟩)
      | none => .error (.flaw .value r.position)

def words : List (List Char × Json) := [
  ("null".toList, .null), ("true".toList, .bool true), ("false".toList, .bool false),
  ("NaN".toList, .real (.nan true)), ("Infinity".toList, .real (.infinite false)),
  ("-Infinity".toList, .real (.infinite true))]

def readScalar (r : Rest) : Read Json :=
  match words.find? fun w => w.1.isPrefixOf r.chars with
  | some (word, v) => .ok (v, ⟨r.position + word.length, r.chars.drop word.length⟩)
  | none => readNumber r

def setField (fields : List (String × Json)) (key : String) (value : Json) : List (String × Json) :=
  if fields.any (·.1 = key) then fields.map fun f => if f.1 = key then (key, value) else f
  else fields ++ [(key, value)]

mutual
-- The fuel is at least twice the number of characters still to come, of which
-- a value or a field takes one for every two units.
def readValue : Nat → Rest → Read Json
  | 0, r => .error (.flaw .value r.position)
  | fuel + 1, r =>
    match r.chars with
    | '"' :: rest =>
      match readText r.position fuel [] ⟨r.position + 1, rest⟩ with
      | .error e => .error e
      | .ok (s, tail) => .ok (.text s, tail)
    | '[' :: rest =>
      let inside := skipFrom (r.position + 1) rest
      match inside.chars with
      | ']' :: tail => .ok (.list [], ⟨inside.position + 1, tail⟩)
      | _ => readItems fuel [] inside
    | '\x7b' :: rest =>
      let inside := skipFrom (r.position + 1) rest
      match inside.chars with
      | '\x7d' :: tail => .ok (.record [], ⟨inside.position + 1, tail⟩)
      | _ => readFields fuel [] inside
    | _ => readScalar r

def readItems : Nat → List Json → Rest → Read Json
  | 0, _, r => .error (.flaw .value r.position)
  | fuel + 1, acc, r =>
    match readValue fuel r with
    | .error e => .error e
    | .ok (v, after) =>
      let next := after.skipSpace
      match next.chars with
      | ']' :: tail => .ok (.list (v :: acc).reverse, ⟨next.position + 1, tail⟩)
      | ',' :: tail => readItems fuel (v :: acc) (skipFrom (next.position + 1) tail)
      | _ => .error (.flaw .comma next.position)

def readFields : Nat → List (String × Json) → Rest → Read Json
  | 0, _, r => .error (.flaw .propertyName r.position)
  | fuel + 1, acc, r =>
    match r.chars with
    | '"' :: rest =>
      match readText r.position fuel [] ⟨r.position + 1, rest⟩ with
      | .error e => .error e
      | .ok (key, afterKey) =>
        let mark := afterKey.skipSpace
        match mark.chars with
        | ':' :: tail =>
          match readValue fuel (skipFrom (mark.position + 1) tail) with
          | .error e => .error e
          | .ok (v, after) =>
            let next := after.skipSpace
            let fields := setField acc key v
            match next.chars with
            | '\x7d' :: tail => .ok (.record fields, ⟨next.position + 1, tail⟩)
            | ',' :: tail => readFields fuel fields (skipFrom (next.position + 1) tail)
            | _ => .error (.flaw .comma next.position)
        | _ => .error (.flaw .colon mark.position)
    | _ => .error (.flaw .propertyName r.position)
end

def readAll (chars : List Char) : Except Stop Json :=
  match chars with
  | '\uFEFF' :: _ => .error (.flaw .byteOrderMark 0)
  | _ =>
    match readValue (2 * chars.length + 2) (skipFrom 0 chars) with
    | .error e => .error e
    | .ok (v, rest) =>
      let tail := rest.skipSpace
      if tail.chars.isEmpty then .ok v else .error (.flaw .extraData tail.position)

def lineOf (before : List Char) : Nat := before.count '\n' + 1
def columnOf (before : List Char) : Nat := (before.reverse.takeWhile (· ≠ '\n')).length + 1

def parse (s : String) : Except Refusal Json :=
  match readAll s.toList with
  | .ok v => .ok v
  | .error (.numeral e) => .error (.numeral e)
  | .error .halfPair => .error .halfPair
  | .error (.flaw cause position) =>
    let before := s.toList.take position
    .error (.flaw cause position (lineOf before) (columnOf before))

end Lifecycle.Json
