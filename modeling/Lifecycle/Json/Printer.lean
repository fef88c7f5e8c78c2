import Lifecycle.Json.Basic
import Lifecycle.Number.Numeral
import Lifecycle.Text.Printable

namespace Lifecycle.Json

def unitPair (n : Nat) : Nat × Nat :=
  (0xD800 + (n - 0x10000) / 0x400, 0xDC00 + (n - 0x10000) % 0x400)

-- Written text is ASCII: the quote, the backslash and five controls have short
-- escapes, all else outside the visible range is written by its 16-bit units.
def escapedChar (c : Char) : String :=
  if c = '"' then "\\\""
  else if c = '\\' then "\\\\"
  else if c = '\n' then "\\n"
  else if c = '\r' then "\\r"
  else if c = '\t' then "\\t"
  else if c.toNat = 8 then "\\b"
  else if c.toNat = 12 then "\\f"
  else if 32 ≤ c.toNat && c.toNat ≤ 126 then c.toString
  else if c.toNat < 0x10000 then "\\u" ++ Text.hexOfNat 4 c.toNat
  else
    let (high, low) := unitPair c.toNat
    "\\u" ++ Text.hexOfNat 4 high ++ "\\u" ++ Text.hexOfNat 4 low

def escaped (s : String) : String := "\"" ++ String.join (s.toList.map escapedChar) ++ "\""

def realText : Double → String
  | .nan _ => "NaN"
  | .infinite negative => if negative then "-Infinity" else "Infinity"
  | d => d.text

def sortFields (fs : List (String × Json)) : List (String × Json) :=
  fs.mergeSort fun a b => a.1 ≤ b.1

mutual
def sorted : Json → Json
  | .list xs => .list (sortedItems xs)
  | .record fs => .record (sortFields (sortedFields fs))
  | v => v

def sortedItems : List Json → List Json
  | [] => []
  | x :: xs => sorted x :: sortedItems xs

def sortedFields : List (String × Json) → List (String × Json)
  | [] => []
  | (k, v) :: rest => (k, sorted v) :: sortedFields rest
end

mutual
def compact : Json → String
  | .null => "null"
  | .bool b => if b then "true" else "false"
  | .int i => Text.decimalOfInt i
  | .real d => realText d
  | .text s => escaped s
  | .list xs => "[" ++ ",".intercalate (compactItems xs) ++ "]"
  | .record fs => "\x7b" ++ ",".intercalate (compactFields fs) ++ "\x7d"

def compactItems : List Json → List String
  | [] => []
  | x :: xs => compact x :: compactItems xs

def compactFields : List (String × Json) → List String
  | [] => []
  | (k, v) :: rest => (escaped k ++ ":" ++ compact v) :: compactFields rest
end

def indentation (depth : Nat) : String := String.ofList (List.replicate (2 * depth) ' ')

def block (opening closing : String) (depth : Nat) (lines : List String) : String :=
  if lines.isEmpty then opening ++ closing
  else
    let margin := "\n" ++ indentation (depth + 1)
    opening ++ margin ++ ("," ++ margin).intercalate lines ++ "\n" ++ indentation depth ++ closing

mutual
def indented (depth : Nat) : Json → String
  | .list xs => block "[" "]" depth (indentedItems (depth + 1) xs)
  | .record fs => block "\x7b" "\x7d" depth (indentedFields (depth + 1) fs)
  | .null => "null"
  | .bool b => if b then "true" else "false"
  | .int i => Text.decimalOfInt i
  | .real d => realText d
  | .text s => escaped s

def indentedItems (depth : Nat) : List Json → List String
  | [] => []
  | x :: xs => indented depth x :: indentedItems depth xs

def indentedFields (depth : Nat) : List (String × Json) → List String
  | [] => []
  | (k, v) :: rest => (escaped k ++ ": " ++ indented depth v) :: indentedFields depth rest
end

def pretty (v : Json) : String := indented 0 v

mutual
def quoted : Json → String
  | .null => "None"
  | .bool b => if b then "True" else "False"
  | .int i => Text.decimalOfInt i
  | .real d => d.text
  | .text s => Text.quoted s
  | .list xs => "[" ++ ", ".intercalate (quotedItems xs) ++ "]"
  | .record fs => "\x7b" ++ ", ".intercalate (quotedFields fs) ++ "\x7d"

def quotedItems : List Json → List String
  | [] => []
  | x :: xs => quoted x :: quotedItems xs

def quotedFields : List (String × Json) → List String
  | [] => []
  | (k, v) :: rest => (Text.quoted k ++ ": " ++ quoted v) :: quotedFields rest
end

def display : Json → String
  | .text s => s
  | v => quoted v

end Lifecycle.Json
