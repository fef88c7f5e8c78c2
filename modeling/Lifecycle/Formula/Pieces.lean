import Lifecycle.Fault
import Lifecycle.Formula.Parser

namespace Lifecycle.Formula

-- A token of a formula that came in whatever form: its content is a text, or
-- the pieces that it is made of.
structure Lexeme where
  kind : TokenKind
  content : Json
  position : Nat

def Lexeme.token (l : Lexeme) : Token := ⟨l.kind, l.content.display, l.position⟩

def begins (test : Char → Bool) : Json → Except Fault Bool
  | .text s => .ok ((s.toList.head?.map test).getD false)
  | v => .error (.misuse (.patternOn v.kind))

def leading (test : Char → Bool) : List Json → Except Fault (List Json)
  | [] => .ok []
  | piece :: rest =>
    match begins test piece with
    | .error f => .error f
    | .ok false => .ok []
    | .ok true => (leading test rest).map (piece :: ·)

def isDigits (s : String) : Bool := Text.occursIn s.toList "0123456789".toList

def opensNumberAt (s : String) (rest : List Json) : Except Fault Bool :=
  if isDigits s then .ok true
  else if s = "-" then
    match rest with
    | [] => .ok false
    | .text next :: _ => .ok (isDigits next)
    | next :: _ => .error (.misuse (.partOf next.kind))
  else .ok false

-- One lexeme or one skipped piece, with the number of further pieces used. A
-- list can neither be searched for a closing quote nor change its case, so
-- pieces make no quoted value, no word and thereby no field.
def lexPiece (s : String) (rest : List Json) : Except Fault (Option (TokenKind × Json) × Nat) := do
  if !s.isEmpty && s.toList.all Text.isBlank then return (none, 0)
  else if s = "(" then return (some (.openParen, .text s), 0)
  else if s = ")" then return (some (.closeParen, .text s), 0)
  else if s = "'" || s = "\"" then throw (.lacksOperation .list "find")
  else if ← opensNumberAt s rest then
    let tail ← leading isNumberChar rest
    return (some (.value, .list (.text s :: tail)), tail.length)
  else if ← begins isWordChar (.text s) then
    let _ ← leading isWordChar rest
    throw (.lacksOperation .list "upper")
  else return (none, 0)

def lexemesFrom : Nat → Nat → List Json → Except Fault (List Lexeme)
  | _, position, [] => .ok [⟨.endOfText, .text "", position⟩]
  | covered + 1, position, _ :: rest => lexemesFrom covered (position + 1) rest
  | 0, position, .text s :: rest =>
    match lexPiece s rest with
    | .error f => .error f
    | .ok (none, more) => lexemesFrom more (position + 1) rest
    | .ok (some (kind, content), more) =>
      (lexemesFrom more (position + 1) rest).map (⟨kind, content, position⟩ :: ·)
  | 0, _, piece :: _ => .error (.lacksOperation piece.kind "isspace")

def lexemes : Json → Except Fault (List Lexeme)
  | .text s => .ok ((scan s).map fun t => ⟨t.kind, .text t.text, t.position.toNat⟩)
  | .list pieces => lexemesFrom 0 0 pieces
  | .record [] => lexemesFrom 0 0 []
  | .record _ => .error (.missingPlace 0)
  | v => .error (.misuse (.lengthOf v.kind))

def objectionTo (formula : Json) (fields : List String) : Except Fault (Option Objection) :=
  (lexemes formula).map fun ls => objectionAmong (ls.map Lexeme.token) fields

end Lifecycle.Formula
