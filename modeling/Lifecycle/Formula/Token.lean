import Lifecycle.Text.Basic

namespace Lifecycle.Formula

inductive TokenKind where
  | field
  | operator
  | value
  | conj
  | disj
  | openParen
  | closeParen
  | endOfText
  | other (name : String)
deriving DecidableEq, Repr

def TokenKind.name : TokenKind → String
  | .field => "FIELD"
  | .operator => "OPERATOR"
  | .value => "VALUE"
  | .conj => "AND"
  | .disj => "OR"
  | .openParen => "LPAREN"
  | .closeParen => "RPAREN"
  | .endOfText => "EOF"
  | .other name => name

def TokenKind.ofName (name : String) : TokenKind :=
  let kinds : List TokenKind :=
    [.field, .operator, .value, .conj, .disj, .openParen, .closeParen, .endOfText]
  (kinds.find? fun k => k.name = name).getD (.other name)

structure Token where
  kind : TokenKind
  text : String
  position : Int
deriving DecidableEq, Repr

def Token.missing : Token := ⟨.endOfText, "", -1⟩

def isWordChar (c : Char) : Bool :=
  ('a' ≤ c && c ≤ 'z') || ('A' ≤ c && c ≤ 'Z') || Text.isAsciiDigit c ||
    c = '_' || c = '!' || c = '<' || c = '>' || c = '=' || c = '.'

def isNumberChar (c : Char) : Bool := Text.isAsciiDigit c || c = '.' || c = '-'

def opensNumber (c : Char) (rest : List Char) : Bool :=
  Text.isAsciiDigit c || (c = '-' && (rest.head?.map Text.isAsciiDigit).getD false)

-- The operators as they are written. A longer one stands before each of its
-- beginnings, so the first that opens a word is the longest that does.
def operatorTexts : List String :=
  ["!exists", "exists", "!in", "==", "!=", ">=", "<=", "in", ">", "<"]

def leadingOperator? (word : List Char) : Option String :=
  operatorTexts.find? fun op => op.toList.isPrefixOf word

-- A word that is no keyword may begin with an operator, which then stands alone
-- and leaves the rest of the word for the next token.
def classify (word : List Char) : TokenKind × String × Nat :=
  let text := String.ofList word
  let upper := Text.upper text
  if upper = "AND" then (.conj, "AND", word.length)
  else if upper = "OR" then (.disj, "OR", word.length)
  else if upper = "TRUE" || upper = "FALSE" then (.value, Text.lower text, word.length)
  else match leadingOperator? word with
    | some op => (.operator, op, op.length)
    | none => (.field, text, word.length)

-- One token or one skipped character, with the number of further characters
-- used. A quote that nothing closes is closed behind the end of the text.
def lex (c : Char) (rest : List Char) : Option (TokenKind × String) × Nat :=
  if Text.isBlank c then (none, 0)
  else if c = '(' then (some (.openParen, "("), 0)
  else if c = ')' then (some (.closeParen, ")"), 0)
  else if c = '\'' || c = '"' then
    let body := rest.takeWhile (· != c)
    (some (.value, String.ofList body), body.length + 1)
  else if opensNumber c rest then
    let tail := rest.takeWhile isNumberChar
    (some (.value, String.ofList (c :: tail)), tail.length)
  else if isWordChar c then
    let (kind, text, size) := classify (c :: rest.takeWhile isWordChar)
    (some (kind, text), size - 1)
  else (none, 0)

-- The first argument counts the characters that the last token still covers.
def scanFrom : Nat → Nat → List Char → List Token
  | covered, position, [] => [⟨.endOfText, "", (position + covered : Nat)⟩]
  | covered + 1, position, _ :: rest => scanFrom covered (position + 1) rest
  | 0, position, c :: rest =>
    match lex c rest with
    | (some (kind, text), more) => ⟨kind, text, position⟩ :: scanFrom more (position + 1) rest
    | (none, more) => scanFrom more (position + 1) rest

def scan (s : String) : List Token := scanFrom 0 0 s.toList

end Lifecycle.Formula
