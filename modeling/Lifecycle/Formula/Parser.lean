import Lifecycle.Formula.Basic
import Lifecycle.Formula.Token

namespace Lifecycle.Formula

inductive SyntaxError where
  | expected (wanted : TokenKind) (got : Token)
  | unexpected (got : Token)
  | empty
deriving DecidableEq, Repr

def SyntaxError.position : SyntaxError → Int
  | .expected _ got => got.position
  | .unexpected got => got.position
  | .empty => 0

def SyntaxError.message : SyntaxError → String
  | .expected wanted got =>
    "Expected " ++ wanted.name ++ " but got " ++ got.kind.name ++ " at position " ++
      Text.decimalOfInt got.position
  | .unexpected got =>
    "Unexpected token " ++ got.text ++ " at position " ++ Text.decimalOfInt got.position
  | .empty => "Formula cannot be empty"

-- What has been read at one depth of parentheses: the alternatives that are
-- complete, and the chain of the alternative under way.
structure Level where
  alternatives : Option (Formula Leaf)
  chain : Option (Formula Leaf)
deriving DecidableEq, Repr

def joined (joint : Joint) (before : Option (Formula Leaf)) (operand : Formula Leaf) : Formula Leaf :=
  match before with
  | none => operand
  | some left => .node joint left operand

def Level.close (level : Level) (operand : Formula Leaf) : Formula Leaf :=
  joined .disj level.alternatives (joined .conj level.chain operand)

def Level.start : Level := ⟨none, none⟩

inductive Wanted where
  | operand
  | operator (field : String)
  | value (field operator : String)
  | joint (operand : Formula Leaf)
deriving DecidableEq, Repr

structure State where
  wanted : Wanted
  level : Level
  outer : List Level
deriving DecidableEq, Repr

def State.start : State := ⟨.operand, .start, []⟩

inductive Outcome where
  | more (next : State)
  | done (formula : Formula Leaf)

-- Behind an operand a joint or the end of its depth has to follow. With no
-- parenthesis open nothing particular is missing, so any other token is just
-- out of place.
def State.afterOperand (s : State) (operand : Formula Leaf) (t : Token) : Except SyntaxError Outcome :=
  match t.kind, s.outer with
  | .conj, _ => .ok (.more ⟨.operand, { s.level with chain := some (joined .conj s.level.chain operand) }, s.outer⟩)
  | .disj, _ => .ok (.more ⟨.operand, ⟨some (s.level.close operand), none⟩, s.outer⟩)
  | .closeParen, up :: outer => .ok (.more ⟨.joint (s.level.close operand), up, outer⟩)
  | .endOfText, [] => .ok (.done (s.level.close operand))
  | _, [] => .error (.unexpected t)
  | _, _ :: _ => .error (.expected .closeParen t)

def State.step (s : State) (t : Token) : Except SyntaxError Outcome :=
  match s.wanted with
  | .operand =>
    if t.kind = .openParen then .ok (.more ⟨.operand, .start, s.level :: s.outer⟩)
    else if t.kind = .field then .ok (.more { s with wanted := .operator t.text })
    else .error (.expected .field t)
  | .operator field =>
    if t.kind = .operator then .ok (.more { s with wanted := .value field t.text })
    else .error (.expected .operator t)
  | .value field operator =>
    if t.kind = .value then
      .ok (.more { s with wanted := .joint (.leaf ⟨field, operatorName operator, t.text⟩) })
    else .error (.expected .value t)
  | .joint operand => s.afterOperand operand t

-- A list that ends without its end token is read as if one stood behind it.
def State.run (s : State) : List Token → Except SyntaxError (Formula Leaf)
  | [] =>
    match s.step .missing with
    | .error e => .error e
    | .ok (.done formula) => .ok formula
    | .ok (.more _) => .error (.unexpected .missing)
  | t :: rest =>
    match s.step t with
    | .error e => .error e
    | .ok (.done formula) => .ok formula
    | .ok (.more next) => next.run rest

def ofTokens (tokens : List Token) : Except SyntaxError (Formula Leaf) := State.start.run tokens

def parse (s : String) : Except SyntaxError (Formula Leaf) :=
  if (Text.trim s).isEmpty then .error .empty else ofTokens (scan s)

inductive Objection where
  | malformed (error : SyntaxError)
  | unknownField (field : String) (position : Int)
deriving DecidableEq, Repr

def Objection.message : Objection → String
  | .malformed error => error.message
  | .unknownField field _ =>
    "Unknown field \"" ++ field ++ "\". Use autocomplete for valid field names."

def Objection.position : Objection → Int
  | .malformed error => error.position
  | .unknownField _ position => position

def Objection.length : Objection → Nat
  | .malformed _ => 1
  | .unknownField field _ => field.length

def fieldPosition (tokens : List Token) (field : String) : Int :=
  ((tokens.find? fun t => t.kind = .field && t.text = field).map (·.position)).getD 0

def objectionAmong (tokens : List Token) (fields : List String) : Option Objection :=
  match ofTokens tokens with
  | .error error => some (.malformed error)
  | .ok formula =>
    if fields.isEmpty then none
    else (formula.leaves.find? fun c => !fields.contains c.field).map fun c =>
      .unknownField c.field (fieldPosition tokens c.field)

-- Unlike reading a formula, checking one has no word of its own for a blank text.
def objection? (s : String) (fields : List String) : Option Objection := objectionAmong (scan s) fields

end Lifecycle.Formula
