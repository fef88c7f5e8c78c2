import Lifecycle.Proofs.Json.Bounds
import Lifecycle.Proofs.Json.Escapes
import Lifecycle.Proofs.Json.Reals

namespace Lifecycle.Json

open Text

mutual
-- What a value is read as again from what is written of it.
def reread : Json → Json
  | .real (.nan _) => .real (.nan true)
  | .real (.finite negative steps) => .real (rereadReal negative steps)
  | .list xs => .list (rereadItems xs)
  | .record fs => .record (rereadFields [] fs)
  | v => v

def rereadItems : List Json → List Json
  | [] => []
  | x :: xs => reread x :: rereadItems xs

def rereadFields (before : List (String × Json)) : List (String × Json) → List (String × Json)
  | [] => before
  | (k, v) :: rest => rereadFields (setField before k (reread v)) rest
end

section
variable {fuel position after : Nat} {r : Rest} {gap tail rest : List Char} (spaces : ∀ c ∈ gap, isSpace c = true)
include spaces

end

section
variable {fuel : Nat} {gap tail rest more : List Char} (spaces : ∀ c ∈ gap, isSpace c = true) {key : String}
  (enough : key.toList.length < fuel) (solid : isSpace c = false)
include spaces enough solid

end

section
variable {gap : List Char} (spaces : ∀ c ∈ gap, isSpace c = true) (solid : isSpace c = false)
include spaces solid

end

def gap (depth : Nat) : List Char := '\n' :: List.replicate (2 * depth) ' '

def lines (depth : Nat) (texts : List String) : List Char :=
  (("," ++ ("\n" ++ indentation depth)).intercalate texts).toList

theorem field_chars (key line : String) :
    (escaped key ++ ": " ++ line).toList = (escaped key).toList ++ ':' :: ' ' :: line.toList := by
  simp

-- Fuel for two units a character is enough to read a value again, whatever follows that does not carry a number on.
def ReadsBack (v : Json) : Prop :=
  ∀ depth fuel position tail, EndsNumber tail → 2 * (indented depth v).toList.length ≤ fuel →
    ∃ after, readValue fuel ⟨position, (indented depth v).toList ++ tail⟩ = .ok (v.reread, ⟨after, tail⟩)

end Lifecycle.Json
