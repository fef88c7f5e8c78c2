import Lifecycle.Evaluation
import Lifecycle.Proofs.Json.Bounds
import Lifecycle.Proofs.Tally
import Mathlib.Algebra.Order.Field.Rat
import Mathlib.Algebra.Order.Ring.Cast
import Mathlib.Order.WithBot

namespace Lifecycle

def stepsPerUnit : ℚ := Double.unit

theorem stepsPerUnit_pos : 0 < stepsPerUnit := by
  rw [stepsPerUnit, Nat.cast_pos]
  exact Double.twoPow_pos _

-- What a number is worth. A finite double is a whole count of the smallest steps.
def Number.value? : Number → Option (WithBot (WithTop ℚ))
  | .int i => some ((i : ℚ) : WithTop ℚ)
  | .real (.nan _) => none
  | .real (.infinite negative) => some (if negative then ⊥ else ⊤)
  | .real (.finite negative steps) =>
    some (((if negative then -steps else steps : ℚ) / stepsPerUnit : ℚ) : WithTop ℚ)

namespace Place

def value : Place → WithBot (WithTop ℚ)
  | .bottom => ⊥
  | .point steps => ((steps / stepsPerUnit : ℚ) : WithTop ℚ)
  | .top => ⊤

theorem lt_value (p q : Place) : p.lt q = true ↔ p.value < q.value := by
  cases p with
  | point steps =>
    cases q with
    | top => exact iff_of_true rfl (WithBot.coe_lt_coe.mpr (WithTop.coe_lt_top _))
    | _ => simp [lt, value, div_lt_div_iff_of_pos_right stepsPerUnit_pos]
  | _ => cases q <;> simp [lt, value]

theorem value_inj {p q : Place} : p.value = q.value ↔ p = q := by
  cases p <;> cases q <;> simp [value, div_left_inj' stepsPerUnit_pos.ne']

end Place

namespace Number
variable {a b : Number}

theorem whole_steps (i : Int) : ((i * (Double.unit : Int) : Int) : ℚ) / stepsPerUnit = i := by
  rw [Int.cast_mul, Int.cast_natCast, ← stepsPerUnit, mul_div_cancel_right₀ _ stepsPerUnit_pos.ne']

theorem value_place (a : Number) : a.value? = a.place?.map Place.value := by
  cases a with
  | int i => rw [value?, place?, Option.map_some, Place.value, whole_steps]
  | real d =>
    cases d with
    | nan constant => rfl
    | infinite negative => cases negative <;> rfl
    | finite negative steps => cases negative <;> simp [value?, place?, Place.value, Double.signedSteps]

theorem whole_value (n : Nat) : (Number.real (.finite false (n * Double.unit))).value? = (Number.int n).value? := by
  rw [value_place, value_place, place?, place?, Double.signedSteps, if_neg (by decide), Int.natCast_mul]

theorem eq_value (worth : a.value? = some p) (other : b.value? = some q) : a.eq b = true ↔ p = q := by
  rw [value_place, Option.map_eq_some_iff] at worth other
  obtain ⟨at_a, placed, rfl⟩ := worth
  obtain ⟨at_b, along, rfl⟩ := other
  simp [eq, placed, along, Place.value_inj]

theorem lt_value (worth : a.value? = some p) (other : b.value? = some q) : a.lt b = true ↔ p < q := by
  rw [value_place, Option.map_eq_some_iff] at worth other
  obtain ⟨at_a, placed, rfl⟩ := worth
  obtain ⟨at_b, along, rfl⟩ := other
  simp [lt, placed, along, Place.lt_value]

theorem place_value (same : a.value? = b.value?) : a.place? = b.place? := by
  rw [value_place, value_place] at same
  exact Option.map_injective (fun _ _ => Place.value_inj.mp) same

theorem eq_symm (a b : Number) : a.eq b = b.eq a := by
  rw [Bool.eq_iff_iff, eq_place, eq_place]
  simp only [and_comm]

theorem unit_pos : (0 : Int) < Double.unit := by
  rw [Int.natCast_pos]
  exact Double.twoPow_pos _

theorem place_int (i : Int) : (Number.int i).place? = some (.point (i * Double.unit)) := rfl

theorem lt_int (i j : Int) : (Number.int i).lt (.int j) = decide (i < j) := by
  simp only [lt, place_int, Place.lt, Int.mul_lt_mul_right unit_pos]

theorem eq_int (i j : Int) : (Number.int i).eq (.int j) = decide (i = j) := by
  simp only [eq, place_int, Place.point.injEq, Int.mul_eq_mul_right_iff (Int.ne_of_gt unit_pos)]

theorem lt_unplaced {n : Number} (missing : n.place? = none) (a : Number) : a.lt n = false := by
  rw [lt, missing]
  cases a.place? <;> rfl

theorem le_unplaced {n : Number} (missing : n.place? = none) (a : Number) : a.le n = false := by
  rw [le, lt_unplaced missing, eq, missing]
  cases a.place? <;> rfl

theorem lt_nan (a : Number) (constant : Bool) : a.lt (.real (.nan constant)) = false := lt_unplaced rfl a

theorem le_steps {a : Number} (placed : a.place? = some (.point steps)) (i : Int) :
    (Number.int i).le a = decide (i * Double.unit ≤ steps) := by
  simp only [le, lt, eq, place_int, placed, Place.lt, Place.point.injEq, ← Bool.decide_or, decide_eq_decide]
  exact Int.le_iff_lt_or_eq.symm

theorem le_int (i j : Int) : (Number.int i).le (.int j) = decide (i ≤ j) := by
  rw [le_steps rfl, decide_eq_decide]
  exact Int.mul_le_mul_right unit_pos

theorem lt_false (n : Number) (i : Int) :
    n.lt (.int i) = false ↔ (Number.int i).le n = true ∨ n.place? = none := by
  simp only [le, lt, eq, place_int]
  generalize i * (Double.unit : Int) = bound
  rcases n.place? with _ | (_ | steps | _) <;> simp [Place.lt]
  omega

theorem le_false (n : Number) (i : Int) :
    n.le (.int i) = false ↔ (Number.int i).lt n = true ∨ n.place? = none := by
  simp only [le, lt, eq, place_int]
  generalize i * (Double.unit : Int) = bound
  rcases n.place? with _ | (_ | steps | _) <;> simp [Place.lt]
  omega

-- A number as it stands in a record.
def toJson : Number → Json
  | .int i => .int i
  | .real d => .real d

end Number

theorem Json.same_bool (a b : Bool) : (Json.bool a).same (.bool b) = (a == b) := by
  cases a <;> cases b <;> simp [same, number?, Number.eq_int]

namespace Relation

-- What a live value is worth as a number, if anything.
inductive Measures : Json → Number → Prop
  | whole (i : Int) : Measures (.int i) (.int i)
  | real (ordinary : d.isNan = false) : Measures (.real d) (.real d)
  | spelled (read : numeral? s = some n) : Measures (.text s) n

variable {x : Json} {s t u name : String} {a b : Number}

theorem measures_exact : Measures x a ↔ asNumber? x = some a := by
  constructor
  · intro worth
    cases worth with
    | whole i => rfl
    | @real d ordinary => cases d <;> first | rfl | cases ordinary
    | spelled read => exact read
  · intro worth
    cases x with
    | int i =>
      cases worth
      exact .whole i
    | real d =>
      cases d with
      | nan => cases worth
      | infinite | finite =>
        cases worth
        exact .real rfl
    | text s => exact .spelled worth
    | _ => cases worth

theorem numeral_cases (read : numeral? s = some a) :
    (∃ i, a = .int i) ∨ ∃ negative steps, a = .real (.finite negative steps) := by
  unfold numeral? at read
  dsimp only at read
  split at read
  all_goals
    split at read
    · cases read
      exact .inl ⟨_, rfl⟩
    · split at read
      · cases read
        exact .inr ⟨_, _, rfl⟩
      · cases read

theorem numeral_value (read : numeral? s = some a) : ∃ p, a.value? = some p := by
  rcases numeral_cases read with ⟨i, rfl⟩ | ⟨negative, steps, rfl⟩ <;> exact ⟨_, rfl⟩

theorem measures_value (worth : Measures x a) : ∃ p, a.value? = some p := by
  cases worth with
  | whole i => exact ⟨_, rfl⟩
  | @real d ordinary => cases d <;> first | exact ⟨_, rfl⟩ | cases ordinary
  | spelled read => exact numeral_value read

inductive Coerced (t : String) : Json → Prop
  | truth (b : Bool) (spelled : t = if b then "true" else "false") : Coerced t (.bool b)
  | number (untrue : t ≠ "true") (unfalse : t ≠ "false") (read : numeral? t = some n) : Coerced t n.toJson
  | text (untrue : t ≠ "true") (unfalse : t ≠ "false") (unread : numeral? t = none) : Coerced t (.text t)

theorem coerce_coerced (t : String) : Coerced t (coerce (.text t)) := by
  rw [coerce, Json.display_text]
  · split
    · exact .truth true ‹_›
    · split
      · exact .truth false ‹_›
      · split
        · exact .number ‹_› ‹_› ‹_›
        · exact .number ‹_› ‹_› ‹_›
        · exact .text ‹_› ‹_› ‹_›
  all_goals nofun

def comparand? (t : String) : Option Number :=
  match coerce (.text t) with
  | .int i => some (.int i)
  | .real d => some (.real d)
  | _ => none

theorem comparand_coerce (read : comparand? t = some b) : coerce (.text t) = b.toJson := by
  unfold comparand? at read
  split at read <;> cases read <;> assumption

theorem comparand_asNumber (t : String) : asNumber? (coerce (.text t)) = comparand? t := by
  unfold comparand?
  have coerced := coerce_coerced t
  generalize coerce (.text t) = v at coerced
  cases coerced with
  | truth => rfl
  | number _ _ read => rcases numeral_cases read with ⟨i, rfl⟩ | ⟨negative, steps, rfl⟩ <;> rfl
  | text _ _ unread => exact unread

theorem comparand_value (read : comparand? t = some b) : ∃ p, b.value? = some p := by
  rw [← comparand_asNumber] at read
  exact measures_value (measures_exact.mpr read)

def equalNumber? (x : Json) : Option Number := asEqualNumber? (if x.kind = .list then .text (asText x) else x)

theorem bothNumbers_any (a? : Option Number) (b : Number) :
    (match a?, some b with
      | some x, some y => x.eq y
      | _, _ => false) = a?.any (·.eq b) := by
  cases a? <;> rfl

theorem real_any (d : Double) (b : Number) : (Number.real d).eq b = (asNumber? (.real d)).any (·.eq b) := by
  cases d <;> rfl

theorem looselyEqual_number (x : Json) (measured : asNumber? b.toJson = some b) :
    looselyEqual x b.toJson = (equalNumber? x).any (·.eq b) := by
  have equal : asEqualNumber? b.toJson = some b := by cases b <;> exact measured
  unfold looselyEqual
  rw [equal]
  cases x with
  | real d =>
    cases b with
    | int i => exact bothNumbers_any _ _
    | real e => exact real_any d _
  | _ => cases b <;> first | rfl | exact bothNumbers_any _ _

theorem ordered_number (holds : Number → Number → Bool) (x : Json) (t : String) :
    ordered holds x (coerce (.text t)) = ((asNumber? x).any fun a => (comparand? t).any (holds a)) := by
  unfold ordered
  rw [comparand_asNumber]
  cases asNumber? x <;> cases comparand? t <;> rfl

theorem equal_number (read : comparand? t = some b) (x : Json) :
    looselyEqual x (coerce (.text t)) = (equalNumber? x).any (·.eq b) := by
  have measured := comparand_asNumber t
  rw [read, comparand_coerce read] at measured
  rw [comparand_coerce read, looselyEqual_number x measured]

theorem measures_equalNumber (worth : Measures x a) : equalNumber? x = some a := by
  have number := measures_exact.mp worth
  cases worth <;> exact number

def comparisons : List Relation := [.equals, .notEquals, .greater, .greaterOrEqual, .less, .lessOrEqual]

-- The names of the four that order, with the long ones of older records.
def orderNames : List String :=
  ["GT", "GTE", "LT", "LTE", "GREATER_THAN", "GREATER_OR_EQUAL", "LESS_THAN", "LESS_OR_EQUAL"]

def comparisonNames : List String := "EQUALS" :: "NOT_EQUALS" :: orderNames

theorem comparison_named : ∀ name ∈ comparisonNames, ∃ r ∈ comparisons, ofName? name = some r := by decide

theorem order_named : ∀ name ∈ orderNames,
    ∃ r ∈ [greater, greaterOrEqual, less, lessOrEqual], ofName? name = some r := by decide

theorem compare_known (known : ofName? name = some r) (x t : Json) : compare x (.text name) t = .ok (r.holds x t) := by
  simp [compare, known]

theorem ordered_numbers (worth : Measures x a) (read : comparand? t = some b) (holds : Number → Number → Bool) :
    ordered holds x (coerce (.text t)) = holds a b := by
  simp [ordered_number, measures_exact.mp worth, read]

theorem equal_numbers (worth : Measures x a) (read : comparand? t = some b) :
    looselyEqual x (coerce (.text t)) = a.eq b := by
  simp [equal_number read, measures_equalNumber worth]

theorem holds_unordered (apart : ¬∃ a b, Measures x a ∧ comparand? t = some b) :
    ∀ r ∈ [greater, greaterOrEqual, less, lessOrEqual], r.holds x (.text t) = false := by
  have nothing : ∀ holds, ordered holds x (coerce (.text t)) = false := by
    intro holds
    rw [ordered_number]
    cases worth : asNumber? x with
    | none => rfl
    | some a =>
      cases read : comparand? t with
      | none => rfl
      | some b => exact absurd ⟨a, b, measures_exact.mpr worth, read⟩ apart
  simp [holds, nothing]

theorem holds_placed (first : comparand? t = some a) (second : comparand? u = some b) (same : a.place? = b.place?)
    (x : Json) : ∀ r ∈ comparisons, r.holds x (.text t) = r.holds x (.text u) := by
  have equal : ∀ c : Number, c.eq a = c.eq b := fun c => by rw [Number.eq, Number.eq, same]
  have below : ∀ c : Number, c.lt a = c.lt b := fun c => by rw [Number.lt, Number.lt, same]
  have above : ∀ c : Number, a.lt c = b.lt c := fun c => by rw [Number.lt, Number.lt, same]
  have reversed : ∀ c : Number, a.eq c = b.eq c := fun c => by rw [Number.eq, Number.eq, same]
  simp [comparisons, holds, ordered_number, first, second, equal_number first, equal_number second, Number.le,
    equal, below, above, reversed]

theorem exactly_one (worth : a.value? = some p) (other : b.value? = some q) :
    [a.lt b, a.eq b, b.lt a].count true = 1 := by
  have below := Number.lt_value worth other
  have level := Number.eq_value worth other
  have above := Number.lt_value other worth
  rcases lt_trichotomy p q with less | equal | greater
  · rw [below.mpr less, Bool.eq_false_iff.mpr (mt level.mp less.ne), Bool.eq_false_iff.mpr (mt above.mp less.asymm)]
    rfl
  · rw [level.mpr equal, Bool.eq_false_iff.mpr (mt below.mp equal.not_lt), Bool.eq_false_iff.mpr (mt above.mp equal.not_gt)]
    rfl
  · rw [above.mpr greater, Bool.eq_false_iff.mpr (mt level.mp greater.ne'), Bool.eq_false_iff.mpr (mt below.mp greater.asymm)]
    rfl

def aliases : List (String × String) := [
  ("GREATER_THAN", "GT"), ("GREATER_OR_EQUAL", "GTE"), ("LESS_THAN", "LT"), ("LESS_OR_EQUAL", "LTE")]

-- The comparisons of numbers are those of one line on which integers and doubles
-- stand by what they are worth. What is no number on either side has no order,
-- and of a comparand only its worth counts, however it is spelled.
theorem compare_coherent :
    (∀ x t a b, Measures x a → comparand? t = some b → ∃ less equal greater,
      compare x (.text "LT") (.text t) = .ok less ∧ compare x (.text "EQUALS") (.text t) = .ok equal ∧
      compare x (.text "GT") (.text t) = .ok greater ∧ [less, equal, greater].count true = 1 ∧
      compare x (.text "LTE") (.text t) = .ok (less || equal) ∧
      compare x (.text "GTE") (.text t) = .ok (greater || equal) ∧
      compare x (.text "NOT_EQUALS") (.text t) = .ok (!equal) ∧
      ∃ p q, a.value? = some p ∧ b.value? = some q ∧
        (less = true ↔ p < q) ∧ (equal = true ↔ p = q) ∧ (greater = true ↔ q < p)) ∧
    (∀ x t, (¬∃ a b, Measures x a ∧ comparand? t = some b) →
      ∀ name ∈ orderNames, compare x (.text name) (.text t) = .ok false) ∧
    (∀ t u a b, comparand? t = some a → comparand? u = some b → a.value? = b.value? →
      ∀ x, ∀ name ∈ comparisonNames, compare x (.text name) (.text t) = compare x (.text name) (.text u)) ∧
    ∀ pair ∈ aliases, ∀ x t, compare x (.text pair.1) t = compare x (.text pair.2) t := by
  refine ⟨?_, ?_, ?_, ?_⟩
  · intro x t a b worth read
    obtain ⟨p, valued⟩ := measures_value worth
    obtain ⟨q, other⟩ := comparand_value read
    have order := ordered_numbers worth read
    have equality := equal_numbers worth read
    refine ⟨a.lt b, a.eq b, b.lt a, ?_, ?_, ?_, exactly_one valued other, ?_, ?_, ?_, p, q, valued, other,
      Number.lt_value valued other, Number.eq_value valued other, Number.lt_value other valued⟩
    · rw [compare_known (r := .less) rfl, holds, order]
    · rw [compare_known (r := .equals) rfl, holds, equality]
    · rw [compare_known (r := .greater) rfl, holds, order]
    · rw [compare_known (r := .lessOrEqual) rfl, holds, order, Number.le]
    · rw [compare_known (r := .greaterOrEqual) rfl, holds, order, Number.le, Number.eq_symm]
    · rw [compare_known (r := .notEquals) rfl, holds, equality]
  · intro x t apart name listed
    obtain ⟨r, ordering, known⟩ := order_named name listed
    rw [compare_known known, holds_unordered apart r ordering]
  · intro t u a b first second same x name listed
    obtain ⟨r, comparison, known⟩ := comparison_named name listed
    rw [compare_known known, compare_known known, holds_placed first second (Number.place_value same) x r comparison]
  · have alike : ∀ pair ∈ aliases, ofName? pair.1 = ofName? pair.2 := by decide
    intro pair listed x t
    rw [compare, compare, alike pair listed]

theorem compare_coherent_unrounded :
    let above := Json.int (2 ^ 53 + 1)
    let power := "9007199254740992.0"
    Measures above (.int (2 ^ 53 + 1)) ∧ comparand? power = some (.real (.finite false (twoPow 1127))) ∧
    compare above (.text "GT") (.text power) = .ok true ∧ compare above (.text "EQUALS") (.text power) = .ok false ∧
    compare above (.text "LT") (.text power) = .ok false ∧
    compare (.bool true) (.text "LESS_THAN") (.text "5") = .ok false ∧
    compare (.list [.text "5"]) (.text "EQUALS") (.text " 5e0 ") =
      compare (.list [.text "5"]) (.text "EQUALS") (.text "05") := by
  intro above power
  have read : comparand? power = some (.real (.finite false (twoPow 1127))) := by decide +kernel
  have spelled : comparand? " 5e0 " = some (.real (.finite false (5 * Double.unit))) := by decide +kernel
  have plain : comparand? "05" = some (.int 5) := by decide +kernel
  have greatest : Relation.greater.holds above (.text power) = true := by decide +kernel
  obtain ⟨coherent, unordered, respelled, _⟩ := compare_coherent
  obtain ⟨less, equal, greater, below, level, higher, one, _⟩ := coherent _ _ _ _ (.whole _) read
  have known : compare above (.text "GT") (.text power) = .ok true := by
    rw [compare_known (r := .greater) rfl, greatest]
  cases higher.symm.trans known
  obtain ⟨rfl, rfl⟩ : less = false ∧ equal = false := by
    cases less <;> cases equal <;> first | exact ⟨rfl, rfl⟩ | cases one
  refine ⟨.whole _, read, known, level, below, unordered _ _ ?_ _ (by decide), respelled _ _ _ _ spelled plain ?_ _ _ (by decide)⟩
  · rintro ⟨a, b, worth, _⟩
    cases worth
  · exact Number.whole_value 5

end Relation
end Lifecycle
