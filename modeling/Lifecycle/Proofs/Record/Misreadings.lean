import Lifecycle.Proofs.Json.Bounds
import Lifecycle.Proofs.Json.Fields
import Lifecycle.Proofs.Outcome
import Lifecycle.Proofs.Record.Action

namespace Lifecycle

inductive Conversion where
  | lookup (v : Json) (key : String)
  | required (v : Json) (key : String)
  | integer (v : Json)
  | real (v : Json)

namespace Conversion

def run : Conversion → Except Fault Unit
  | lookup v key => (v.field? key).map fun _ => ()
  | required v key => (v.field key).map fun _ => ()
  | integer v => v.toInt.map fun _ => ()
  | real v => v.toReal.map fun _ => ()

def Succeeds (c : Conversion) : Prop := c.run = .ok ()

-- What a conversion fails with that is neither a bad value, a missing key nor a
-- kind it does not take.
def Escapes (f : Fault) : Conversion → Prop
  | lookup v _ => v.kind ≠ .record ∧ f = .lacksOperation v.kind "get"
  | required _ _ => False
  | integer v => (∃ negative, v = .real (.infinite negative)) ∧ f = .numeral .infiniteInteger
  | real v => (∃ i, v = .int i ∧ Double.ofInt? i = none) ∧ f = .numeral .realOverflow

end Conversion

-- A fault that is no bad value and is not blamed on the configuration either.
structure Fault.IsUncaught (f : Fault) : Prop where
  family : f.family ≠ .badValue
  blameless : ∀ t, Payload.blame t f = f

theorem Payload.mapError_blame {α : Type} {x : Except Fault α} (t : ActionType) (family : f.family ≠ .badValue) :
    x.mapError (blame t) = .error f ↔ x = .error f ∧ f.IsUncaught := by
  constructor
  · intro failed
    cases x with
    | ok a => cases failed
    | error g =>
      cases failed
      have same : ∀ t, blame t g = g := by
        intro t
        cases g <;> first | rfl | exact absurd rfl family
      rw [same] at family ⊢
      exact ⟨rfl, family, same⟩
  · rintro ⟨rfl, uncaught⟩
    exact congrArg Except.error (uncaught.blameless t)

namespace Conversion

theorem readInteger_family (failed : Numeral.readInteger s = .error e) : Fault.numeralFamily e = .badValue := by
  unfold Numeral.readInteger at failed
  dsimp only at failed
  repeat' split at failed
  all_goals
    cases failed
    try rfl

theorem readReal_family (failed : Numeral.readReal s = .error e) : Fault.numeralFamily e = .badValue := by
  unfold Numeral.readReal at failed
  split at failed
  · cases failed
  · cases failed
    rfl

theorem numeral_uncaught : (Fault.numeral e).IsUncaught ↔ Fault.numeralFamily e ≠ .badValue :=
  ⟨fun uncaught => uncaught.family, fun family => ⟨family, fun _ => rfl⟩⟩

theorem misuse_uncaught : ¬(Fault.misuse e).IsUncaught := fun uncaught =>
  nomatch uncaught.blameless .noAction

theorem missingKey_uncaught : ¬(Fault.missingKey key).IsUncaught := fun uncaught =>
  nomatch uncaught.blameless .noAction

theorem toInt_escapes : v.toInt = .error f ∧ f.IsUncaught ↔ Escapes f (integer v) := by
  constructor
  · rintro ⟨failed, uncaught⟩
    cases v with
    | bool | int => cases failed
    | null | list | record =>
      cases failed
      exact absurd uncaught misuse_uncaught
    | text s =>
      obtain ⟨e, refused, rfl⟩ := mapError_error.mp failed
      exact absurd (readInteger_family refused) (numeral_uncaught.mp uncaught)
    | real d =>
      cases d with
      | finite => cases failed
      | nan =>
        cases failed
        exact absurd rfl uncaught.family
      | infinite =>
        cases failed
        exact ⟨⟨_, rfl⟩, rfl⟩
  · rintro ⟨⟨negative, rfl⟩, rfl⟩
    exact ⟨rfl, numeral_uncaught.mpr nofun⟩

theorem toReal_oversized :
    (Json.int i).toReal = .error f ↔ Double.ofInt? i = none ∧ f = .numeral .realOverflow := by
  rw [Json.toReal, Numeral.realOfInteger_exact, mapError_error]
  generalize Double.ofInt? i = nearest
  cases nearest <;> simp [eq_comm]

theorem toReal_escapes : v.toReal = .error f ∧ f.IsUncaught ↔ Escapes f (real v) := by
  constructor
  · rintro ⟨failed, uncaught⟩
    cases v with
    | bool | real => cases failed
    | null | list | record =>
      cases failed
      exact absurd uncaught misuse_uncaught
    | text s =>
      obtain ⟨e, refused, rfl⟩ := mapError_error.mp failed
      exact absurd (readReal_family refused) (numeral_uncaught.mp uncaught)
    | int i =>
      obtain ⟨oversized, rfl⟩ := toReal_oversized.mp failed
      exact ⟨⟨i, rfl, oversized⟩, rfl⟩
  · rintro ⟨⟨i, rfl, oversized⟩, rfl⟩
    exact ⟨toReal_oversized.mpr ⟨oversized, rfl⟩, numeral_uncaught.mpr nofun⟩

theorem run_escapes {c : Conversion} : c.run = .error f ∧ f.IsUncaught ↔ c.Escapes f := by
  cases c with
  | integer v => rw [run, map_error, toInt_escapes]
  | real v => rw [run, map_error, toReal_escapes]
  | lookup v key =>
    rw [run, map_error]
    constructor
    · rintro ⟨failed, _⟩
      cases v <;> cases failed
      all_goals exact ⟨by simp [Json.kind], rfl⟩
    · rintro ⟨other, rfl⟩
      refine ⟨?_, by simp [Fault.family], fun _ => rfl⟩
      cases v <;> first | rfl | exact absurd rfl other
  | required v key =>
    rw [run, map_error]
    refine iff_of_false ?_ id
    rintro ⟨failed, uncaught⟩
    cases v with
    | record fields =>
      cases found : fields.lookup key with
      | some => simp [Json.field, found] at failed
      | none =>
        simp only [Json.field, found] at failed
        cases failed
        exact missingKey_uncaught uncaught
    | _ =>
      cases failed
      exact absurd uncaught misuse_uncaught

end Conversion

namespace Json

def entry (v : Json) (key : String) (fallback : Json) : Json :=
  match v with
  | .record fields => (fields.lookup key).getD fallback
  | _ => fallback

theorem fieldOr_record (fields : List (String × Json)) (key : String) (fallback : Json) :
    fieldOr (.record fields) key fallback = .ok (entry (.record fields) key fallback) := rfl

theorem fieldOrNull_record (fields : List (String × Json)) (key : String) :
    fieldOrNull (.record fields) key = .ok (entry (.record fields) key .null) := rfl

theorem fieldOr_lookup (v : Json) : (v.fieldOr key fallback).map (fun _ => ()) = (v.field? key).map fun _ => () := by
  cases v <;> rfl

theorem fieldOr_found (found : fieldOr v key fallback = .ok w) : ∃ fields, v = .record fields := by
  cases v with
  | record fields => exact ⟨fields, rfl⟩
  | _ => cases found

theorem field_found (found : field v key = .ok w) : ∃ fields, v = .record fields ∧ entry v key .null = w := by
  cases v with
  | record fields =>
    cases present : fields.lookup key with
    | none => simp [field, present] at found
    | some value =>
      simp only [field, present] at found
      cases found
      exact ⟨fields, rfl, by simp [entry, present]⟩
  | _ => cases found

end Json

namespace Payload
open Conversion

def optionalConversion (ask : Json → Conversion) : Json → List Conversion
  | .null => []
  | .text "" => []
  | v => [ask v]

def packageConversions (v : Json) : List Conversion :=
  if v.truthy then
    [.lookup v "name", .real (v.entry "price" (.int 0)), .integer (v.entry "credits" (.int 0))]
  else []

def bonusConversions (v : Json) : List Conversion :=
  let lifetime := v.entry "expiresInHours" .null
  .required v "amount" :: .integer (v.entry "amount" .null) ::
    ((if lifetime.truthy then [.integer lifetime] else []) ++
      (optionalConversion .integer (v.entry "conditionGenerations" .null) ++
        optionalConversion .real (v.entry "conditionTopUpAmount" .null)))

def messageConversions (v : Json) : List Conversion :=
  let bonus := if (v.entry "includeBonus" (.bool true)).truthy then v.entry "burnableBonus" .null else .null
  (if (v.entry "includeOffer" (.bool true)).truthy then packageConversions (v.entry "customPackage" .null) else []) ++
    if bonus.truthy then bonusConversions bonus else []

def conversions (v : Json) : ActionType → List Conversion
  | .sendMessage => messageConversions v
  | .grantBonus => bonusConversions v
  | .tagUser => [.required v "tag"]
  | .specialOffer => packageConversions (v.entry "customPackage" .null)
  | .switchModelHint => [.required v "modelId"]
  | .showTripwire | .enableReferral | .noAction => []

section
variable {α β : Type} {x : Except Fault α} {g : α → Except Fault β} {cs ds : List Conversion}

-- A reading that fails as its conversions do, and succeeds when they all do.
def Performs (x : Except Fault α) (cs : List Conversion) : Prop := x.map (fun _ => ()) = forM cs Conversion.run

-- A reading from which nothing is left uncaught but by its conversions.
def Leaks (x : Except Fault α) (cs : List Conversion) : Prop :=
  ∀ f, f.IsUncaught → (x = .error f ↔ forM cs Conversion.run = .error f)

theorem performs_one (same : x.map (fun _ => ()) = Conversion.run c) : Performs x [c] := by
  rw [Performs, same, List.forM_cons]
  cases c.run <;> rfl

theorem performs_pure (a : α) : Performs (.ok a) [] := rfl

theorem performs_cons (first : x.map (fun _ => ()) = Conversion.run c)
    (later : ∀ a, x = .ok a → Performs (g a) cs) : Performs (x >>= g) (c :: cs) := by
  unfold Performs at later ⊢
  rw [List.forM_cons, ← first]
  cases x with
  | error => rfl
  | ok a => exact later a rfl

theorem performs_leaks (performs : Performs x cs) : Leaks x cs := by
  intro f _
  rw [← performs, map_error]

theorem leaks_append (first : Performs x cs) (later : ∀ a, x = .ok a → Leaks (g a) ds) :
    Leaks (x >>= g) (cs ++ ds) := by
  intro f uncaught
  rw [List.forM_append, ← first]
  cases x with
  | error => simp [bind, Except.bind, Except.map]
  | ok a => exact later a rfl f uncaught

theorem leaks_cons (first : x.map (fun _ => ()) = Conversion.run c) (later : ∀ a, x = .ok a → Leaks (g a) cs) :
    Leaks (x >>= g) (c :: cs) :=
  leaks_append (performs_one first) later

theorem leaks_nothing (known : ∀ f, x = .error f → f.family = .badValue) : Leaks x [] := by
  intro f uncaught
  exact iff_of_false (fun failed => uncaught.family (known f failed)) nofun

theorem leaks_last (first : Performs x cs)
    (known : ∀ a, x = .ok a → ∀ f, g a = .error f → f.family = .badValue) : Leaks (x >>= g) cs := by
  have leaks := leaks_append first fun a given => leaks_nothing (known a given)
  rwa [List.append_nil] at leaks

end

theorem optional_performs {read : Json → Except Fault α} {ask : Json → Conversion}
    (each : ∀ v, (read v).map (fun _ => ()) = (ask v).run) (v : Json) :
    Performs (optional read v) (optionalConversion ask v) := by
  unfold optional
  split
  · exact performs_pure _
  · exact performs_pure _
  · rw [optionalConversion]
    · refine performs_one ?_
      rw [← each]
      cases read v <;> rfl
    · assumption
    · assumption

theorem readPackage_performs (v : Json) : Performs (readPackage v) (packageConversions v) := by
  unfold readPackage packageConversions
  by_cases some : v.truthy
  · simp only [some]
    refine performs_cons (Json.fieldOr_lookup v) fun name named => ?_
    obtain ⟨fields, rfl⟩ := Json.fieldOr_found named
    simp only [Json.fieldOr_record, ok_bind]
    exact performs_cons rfl fun price _ => performs_cons rfl fun credits _ => performs_pure _
  · simp only [some]
    exact performs_pure _

theorem readBonus_leaks (v : Json) : Leaks (readBonus v) (bonusConversions v) := by
  unfold readBonus bonusConversions
  refine leaks_cons rfl fun amount given => ?_
  obtain ⟨fields, rfl, rfl⟩ := Json.field_found given
  refine leaks_cons rfl fun amount _ => ?_
  simp only [Json.fieldOrNull_record, ok_bind]
  have rest (hours : Int) : Leaks (do
      let generations ← optional Json.toInt (Json.entry (.record fields) "conditionGenerations" .null)
      let topUp ← optional Json.toReal (Json.entry (.record fields) "conditionTopUpAmount" .null)
      let checked ← checkBonus amount hours
      return (⟨checked.1, checked.2, generations, topUp⟩ : Bonus))
      (optionalConversion .integer (Json.entry (.record fields) "conditionGenerations" .null) ++
        optionalConversion .real (Json.entry (.record fields) "conditionTopUpAmount" .null)) := by
    refine leaks_append (optional_performs (fun _ => rfl) _) fun generations _ => ?_
    refine leaks_last (optional_performs (fun _ => rfl) _) fun topUp _ f failed => ?_
    rcases bind_error.mp failed with unchecked | ⟨_, _, done⟩
    · rcases checkBonus_exact.mp unchecked with ⟨_, rfl⟩ | ⟨_, _, rfl⟩ <;> rfl
    · cases done
  split
  · exact leaks_cons rfl fun hours _ => rest hours
  · exact rest 24

theorem counted_bonus (fields : List (String × Json)) :
    (if (Json.entry (.record fields) "includeBonus" (.bool (fields.lookup "burnableBonus").isSome)).truthy then
      (fields.lookup "burnableBonus").getD .null else .null) =
    if (Json.entry (.record fields) "includeBonus" (.bool true)).truthy then
      Json.entry (.record fields) "burnableBonus" .null else .null := by
  cases flagged : fields.lookup "includeBonus" <;> cases given : fields.lookup "burnableBonus" <;>
    simp [Json.entry, flagged, given]

theorem includedBonus_leaks (bonus : Json) (carry : Option Bonus → Payload) :
    Leaks (if bonus.truthy then (readBonus bonus).map some >>= fun b => .ok (carry b) else .ok (carry Option.none))
      (if bonus.truthy then bonusConversions bonus else []) := by
  split
  · intro f uncaught
    rw [← readBonus_leaks bonus f uncaught]
    cases readBonus bonus <;> simp [bind, Except.bind, Except.map]
  · exact performs_leaks (performs_pure _)

theorem readMessage_leaks (fields : List (String × Json)) :
    Leaks (readMessage (.record fields)) (messageConversions (.record fields)) := by
  unfold readMessage messageConversions
  simp only [Json.fieldOr_record, Json.fieldOrNull_record, Json.field?, ok_bind, counted_bonus, pure_ok]
  by_cases offered : (Json.entry (.record fields) "includeOffer" (.bool true)).truthy
  · simp only [offered, if_true]
    exact leaks_append (readPackage_performs _) fun package _ => includedBonus_leaks _ (.message _ _ package)
  · simp only [offered]
    exact includedBonus_leaks _ (.message _ .null Option.none)

theorem readTag_leaks (v : Json) : Leaks (readTag v) [.required v "tag"] := by
  unfold readTag
  refine leaks_last (performs_one rfl) fun found _ f failed => ?_
  dsimp only at failed
  split at failed
  · cases failed
    rfl
  · cases failed

theorem checkOffer_family (failed : checkOffer packageId package = .error f) : f.family = .badValue := by
  unfold checkOffer at failed
  split at failed
  · cases failed
    rfl
  · cases failed

theorem readOffer_leaks (fields : List (String × Json)) :
    Leaks (readOffer (.record fields)) (packageConversions (Json.entry (.record fields) "customPackage" .null)) := by
  unfold readOffer
  simp only [Json.fieldOr_record, Json.fieldOrNull_record, ok_bind, pure_ok]
  refine leaks_last (readPackage_performs _) fun package _ f failed => ?_
  rcases bind_error.mp failed with unoffered | ⟨_, _, done⟩
  · exact checkOffer_family unoffered
  · cases done

theorem readModelHint_leaks (fields : List (String × Json)) :
    Leaks (readModelHint (.record fields)) [.required (.record fields) "modelId"] := by
  unfold readModelHint
  exact leaks_last (performs_one rfl) fun model _ f failed => nomatch failed

theorem read_leaks (fields : List (String × Json)) (t : ActionType) :
    Leaks (read (.record fields) t) (conversions (.record fields) t) := by
  cases t with
  | sendMessage => exact readMessage_leaks fields
  | grantBonus =>
    intro f uncaught
    rw [read, map_error]
    exact readBonus_leaks _ f uncaught
  | tagUser => exact readTag_leaks _
  | specialOffer => exact readOffer_leaks fields
  | switchModelHint => exact readModelHint_leaks fields
  | showTripwire | enableReferral | noAction =>
    apply leaks_nothing
    intro f failed
    cases failed

def Misreads (name : String) (v : Json) (f : Fault) : Prop :=
  ∃ t, ActionType.ofName? name = some t ∧ LeftAt Conversion.Succeeds (Conversion.Escapes f) (conversions v t)

theorem read_misreads (fields : List (String × Json)) (t : ActionType) :
    read (.record fields) t = .error f ∧ f.IsUncaught ↔
      LeftAt Conversion.Succeeds (Conversion.Escapes f) (conversions (.record fields) t) := by
  constructor
  · rintro ⟨failed, uncaught⟩
    rw [read_leaks fields t f uncaught, forM_error] at failed
    refine (leftAt_congr (fun _ => Iff.rfl) fun c => ?_).mp failed
    rw [← run_escapes, and_iff_left uncaught]
  · rintro ⟨front, c, back, split, succeed, escapes⟩
    obtain ⟨failed, uncaught⟩ := run_escapes.mpr escapes
    rw [read_leaks fields t f uncaught, forM_error]
    exact ⟨⟨front, c, back, split, succeed, failed⟩, uncaught⟩

theorem decode_misreads (name : String) (fields : List (String × Json)) (f : Fault) :
    decode (.text name) (.record fields) = .error f ∧ f.family ≠ .badValue ↔ Misreads name (.record fields) f := by
  unfold decode Misreads
  simp only [Json.isKey, ActionType.ofJson?, Bool.not_true, Bool.false_eq_true, if_false]
  cases ActionType.ofName? name with
  | none =>
    apply iff_of_false
    · rintro ⟨failed, family⟩
      cases failed
      exact family rfl
    · rintro ⟨t, named, _⟩
      cases named
  | some t =>
    simp only [Option.some.injEq, exists_eq_left', ← read_misreads]
    constructor
    · rintro ⟨failed, family⟩
      exact (mapError_blame t family).mp failed
    · rintro ⟨failed, uncaught⟩
      exact ⟨(mapError_blame t uncaught.family).mpr ⟨failed, uncaught⟩, uncaught.family⟩

end Payload
end Lifecycle
