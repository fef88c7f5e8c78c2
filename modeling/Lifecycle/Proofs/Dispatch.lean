import Lifecycle.Dispatch
import Lifecycle.Proofs.Evaluation.Groups
import Lifecycle.Proofs.Record.Misreadings
import Lifecycle.Proofs.Replay.Immersion

namespace Lifecycle.Dispatch

variable {e : Engine} {s : Store} {d : Dispatcher} {fields : List (String × Json)} {conditions : List Condition}
  {log : List Attempt} {config : Json} {f : Fault}

def complaint (name : String) (f : Fault) : String :=
  if (ActionType.ofName? name).isNone then "Invalid action type: " ++ name else f.message

-- An unknown type is a bad value for the reading as well.
theorem payload_decode : payload (.text name) config =
    match Payload.decode (.text name) config with
    | .ok p => .ok (.ok p)
    | .error f => if f.family = .badValue then .ok (.error (complaint name f)) else .error f := by
  unfold payload complaint
  cases named : ActionType.ofName? name with
  | none => simp [ActionType.ofJson?, named, Payload.decode, Json.isKey, Fault.family]
  | some t =>
    cases Payload.decode (.text name) config <;> simp [ActionType.ofJson?, named]

theorem context_error (calm : e.stalled = []) : context? e s user = .error f ↔
    (s.user? user).isSome ∧ e.config.lowBalanceThreshold.number? = none ∧
      f = .misuse (.order "<" .int e.config.lowBalanceThreshold.kind) := by
  unfold context?
  rw [Engine.reach_calm calm]
  cases s.user? user with
  | none => simp
  | some facts => simp [map_error, Context.build_error]

theorem manual_complains (failed : Payload.decode (.text name) config = .error f) (value : f.family = .badValue) :
    manual e s d (.text name) config conditions user log = .ok (.failed (complaint name f), log) := by
  unfold manual
  rw [payload_decode, failed]
  simp [value]

theorem manual_error (calm : e.stalled = []) (named : ∀ c ∈ conditions, c.IsNamed) :
    manual e s d (.text name) (.record fields) conditions user log = .error f ↔
      Payload.Misreads name (.record fields) f ∨
        (∃ p, Payload.decode (.text name) (.record fields) = .ok p) ∧ (s.user? user).isSome ∧
          e.config.lowBalanceThreshold.number? = none ∧
          f = .misuse (.order "<" .int e.config.lowBalanceThreshold.kind) := by
  rw [← Payload.decode_misreads, ← context_error calm, manual, payload_decode]
  cases decoded : Payload.decode (.text name) (.record fields) with
  | error g =>
    by_cases value : g.family = .badValue
    · refine iff_of_false (by simp [value]) ?_
      rintro (⟨same, family⟩ | ⟨⟨p, read⟩, _⟩)
      · cases same
        exact family value
      · cases read
    · simp only [value, if_false, Except.error.injEq]
      constructor
      · rintro rfl
        exact .inl ⟨rfl, value⟩
      · rintro (⟨same, _⟩ | ⟨⟨p, read⟩, _⟩)
        · exact same
        · cases read
  | ok p =>
    cases found : context? e s user with
    | error g => simp
    | ok context? =>
      cases context? with
      | none => simp
      | some context =>
        have checkable : Condition.Checkable context conditions := Condition.checkable_named named
        obtain ⟨verdict, decided⟩ := Condition.evaluate_answers checkable
        cases verdict <;> simp [decided]

-- An action chosen by an operator is answered for, whatever the dispatcher does: a
-- bad value in its configuration is told as a failure and nothing is handed over.
-- Only a conversion that fails with more than a bad value gets out, of the reading
-- as of the dispatch, and a threshold that is no number where there is a user to
-- compare with it.
theorem manual_answers (calm : e.stalled = []) (named : ∀ c ∈ conditions, c.IsNamed) (d : Dispatcher)
    (name user : String) (fields : List (String × Json)) :
    (∀ f, Payload.decode (.text name) (.record fields) = .error f ∧ f.family ≠ .badValue ↔
      Payload.Misreads name (.record fields) f) ∧
    (∀ f, Payload.decode (.text name) (.record fields) = .error f → f.family = .badValue →
      manual e s d (.text name) (.record fields) conditions user log = .ok (.failed (complaint name f), log)) ∧
    ∀ f, manual e s d (.text name) (.record fields) conditions user log = .error f ↔
      Payload.Misreads name (.record fields) f ∨
        (∃ p, Payload.decode (.text name) (.record fields) = .ok p) ∧ (s.user? user).isSome ∧
          e.config.lowBalanceThreshold.number? = none ∧
          f = .misuse (.order "<" .int e.config.lowBalanceThreshold.kind) :=
  ⟨Payload.decode_misreads name fields, fun _ => manual_complains, fun _ => manual_error calm named⟩

def unavailable : Dispatcher := fun _ _ _ => .raised "unavailable"

theorem manual_answers_untagged :
    let conditions : List Condition := [⟨⟨.text "tags", .text "CONTAINS", "vip"⟩, 0⟩]
    Engine.standard.stalled = [] ∧ (∀ c ∈ conditions, c.IsNamed) ∧
      manual .standard (Engine.oneWay "ab" "b") unavailable (.text "TAG_USER") (.record [("tag", .text "")]) conditions
        "u" [] = .ok (.failed "Tag must not be empty", []) := by
  intro conditions
  have named : ∀ c ∈ conditions, c.IsNamed := List.forall_mem_singleton.mpr ⟨rfl, rfl⟩
  obtain ⟨_, complains, _⟩ := manual_answers (e := Engine.standard) (s := Engine.oneWay "ab" "b") rfl named unavailable
    "TAG_USER" "u" [("tag", .text "")]
  exact ⟨rfl, named, complains .emptyTag rfl rfl⟩

theorem manual_misread :
    let package : Json := .record [("customPackage", .list [.text "x"])]
    let endless : Json := .record [("amount", .real (.infinite false))]
    Payload.decode (.text "SEND_MESSAGE") package = .error (.lacksOperation .list "get") ∧
      Payload.decode (.text "GRANT_BURNABLE_BONUS") endless = .error (.numeral .infiniteInteger) ∧
      Fault.family (.lacksOperation .list "get") ≠ .badValue ∧
      Fault.family (.numeral .infiniteInteger) ≠ .badValue ∧
      manual .standard (Engine.oneWay "ab" "b") unavailable (.text "SEND_MESSAGE") package [] "u" [] =
        .error (.lacksOperation .list "get") ∧
      manual .standard (Engine.oneWay "ab" "b") unavailable (.text "GRANT_BURNABLE_BONUS") endless [] "u" [] =
        .error (.numeral .infiniteInteger) :=
  ⟨rfl, rfl, nofun, nofun, rfl, rfl⟩

end Lifecycle.Dispatch
