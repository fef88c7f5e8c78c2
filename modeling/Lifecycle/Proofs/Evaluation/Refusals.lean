import Lifecycle.Proofs.Evaluation.Readings
import Lifecycle.Proofs.Outcome

namespace Lifecycle

-- What an evaluation can take offence at: a field or an operator that is a list
-- or a record. The field is looked at first.
def Comparison.Refused (c : Comparison) (f : Fault) : Prop :=
  c.field.isKey = false ∧ f = .misuse (.keyOf c.field.kind) ∨
    c.field.isKey = true ∧ c.operator.isKey = false ∧ f = .misuse (.keyOf c.operator.kind)

theorem Comparison.refused_unnamed (c : Comparison) : (∃ f, c.Refused f) ↔ ¬c.IsNamed := by
  unfold Refused IsNamed
  cases c.field.isKey <;> cases c.operator.isKey <;> simp

theorem Context.resolve_error {ctx : Context} :
    ctx.resolve field = .error f ↔ field.isKey = false ∧ f = .misuse (.keyOf field.kind) := by
  cases field <;> simp [resolve, Json.isKey, eq_comm]

theorem Relation.compare_error :
    compare current operator target = .error f ↔ operator.isKey = false ∧ f = .misuse (.keyOf operator.kind) := by
  cases operator <;> simp [compare, Json.isKey, eq_comm]

namespace Condition
variable {ctx : Context} {cs : List Condition} {records : List Json}

theorem check_error (ctx : Context) {c : Condition} : c.check ctx = .error f ↔ c.Refused f := by
  unfold check Comparison.Refused
  cases resolved : ctx.resolve c.field with
  | error g =>
    obtain ⟨unnamed, rfl⟩ := Context.resolve_error.mp resolved
    simp only [unnamed, true_and, Bool.false_eq_true, false_and, or_false, Except.error.injEq]
    exact eq_comm
  | ok current =>
    have named : c.field.isKey = true := by
      rw [← Bool.not_eq_false]
      intro unnamed
      rw [Context.resolve_error.mpr ⟨unnamed, rfl⟩] at resolved
      cases resolved
    simp [named, Relation.compare_error]

def Holds (ctx : Context) (c : Condition) : Prop := c.check ctx = .ok true

def Fails (ctx : Context) (c : Condition) : Prop := c.check ctx = .ok false

theorem allHold_false : allHold ctx cs = .ok false ↔ LeftAt (Holds ctx) (Fails ctx) cs := by
  induction cs with
  | nil => exact iff_of_false nofun leftAt_nil
  | cons c rest ih =>
    rw [leftAt_cons, ← ih, allHold, Holds, Fails]
    split <;> simp [*]

theorem allHold_error : allHold ctx cs = .error f ↔ LeftAt (Holds ctx) (·.Refused f) cs := by
  induction cs with
  | nil => exact iff_of_false nofun leftAt_nil
  | cons c rest ih =>
    rw [leftAt_cons, ← ih, ← check_error ctx, allHold, Holds]
    split <;> simp [*]

theorem anyHolds_error {gs : List (Nat × List Condition)} : anyHolds ctx gs = .error f ↔
    LeftAt (fun g => LeftAt (Holds ctx) (Fails ctx) g.2) (fun g => LeftAt (Holds ctx) (·.Refused f) g.2) gs := by
  simp only [← allHold_false, ← allHold_error]
  induction gs with
  | nil => exact iff_of_false nofun leftAt_nil
  | cons g rest ih =>
    rw [leftAt_cons, ← ih, anyHolds]
    split <;> simp [*]

theorem evaluate_error : evaluate ctx cs = .error f ↔ LeftAt (fun g => LeftAt (Holds ctx) (Fails ctx) g.2)
    (fun g => LeftAt (Holds ctx) (·.Refused f) g.2) (groups cs) := by
  cases cs with
  | nil => exact iff_of_false nofun leftAt_nil
  | cons c rest => exact anyHolds_error

theorem named_exact (ctx : Context) (c : Condition) : c.IsNamed ↔ ∃ passed, c.check ctx = .ok passed := by
  have refused := c.refused_unnamed
  simp only [← check_error ctx] at refused
  cases checked : c.check ctx with
  | error f =>
    rw [checked] at refused
    exact iff_of_false (refused.mp ⟨f, rfl⟩) nofun
  | ok passed =>
    rw [checked] at refused
    exact iff_of_true (Classical.not_not.mp fun unnamed => nomatch (refused.mpr unnamed)) ⟨passed, rfl⟩

theorem trace_error : trace ctx cs = .error f ↔ LeftAt (·.IsNamed) (·.Refused f) cs := by
  rw [trace, mapM_error]
  refine leftAt_congr (fun c => ?_) fun c => ?_
  all_goals
    first | rw [named_exact ctx c] | rw [← check_error ctx]
    unfold check
    cases ctx.resolve c.field with
    | error => simp [bind, Except.bind]
    | ok actual => cases compared : Relation.compare actual c.operator (.text c.value) <;>
        simp [bind, Except.bind, pure, Except.pure, compared]

theorem trace_exact : (∃ findings, trace ctx cs = .ok findings) ↔ ∀ c ∈ cs, c.IsNamed := by
  constructor
  · rintro ⟨findings, traced⟩
    refine Classical.not_not.mp fun stopped => ?_
    obtain ⟨front, c, back, split, named, unnamed⟩ := leftAt_first stopped
    obtain ⟨f, refused⟩ := c.refused_unnamed.mpr unnamed
    rw [trace_error.mpr ⟨front, c, back, split, named, refused⟩] at traced
    cases traced
  · intro named
    have checkable : Checkable ctx cs := checkable_named named
    obtain ⟨findings, traced, _⟩ := trace_answers checkable
    exact ⟨findings, traced⟩

def IsUnfit (record : Json) : Prop :=
  ∃ v, (record.field "field" = .ok v ∨ record.field "operator" = .ok v) ∧ v.isKey = false

theorem decode_named {c : Condition} (decoded : decode record = .ok c) : c.IsNamed ↔ ¬IsUnfit record := by
  unfold decode at decoded
  obtain ⟨field, named, decoded⟩ := bind_ok.mp decoded
  obtain ⟨operator, compared, decoded⟩ := bind_ok.mp decoded
  obtain ⟨value, _, decoded⟩ := bind_ok.mp decoded
  obtain ⟨group, _, decoded⟩ := bind_ok.mp decoded
  obtain ⟨id, _, decoded⟩ := branch_ok decoded
  obtain ⟨groupId, _, decoded⟩ := bind_ok.mp decoded
  cases decoded
  simp [IsUnfit, Comparison.IsNamed, named, compared]

theorem mapM_decode (accepted : records.mapM decode = .ok cs) :
    (∀ c ∈ cs, c.IsNamed) ↔ ∀ record ∈ records, ¬IsUnfit record := by
  induction records generalizing cs with
  | nil =>
    cases accepted
    exact iff_of_true nofun nofun
  | cons record records ih =>
    rw [List.mapM_cons] at accepted
    obtain ⟨c, first, accepted⟩ := bind_ok.mp accepted
    obtain ⟨rest, others, accepted⟩ := bind_ok.mp accepted
    cases accepted
    rw [List.forall_mem_cons, List.forall_mem_cons, decode_named first, ih others]

-- Stored conditions are answered for in every context, unless one of them names
-- its field or its operator by a list or a record. A trace then fails, an
-- evaluation when it comes to that condition: behind groups with a member that
-- fails and behind members that hold.
theorem evaluation_refusals (accepted : records.mapM decode = .ok cs) (ctx : Context) :
    ((∃ findings, trace ctx cs = .ok findings) ↔ ∀ record ∈ records, ¬IsUnfit record) ∧
    (∀ f, trace ctx cs = .error f ↔ LeftAt (·.IsNamed) (·.Refused f) cs) ∧
    ((∀ record ∈ records, ¬IsUnfit record) → ∃ verdict, evaluate ctx cs = .ok verdict) ∧
    (∀ f, evaluate ctx cs = .error f ↔ LeftAt (fun g => LeftAt (Holds ctx) (Fails ctx) g.2)
      (fun g => LeftAt (Holds ctx) (·.Refused f) g.2) (groups cs)) ∧
    ∀ rules f, Rule.simulate ctx rules = .error f ↔
      LeftAt (fun r => ∃ verdict, evaluate ctx r.conditions = .ok verdict)
        (fun r => evaluate ctx r.conditions = .error f) rules := by
  rw [trace_exact, mapM_decode accepted]
  refine ⟨Iff.rfl, fun f => trace_error, fun fit => ?_, fun f => evaluate_error, fun rules f => filterM_error⟩
  exact evaluate_answers (checkable_named ((mapM_decode accepted).mpr fit))

def questioned (field operator : Json) : Json := .record [("field", field), ("operator", operator)]

def newcomer : Json := .record [("id", .text "u"), ("createdAt", .text "2024-01-01T00:00:00+00:00")]

theorem evaluation_refusals_hidden :
    let records := [questioned (.text "nickname") (.text "EXISTS"), questioned (.list []) (.text "EXISTS")]
    let ctx : Context := ⟨"u", 0, 0, 0, ⟨0, 0⟩, false, false, true, .finite false 0, [], none, none, .null, none, none,
      none, []⟩
    ∃ cs, records.mapM decode = .ok cs ∧ evaluate ctx cs = .ok false ∧
      trace ctx cs = .error (.misuse (.keyOf .list)) ∧ ¬∀ record ∈ records, ¬IsUnfit record := by
  intro records ctx
  have accepted : records.mapM decode =
      .ok [⟨⟨.text "nickname", .text "EXISTS", ""⟩, 0⟩, ⟨⟨.list [], .text "EXISTS", ""⟩, 0⟩] := rfl
  obtain ⟨traced, refused, _⟩ := evaluation_refusals accepted ctx
  have failed := (refused (.misuse (.keyOf .list))).mpr
    ⟨[⟨⟨.text "nickname", .text "EXISTS", ""⟩, 0⟩], _, [], rfl, List.forall_mem_singleton.mpr ⟨rfl, rfl⟩, .inl ⟨rfl, rfl⟩⟩
  refine ⟨_, accepted, rfl, failed, fun fit => ?_⟩
  obtain ⟨findings, done⟩ := traced.mpr fit
  rw [failed] at done
  cases done

theorem evaluation_refused : ∃ facts ctx cs, UserFacts.decode newcomer = .ok facts ∧
    Context.build facts ⟨0, 0⟩ Config.defaultThreshold = .ok ctx ∧
    [questioned (.list []) (.text "EXISTS")].mapM decode = .ok cs ∧
    evaluate ctx cs = .error (.misuse (.keyOf .list)) ∧ trace ctx cs = .error (.misuse (.keyOf .list)) ∧
    Rule.simulate ctx [⟨"r", .null, .null, cs, .null⟩] = .error (.misuse (.keyOf .list)) :=
  ⟨_, _, _, rfl, rfl, rfl, rfl, rfl, rfl⟩

end Condition
end Lifecycle
