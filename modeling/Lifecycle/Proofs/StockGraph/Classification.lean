import Lifecycle.Proofs.StockGraph.Edges

namespace Lifecycle

theorem Config.stepLimit_least {c : Config} {least : Nat} (number : c.maxDepth.number? = some depth)
    (deep : (Number.int least).le depth = true) (room : least ≤ stages) : least ≤ c.stepLimit stages := by
  unfold Config.stepLimit
  rw [number]
  cases depth with
  | int i =>
    rw [Number.le_int, decide_eq_true_eq] at deep
    exact (Int.le_toNat (Int.le_trans (Int.natCast_nonneg least) deep)).mpr deep
  | real d =>
    cases d with
    | nan constant => cases deep
    | infinite negative =>
      cases negative with
      | true => cases deep
      | false => exact room
    | finite negative steps =>
      rw [Number.le_steps rfl, decide_eq_true_eq, Double.signedSteps, ← Int.natCast_mul] at deep
      have pos := Int.natCast_pos.mp Number.unit_pos
      cases negative with
      | true =>
        have none : least * Double.unit = 0 := by
          have below : -(steps : Int) ≤ 0 := Int.neg_nonpos_of_nonneg (Int.natCast_nonneg steps)
          exact Nat.le_zero.mp (Int.ofNat_le.mp (Int.le_trans deep below))
        exact Nat.le_of_eq ((Nat.mul_eq_zero.mp none).resolve_right (Nat.ne_of_gt pos))
      | false =>
        have enough : least * Double.unit ≤ steps := Int.ofNat_le.mp deep
        exact (Nat.le_div_iff_mul_le pos).mpr (by omega)

theorem Context.build_int (u : UserFacts) (now : Timestamp) (bound : Int) :
    ∃ c, build u now (.int bound) = .ok c := by
  cases result : build u now (.int bound) with
  | ok c => exact ⟨c, rfl⟩
  | error f => cases (build_error.mp result).1

theorem Context.build_reads (built : build u now (.int bound) = .ok c) :
    c.isLowBalance = decide (u.credits < bound) ∧ c.totalPayments = u.completedPurchases ∧
      c.totalGenerations = u.totalGenerated ∧
      c.lastPaymentFailed = paymentFailed u.lastFailedPurchaseAt u.lastCompletedPurchaseAt := by
  obtain ⟨low, compared, rest⟩ := bind_ok.mp built
  rw [Json.compareWith_number rfl rfl, Number.lt_int] at compared
  cases compared
  cases rest
  exact ⟨rfl, rfl, rfl, rfl⟩

namespace StockGraph

-- Where the graph leaves a user, and the stages on the way there.
def classify (c : Context) (blocked : Bool) : Milestone :=
  if blocked then .blocked
  else if 0 < c.totalPayments then
    if exceeds c.hoursSinceLastActivity 336 || c.lastPaymentFailed then .inactive else .paidActive
  else if 0 < c.totalGenerations then
    if !c.isLowBalance then .activeFree
    else if exceeds c.hoursSinceLastActivity 720 then .churned
    else .paywall
  else if exceeds (some c.daysSinceCreated) 14 then .churned
  else .activating

def route (c : Context) (blocked : Bool) : List Milestone :=
  if blocked then [.blocked]
  else .activating ::
    if 0 < c.totalPayments then
      .paidActive :: if exceeds c.hoursSinceLastActivity 336 || c.lastPaymentFailed then [.inactive] else []
    else if 0 < c.totalGenerations then
      .activeFree ::
        if c.isLowBalance then .paywall :: if exceeds c.hoursSinceLastActivity 720 then [.churned] else [] else []
    else if exceeds (some c.daysSinceCreated) 14 then [.churned]
    else []

structure Leads (next : Milestone → Option Milestone) (start : Milestone) (passed : List Milestone) (last : Milestone) :
    Prop where
  steps : List.IsChain (fun m n => next m = some n) (start :: passed)
  ends : (start :: passed).getLast? = some last
  settled : next last = none

theorem route_leads (c : Context) (blocked : Bool) (blockedName : Json) :
    Leads (next? c blocked blockedName) .new (route c blocked) (classify c blocked) := by
  cases blocked with
  | true => constructor <;> simp [route, classify, next?, edges]
  | false =>
    by_cases paying : 0 < c.totalPayments
    · cases lapsed : exceeds c.hoursSinceLastActivity 336 || c.lastPaymentFailed
      all_goals constructor <;> simp [route, classify, next?, edges, paying, lapsed]
    · by_cases generating : 0 < c.totalGenerations
      · cases low : c.isLowBalance
        all_goals cases silent : exceeds c.hoursSinceLastActivity 720
        all_goals constructor <;> simp [route, classify, next?, edges, paying, generating, low, silent]
      · have dead : c.isDead = true := decide_eq_true (Nat.eq_zero_of_not_pos generating)
        cases long : exceeds (some c.daysSinceCreated) 14
        all_goals constructor <;> simp [route, classify, next?, edges, paying, generating, dead, long]

theorem route_short (c : Context) (blocked : Bool) : (route c blocked).length < 4 ∨
    classify c blocked = .churned ∧ (route c blocked).length = 4 := by
  unfold route classify
  split_ifs <;> simp_all

section
variable {p : Replay} (held : HeldBy p.store p.version)
include held

theorem moves_next (onward : next? p.context p.blocked p.blockedName m = some n) :
    Goes p.onward (m.stage p.version) (n.stage p.version) := by
  have stays : next? p.context p.blocked p.blockedName .churned = none := by simp [next?, edges]
  have leaves : m ≠ .churned := by
    rintro rfl
    rw [stays] at onward
    cases onward
  refine ⟨decide_eq_false leaves, ?_⟩
  rw [onward_next held, onward]
  rfl

theorem leads_run (leads : Leads (next? p.context p.blocked p.blockedName) start passed last) :
    Run (Goes p.onward) (start.stage p.version) (passed.map (·.stage p.version)) (last.stage p.version) := by
  obtain ⟨steps, ends, _⟩ := leads
  induction passed generalizing start with
  | nil =>
    obtain rfl : start = last := Option.some.inj ends
    exact .nil
  | cons n rest ih =>
    obtain ⟨first, later⟩ := List.isChain_cons_cons.mp steps
    exact .cons (moves_next held first) (ih later (by simpa using ends))

theorem leads_walk (leads : Leads (next? p.context p.blocked p.blockedName) start passed last)
    (room : passed.length < limit ∨ last = .churned ∧ passed.length ≤ limit) :
    Engine.walk p.onward limit (start.stage p.version) =
      .ok (passed.map (·.stage p.version), if last = .churned then .terminal else .noMatch) := by
  refine Engine.walk_complete (leads_run held leads) (by rw [List.length_map]; omega) ?_
  by_cases final : last = .churned
  · rw [if_pos final]
    exact decide_eq_true final
  · rw [if_neg final]
    refine ⟨decide_eq_false final, ?_, ?_⟩
    · rw [List.length_map]
      exact room.resolve_right fun full => final full.1
    · rw [onward_next held, leads.settled]
      rfl

end

def outcome (user : String) (v : Int) (c : Context) (blocked : Bool) : Inference where
  userId := user
  versionId := v
  initial := Milestone.new.stage v
  visited := (route c blocked).map (·.stage v)
  stop := if classify c blocked = .churned then .terminal else .noMatch

theorem outcome_final (user : String) (v : Int) (c : Context) (blocked : Bool) :
    (outcome user v c blocked).final = (classify c blocked).stage v := by
  have ends := (route_leads c blocked .null).ends
  rw [List.getLast?_cons, Option.some.injEq] at ends
  rw [Inference.final, outcome, List.getLast?_map, ← ends]
  cases (route c blocked).getLast? <;> rfl

theorem outcome_terminal (user : String) (v : Int) (c : Context) (blocked : Bool) :
    (outcome user v c blocked).stop = .terminal ↔ (outcome user v c blocked).final.name = .text "CHURNED" := by
  rw [outcome_final]
  cases last : classify c blocked <;> simp [outcome, last, Milestone.stage, Milestone.name]

theorem immerse_outcome {e : Engine} {s : Store} (calm : e.stalled = []) (held : HeldBy s v)
    (known : s.user? user = some facts)
    (built : Context.build facts e.now e.config.lowBalanceThreshold = .ok context)
    (deep : 4 ≤ e.config.stepLimit s.stages.length) :
    (e.immerse user v s).1 = .ok (some (outcome user v context facts.isBlocked)) := by
  have begins : e.Begins s user v ⟨s, v, context, facts.isBlocked, e.config.blockedStageName⟩ (Milestone.new.stage v) :=
    ⟨facts, context, known, held.initial_found, built, rfl⟩
  have leads := route_leads context facts.isBlocked e.config.blockedStageName
  have room : (route context facts.isBlocked).length < e.config.stepLimit s.stages.length ∨
      classify context facts.isBlocked = .churned ∧
        (route context facts.isBlocked).length ≤ e.config.stepLimit s.stages.length := by
    rcases route_short context facts.isBlocked with short | ⟨churned, full⟩
    · exact .inl (by omega)
    · exact .inr ⟨churned, by omega⟩
  rw [Engine.immerse_calm calm, Engine.infer_begins calm begins, leads_walk held leads room]
  rfl

theorem immerse_classifies {e : Engine} {s : Store} (calm : e.stalled = []) (held : HeldBy s v)
    (known : s.user? user = some facts) (threshold : e.config.lowBalanceThreshold.number? = some bound)
    (depth : e.config.maxDepth.number? = some limit) (deep : (Number.int 4).le limit = true) :
    ∃ context r, Context.build facts e.now e.config.lowBalanceThreshold = .ok context ∧
      (e.immerse user v s).1 = .ok (some r) ∧ r.final = (classify context facts.isBlocked).stage v ∧
      r.steps ≤ 4 ∧ r.stop ≠ .maxDepth ∧ (r.stop = .terminal ↔ r.final.name = .text "CHURNED") ∧
      (facts.isBlocked = true → r.path = [.text "NEW", .text "BLOCKED"]) := by
  obtain ⟨context, built⟩ : ∃ context, Context.build facts e.now e.config.lowBalanceThreshold = .ok context := by
    cases result : Context.build facts e.now e.config.lowBalanceThreshold with
    | ok context => exact ⟨context, rfl⟩
    | error f =>
      have missing := (Context.build_error.mp result).1
      rw [threshold] at missing
      cases missing
  have room : 4 ≤ e.config.stepLimit s.stages.length :=
    Config.stepLimit_least depth deep (Nat.le_trans (by decide) held.stages_count)
  refine ⟨context, outcome user v context facts.isBlocked, built, immerse_outcome calm held known built room,
    outcome_final _ _ _ _, ?_, ?_, outcome_terminal _ _ _ _, ?_⟩
  · rw [Inference.steps, outcome, List.length_map]
    have short := route_short context facts.isBlocked
    omega
  · unfold outcome
    split_ifs <;> simp
  · intro blocked
    simp [Inference.path, outcome, route, blocked, Milestone.stage, Milestone.name]

def debtor : UserFacts :=
  { Engine.walker with id := "debtor", completedPurchases := 1, lastFailedPurchaseAt := some ⟨0, 0⟩ }

def shutOut : UserFacts := { Engine.walker with id := "shut out", isBlocked := true }

theorem debtor_inactive (built : Context.build debtor now threshold = .ok context) :
    classify context debtor.isBlocked = .inactive := by
  obtain ⟨low, _, rest⟩ := bind_ok.mp built
  cases rest
  simp [classify, debtor, Engine.walker, Context.paymentFailed]

theorem immerse_classifies_payer :
    let s := Store.ofRecords [version 3] (stages 3) (transitions 3) [debtor, shutOut] []
    Engine.standard.stalled = [] ∧ HeldBy s 3 ∧ (Number.int 4).le (.int 50) = true ∧
      (∃ r, (Engine.standard.immerse "debtor" 3 s).1 = .ok (some r) ∧ r.final = Milestone.inactive.stage 3) ∧
      ∃ r, (Engine.standard.immerse "shut out" 3 s).1 = .ok (some r) ∧ r.path = [.text "NEW", .text "BLOCKED"] := by
  intro s
  have held : HeldBy s 3 := .ofRecords 3 [debtor, shutOut] []
  have deep : (Number.int 4).le (.int 50) = true := by rw [Number.le_int]; decide
  refine ⟨rfl, held, deep, ?_, ?_⟩
  · have known : s.user? "debtor" = some debtor := rfl
    obtain ⟨context, r, built, answered, final, _⟩ :=
      immerse_classifies (e := Engine.standard) rfl held known rfl rfl deep
    rw [debtor_inactive built] at final
    exact ⟨r, answered, final⟩
  · have known : s.user? "shut out" = some shutOut := rfl
    obtain ⟨_, r, _, answered, _, _, _, _, path⟩ :=
      immerse_classifies (e := Engine.standard) rfl held known rfl rfl deep
    exact ⟨r, answered, path rfl⟩

end StockGraph
end Lifecycle
