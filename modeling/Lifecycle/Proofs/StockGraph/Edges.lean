import Lifecycle.Proofs.Comparison.Order
import Lifecycle.Proofs.Replay.Immersion
import Lifecycle.Proofs.Selection.Rank
import Lifecycle.Proofs.Store.Keyed
import Lifecycle.StockGraph

namespace Lifecycle

namespace StockGraph

inductive Milestone where
  | new
  | activating
  | activeFree
  | paywall
  | paidActive
  | inactive
  | churned
  | blocked
deriving DecidableEq, Repr

namespace Milestone

def all : List Milestone := [.new, .activating, .activeFree, .paywall, .paidActive, .inactive, .churned, .blocked]

def name : Milestone → String
  | .new => "NEW"
  | .activating => "ACTIVATING"
  | .activeFree => "ACTIVE_FREE"
  | .paywall => "PAYWALL"
  | .paidActive => "PAID_ACTIVE"
  | .inactive => "INACTIVE"
  | .churned => "CHURNED"
  | .blocked => "BLOCKED"

def stage (v : Int) (m : Milestone) : Stage := ⟨stageId v m.name, .text m.name, v, m = .new, m = .churned⟩

theorem mem_all (m : Milestone) : m ∈ all := by
  cases m <;> decide

theorem stages_all (v : Int) : stages v = all.map (stage v) := rfl

theorem stageId_inj (same : stageId v (name m) = stageId v (name n)) : m = n := by
  have lowered : Text.lower m.name = Text.lower n.name := (String.append_right_inj _).mp same
  have distinct : (all.map fun m => Text.lower m.name).Nodup := by decide
  exact List.inj_on_of_nodup_map distinct (mem_all m) (mem_all n) lowered

theorem stages_distinct (v : Int) : ((stages v).map (·.id)).Nodup := by
  have ids : (stages v).map (·.id) = all.map fun m => stageId v m.name := rfl
  have apart : all.Nodup := by decide
  rw [ids]
  exact apart.map fun _ _ => stageId_inj

end Milestone

structure HeldBy (s : Store) (v : Int) : Prop where
  keyed : (s.stages.map (·.id)).Nodup
  stages : s.stagesOf v = StockGraph.stages v
  transitions : s.transitions.filter (fun t => t.versionId = v) = StockGraph.transitions v

namespace HeldBy

theorem ofRecords (v : Int) (users : List UserFacts) (assignments : List Assignment) :
    HeldBy (.ofRecords [version v] (StockGraph.stages v) (StockGraph.transitions v) users assignments) v := by
  have stored := collect_distinct (Milestone.stages_distinct v)
  constructor
  case keyed =>
    simp only [Store.ofRecords, stored]
    exact Milestone.stages_distinct v
  case stages =>
    simp only [Store.stagesOf, Store.ofRecords, stored, List.filter_eq_self]
    simp [Milestone.stages_all, Milestone.stage]
  case transitions => simp [Store.ofRecords, StockGraph.transitions, onEvent, onTimeout]

variable {s : Store} (held : HeldBy s v)
include held

theorem mem_stages (m : Milestone) : m.stage v ∈ s.stages := by
  have member : m.stage v ∈ s.stagesOf v := by
    rw [held.stages, Milestone.stages_all]
    exact List.mem_map_of_mem (Milestone.mem_all m)
  exact List.mem_of_mem_filter member

theorem stage_found (m : Milestone) : s.stage? (stageId v m.name) = some (m.stage v) :=
  (find_keyed held.keyed).mpr ⟨held.mem_stages m, rfl⟩

theorem initial_found : s.initialStage? v = some (Milestone.new.stage v) := by
  have found : (s.stagesOf v).find? (·.isInitial) = some (Milestone.new.stage v) := by
    rw [held.stages]
    rfl
  simpa [Store.stagesOf, Store.initialStage?, List.find?_filter] using found

theorem stages_count : 8 ≤ s.stages.length := by
  have count : (s.stagesOf v).length = 8 := by
    rw [held.stages]
    rfl
  exact count ▸ List.length_filter_le _ _

end HeldBy

def exceeds (measured : Option Double) (bound : Int) : Bool :=
  measured.any fun amount => (Number.int bound).lt (.real amount)

structure Edge where
  source : Milestone
  priority : Int
  isOpen : Bool
  target : Milestone

-- The ways open to a user, in the order of the graph's transitions. The way out of the blocked
-- stage asks for the configured name of that stage; time alone opens no way.
def edges (c : Context) (blocked : Bool) (blockedName : Json) : List Edge := [
  ⟨.new, 100, blocked, .blocked⟩,
  ⟨.new, 10, true, .activating⟩,
  ⟨.activating, 100, blocked, .blocked⟩,
  ⟨.activating, 50, 0 < c.totalPayments, .paidActive⟩,
  ⟨.activating, 10, 0 < c.totalGenerations, .activeFree⟩,
  ⟨.activating, 5, c.isDead && exceeds (some c.daysSinceCreated) 14, .churned⟩,
  ⟨.activeFree, 100, blocked, .blocked⟩,
  ⟨.activeFree, 50, 0 < c.totalPayments, .paidActive⟩,
  ⟨.activeFree, 20, c.isLowBalance, .paywall⟩,
  ⟨.paywall, 50, 0 < c.totalPayments, .paidActive⟩,
  ⟨.paywall, 10, exceeds c.hoursSinceLastActivity 720, .churned⟩,
  ⟨.paidActive, 10, exceeds c.hoursSinceLastActivity 336 || c.lastPaymentFailed, .inactive⟩,
  ⟨.inactive, 10, false, .churned⟩,
  ⟨.blocked, 100, !blocked && (Json.text "BLOCKED").same blockedName, .activating⟩]

section
variable {c : Context} {group : Nat}

theorem check_flag (read : c.value field = .bool b) : (condition field "EQUALS" "true" group).check c = .ok b := by
  have resolved : c.resolve (.text field) = .ok (.bool b) := congrArg Except.ok read
  have compared : Relation.compare (.bool b) (.text "EQUALS") (.text "true") = .ok b := by
    have named : Relation.ofName? "EQUALS" = some .equals := rfl
    have spelled : Relation.coerce (.text "true") = .bool true := rfl
    simp [Relation.compare, named, Relation.holds, spelled, Relation.looselyEqual, Json.kind, Json.same_bool]
  simp only [Condition.check, condition, resolved, compared]

theorem ordered_real (amount : Double) (n : Int) :
    Relation.ordered (fun x y => y.lt x) (.real amount) (.int n) = (Number.int n).lt (.real amount) := by
  cases amount with
  | nan constant => exact (Number.lt_nan _ _).symm
  | infinite negative => rfl
  | finite negative steps => rfl

theorem check_over (read : c.value field = .ofOption .real measured) (spelled : Relation.coerce (.text bound) = .int n) :
    (condition field "GT" bound group).check c = .ok (exceeds measured n) := by
  have resolved : c.resolve (.text field) = .ok (.ofOption .real measured) := congrArg Except.ok read
  have compared : Relation.compare (.ofOption .real measured) (.text "GT") (.text bound) =
      .ok (exceeds measured n) := by
    have greater : Relation.ofName? "GT" = some .greater := rfl
    simp only [Relation.compare, greater, Option.map_some, Option.getD_some, Relation.holds, spelled]
    cases measured with
    | none => rfl
    | some amount => exact congrArg Except.ok (ordered_real amount n)
  simp only [Condition.check, condition, resolved, compared]

end

theorem tagged_short (v : Int) (name : String) : Transition.idNumber? (tagged v name) = none := by
  have opens : (tagged v name).toList = 'v' :: ((Text.decimalOfInt v).toList ++ '-' :: name.toList) := by
    simp [tagged]
  have letter : Text.isAsciiDigit 'v' = false := by decide
  simp [Transition.idNumber?, opens, letter]

variable {p : Replay}

-- What a transition of the graph says of the way that stands in its place.
structure Edge.Told (p : Replay) (t : Transition) (e : Edge) : Prop where
  id : ∃ name, t.id = tagged p.version name
  source : t.source = stageId p.version e.source.name
  target : t.target = stageId p.version e.target.name
  priority : t.priority = e.priority
  decides : t.Decides (p.situation (e.source.stage p.version)) e.isOpen

theorem Edge.Told.short (told : Edge.Told p t e) : ¬t.IsOverlong := by
  obtain ⟨name, spelled⟩ := told.id
  simp [Transition.IsOverlong, spelled, tagged_short]

theorem evaluate_dead (c : Context) : Condition.evaluate c
    [condition "is_dead" "EQUALS" "true" 0, condition "days_since_created" "GT" "14" 0] =
      .ok (c.isDead && exceeds (some c.daysSinceCreated) 14) :=
  Condition.evaluate_both (check_flag rfl) (check_over rfl rfl) rfl

theorem evaluate_lapsed (c : Context) : Condition.evaluate c
    [condition "hours_since_last_activity" "GT" "336" 0, condition "last_payment_failed" "EQUALS" "true" 1] =
      .ok (exceeds c.hoursSinceLastActivity 336 || c.lastPaymentFailed) :=
  Condition.evaluate_either (check_over rfl rfl) (check_flag rfl) (by decide)

theorem transitions_told (p : Replay) :
    List.Forall₂ (Edge.Told p) (transitions p.version) (edges p.context p.blocked p.blockedName) := by
  refine .cons ⟨⟨_, rfl⟩, rfl, rfl, rfl, Transition.decides_bare rfl rfl⟩ ?_
  refine .cons ⟨⟨_, rfl⟩, rfl, rfl, rfl, Transition.decides_bare rfl rfl⟩ ?_
  refine .cons ⟨⟨_, rfl⟩, rfl, rfl, rfl, Transition.decides_bare rfl rfl⟩ ?_
  refine .cons ⟨⟨_, rfl⟩, rfl, rfl, rfl, Transition.decides_bare rfl rfl⟩ ?_
  refine .cons ⟨⟨_, rfl⟩, rfl, rfl, rfl, Transition.decides_bare rfl rfl⟩ ?_
  refine .cons ⟨⟨_, rfl⟩, rfl, rfl, rfl, Transition.decides_asked rfl (evaluate_dead _)⟩ ?_
  refine .cons ⟨⟨_, rfl⟩, rfl, rfl, rfl, Transition.decides_bare rfl rfl⟩ ?_
  refine .cons ⟨⟨_, rfl⟩, rfl, rfl, rfl, Transition.decides_bare rfl rfl⟩ ?_
  refine .cons ⟨⟨_, rfl⟩, rfl, rfl, rfl, Transition.decides_asked rfl (Condition.evaluate_single (check_flag rfl))⟩ ?_
  refine .cons ⟨⟨_, rfl⟩, rfl, rfl, rfl, Transition.decides_bare rfl rfl⟩ ?_
  refine .cons ⟨⟨_, rfl⟩, rfl, rfl, rfl, Transition.decides_asked rfl (Condition.evaluate_single (check_over rfl rfl))⟩ ?_
  refine .cons ⟨⟨_, rfl⟩, rfl, rfl, rfl, Transition.decides_asked rfl (evaluate_lapsed _)⟩ ?_
  refine .cons ⟨⟨_, rfl⟩, rfl, rfl, rfl, Transition.decides_bare rfl rfl⟩ ?_
  exact .cons ⟨⟨_, rfl⟩, rfl, rfl, rfl, Transition.decides_bare rfl rfl⟩ .nil

theorem exits_ranked (c : Context) (blocked : Bool) (blockedName : Json) (m : Milestone) :
    ((edges c blocked blockedName).filter (·.source = m)).Pairwise fun e f => f.priority < e.priority := by
  cases m <;> simp [edges]

theorem exits_told (p : Replay) (m : Milestone) :
    List.Forall₂ (Edge.Told p) ((transitions p.version).filter (·.source = stageId p.version m.name))
      ((edges p.context p.blocked p.blockedName).filter (·.source = m)) := by
  refine List.rel_filter ?_ (transitions_told p)
  intro t e told
  simp only [decide_eq_true_eq, told.source]
  exact ⟨Milestone.stageId_inj, fun same => by rw [same]⟩

theorem told_ranked (told : List.Forall₂ (Edge.Told p) ts es) (ranked : es.Pairwise fun e f => f.priority < e.priority) :
    ts.Pairwise fun t u => u.priority < t.priority := by
  have priorities : ts.map (·.priority) = es.map (·.priority) := by
    rw [← List.forall₂_eq_eq_eq, List.forall₂_map_left_iff, List.forall₂_map_right_iff]
    exact told.imp fun _ _ => Edge.Told.priority
  have falling : (es.map (·.priority)).Pairwise fun i j => j < i := List.pairwise_map.mpr ranked
  rw [← priorities] at falling
  exact List.pairwise_map.mp falling

theorem told_short (told : List.Forall₂ (Edge.Told p) ts es) : ∀ t ∈ ts, ¬t.IsOverlong := by
  induction told with
  | nil => exact List.forall_mem_nil _
  | cons first _ ih => exact List.forall_mem_cons.mpr ⟨first.short, ih⟩

def next? (c : Context) (blocked : Bool) (blockedName : Json) (m : Milestone) : Option Milestone :=
  ((edges c blocked blockedName).find? fun e => e.source = m && e.isOpen).map (·.target)

section
variable (held : HeldBy p.store p.version) (m : Milestone)
include held

theorem candidates_exits :
    p.candidates (m.stage p.version) = (transitions p.version).filter (·.source = stageId p.version m.name) := by
  have kept : (p.store.transitions.filter fun t => t.source = (m.stage p.version).id && t.versionId = p.version) =
      (transitions p.version).filter (·.source = stageId p.version m.name) := by
    rw [← held.transitions, List.filter_filter]
    rfl
  have ranked := told_ranked (exits_told p m) (exits_ranked _ _ _ m)
  rw [Replay.candidates, Store.transitionsFrom, kept, List.mergeSort_of_pairwise]
  apply ranked.imp
  intro t u higher
  exact decide_eq_true (Int.le_of_lt higher)

theorem onward_next : p.onward (m.stage p.version) =
    .ok ((next? p.context p.blocked p.blockedName m).map (·.stage p.version)) := by
  have told := exits_told p m
  have decides : ∀ e ∈ (edges p.context p.blocked p.blockedName).filter (·.source = m), ∀ t, Edge.Told p t e →
      t.Decides (p.situation (m.stage p.version)) e.isOpen := by
    intro e member t fits
    obtain rfl : e.source = m := by simpa using (List.mem_filter.mp member).2
    exact fits.decides
  obtain ⟨t?, total, scanned, taken⟩ := Selection.scan_related 0 decides told
  have chosen : p.choice (m.stage p.version) = .ok ⟨t?, total⟩ := by
    rw [Replay.choice, candidates_exits held, Selection.choose_ranked (told_short told)
      (told_ranked told (exits_ranked _ _ _ m)), scanned]
  have first : ((edges p.context p.blocked p.blockedName).filter (·.source = m)).find? (·.isOpen) =
      (edges p.context p.blocked p.blockedName).find? fun e => e.source = m && e.isOpen := by
    simp [List.find?_filter]
  rw [first] at taken
  unfold next?
  generalize (edges p.context p.blocked p.blockedName).find? _ = first? at taken ⊢
  cases taken with
  | none => exact Replay.onward_none.mpr ⟨total, chosen⟩
  | @some t e fits =>
    have found : p.store.stage? t.target = some (e.target.stage p.version) := by
      rw [fits.target, held.stage_found]
    exact Replay.onward_some.mpr ⟨t, ⟨total, chosen⟩, found⟩

end

end StockGraph
end Lifecycle
