import Lifecycle.Config
import Lifecycle.Proofs.Comparison.Order
import Lifecycle.Proofs.Json.Fields
import Lifecycle.Proofs.Outcome

namespace Lifecycle

namespace Json
variable {v : Json} {n : Number}

def IsAtLeast (v : Json) (bound : Int) : Prop := ∃ n, v.number? = some n ∧ (Number.int bound).le n = true

def IsOver (v : Json) (bound : Int) : Prop := ∃ n, v.number? = some n ∧ (Number.int bound).lt n = true

def isNan : Json → Bool
  | .real d => d.isNan
  | _ => false

theorem isNan_place (measured : v.number? = some n) : v.isNan = true ↔ n.place? = none := by
  cases v with
  | real d =>
    cases measured
    cases d <;> simp [isNan, Double.isNan, Number.place?]
  | _ =>
    cases measured <;> refine iff_of_false Bool.false_ne_true fun missing => ?_
    all_goals cases (Number.place_int _).symm.trans missing

theorem IsAtLeast.placed (least : v.IsAtLeast bound) : v.isNan = false := by
  obtain ⟨n, measured, least⟩ := least
  by_contra nothing
  rw [Number.le_unplaced ((isNan_place measured).mp (eq_true_of_ne_false nothing))] at least
  cases least

theorem IsOver.placed (more : v.IsOver bound) : v.isNan = false := by
  obtain ⟨n, measured, more⟩ := more
  by_contra nothing
  rw [Number.lt_unplaced ((isNan_place measured).mp (eq_true_of_ne_false nothing))] at more
  cases more

end Json

namespace Config

inductive Setting where
  | lowBalanceThreshold
  | maxDepth
  | blockedStageName
  | ioTimeoutSeconds
  | immersionBatchLimit
  | actionBatchLimit
deriving DecidableEq, Repr

namespace Setting

def name : Setting → String
  | .lowBalanceThreshold => "low_balance_threshold"
  | .maxDepth => "max_depth"
  | .blockedStageName => "blocked_state_name"
  | .ioTimeoutSeconds => "io_timeout_seconds"
  | .immersionBatchLimit => "immersion_batch_limit"
  | .actionBatchLimit => "action_batch_limit"

def Allows : Setting → Json → Prop
  | .maxDepth, v => v.IsAtLeast 1
  | .ioTimeoutSeconds, v => v.IsOver 0
  | .immersionBatchLimit, v => v.IsAtLeast 1
  | .actionBatchLimit, v => v.IsAtLeast 1
  | _, _ => True

def isChecked : Setting → Bool
  | .lowBalanceThreshold => false
  | .blockedStageName => false
  | _ => true

-- What a comparison with the bound lets through. Nothing can be said against what compares with nothing.
def Passes (s : Setting) (v : Json) : Prop := s.Allows v ∨ v.isNan = true

def Measured : Setting → Json → Prop
  | .lowBalanceThreshold, _ => True
  | .blockedStageName, _ => True
  | _, v => ∃ n, v.number? = some n

theorem measured_number (s : Setting) (number : ∃ n, v.number? = some n) : s.Measured v := by
  cases s <;> first | exact trivial | exact number

theorem passes_measured {s : Setting} (passes : s.Passes v) : s.Measured v := by
  rcases passes with allowed | nothing
  · cases s with
    | lowBalanceThreshold => exact trivial
    | blockedStageName => exact trivial
    | _ =>
      obtain ⟨n, number, _⟩ := allowed
      exact ⟨n, number⟩
  · apply measured_number
    cases v with
    | real d => exact ⟨_, rfl⟩
    | _ => cases nothing

theorem allows_exact {s : Setting} (passes : s.Passes v) :
    s.Allows v ↔ (s.isChecked = true → v.isNan = false) := by
  constructor
  · intro allowed checked
    cases s with
    | lowBalanceThreshold => cases checked
    | blockedStageName => cases checked
    | ioTimeoutSeconds => exact Json.IsOver.placed allowed
    | _ => exact Json.IsAtLeast.placed allowed
  · intro placed
    rcases passes with allowed | nothing
    · exact allowed
    · cases s with
      | lowBalanceThreshold => exact trivial
      | blockedStageName => exact trivial
      | _ => cases nothing.symm.trans (placed rfl)

theorem name_inj {s t : Setting} (same : s.name = t.name) : s = t := by
  cases s <;> cases t <;> simp_all [name]

end Setting

variable {c c' : Config} {s : Setting} {f : Fault} {given settings : List (String × Json)} {cast : Cast}

def get (c : Config) : Setting → Json
  | .lowBalanceThreshold => c.lowBalanceThreshold
  | .maxDepth => c.maxDepth
  | .blockedStageName => c.blockedStageName
  | .ioTimeoutSeconds => c.ioTimeoutSeconds
  | .immersionBatchLimit => c.immersionBatchLimit
  | .actionBatchLimit => c.actionBatchLimit

def Bounded (c : Config) : Prop := ∀ s : Setting, s.Allows (c.get s)

theorem below_number (number : ∃ n, v.number? = some n) (bound : Int) :
    ∃ b, below v bound = .ok b ∧ (b = false ↔ v.IsAtLeast bound ∨ v.isNan = true) := by
  obtain ⟨n, measured⟩ := number
  refine ⟨n.lt (.int bound), Json.compareWith_number measured rfl, ?_⟩
  simp [Number.lt_false, Json.isNan_place measured, Json.IsAtLeast, measured]

theorem atMost_number (number : ∃ n, v.number? = some n) (bound : Int) :
    ∃ b, atMost v bound = .ok b ∧ (b = false ↔ v.IsOver bound ∨ v.isNan = true) := by
  obtain ⟨n, measured⟩ := number
  refine ⟨n.le (.int bound), Json.compareWith_number measured rfl, ?_⟩
  simp [Number.le_false, Json.isNan_place measured, Json.IsOver, measured]

theorem check_measured (measured : ∀ s : Setting, s.Measured (c.get s)) :
    (c.check = .ok c ∧ ∀ s : Setting, s.Passes (c.get s)) ∨
      ∃ f, c.check = .error f ∧ f.family = .badValue ∧ ∃ s : Setting, ¬s.Passes (c.get s) := by
  obtain ⟨shallow, depth, deep⟩ := below_number (measured .maxDepth) 1
  obtain ⟨hasty, timeout, slow⟩ := atMost_number (measured .ioTimeoutSeconds) 0
  obtain ⟨few, immersions, many⟩ := below_number (measured .immersionBatchLimit) 1
  obtain ⟨less, actions, more⟩ := below_number (measured .actionBatchLimit) 1
  simp only [get] at depth timeout immersions actions
  have refused : ∀ {b : Bool} {p : Prop}, (b = false ↔ p) → b = true → ¬p := by
    rintro b p passes rfl holds
    cases passes.mpr holds
  unfold check
  simp only [depth, ok_bind]
  cases shallow with
  | true => exact .inr ⟨_, rfl, rfl, .maxDepth, refused deep rfl⟩
  | false =>
    simp only [timeout, ok_bind]
    cases hasty with
    | true => exact .inr ⟨_, rfl, rfl, .ioTimeoutSeconds, refused slow rfl⟩
    | false =>
      simp only [immersions, ok_bind]
      cases few with
      | true => exact .inr ⟨_, rfl, rfl, .immersionBatchLimit, refused many rfl⟩
      | false =>
        simp only [actions, ok_bind]
        cases less with
        | true => exact .inr ⟨_, rfl, rfl, .actionBatchLimit, refused more rfl⟩
        | false =>
          refine .inl ⟨rfl, fun s => ?_⟩
          cases s with
          | maxDepth => exact deep.mp rfl
          | ioTimeoutSeconds => exact slow.mp rfl
          | immersionBatchLimit => exact many.mp rfl
          | actionBatchLimit => exact more.mp rfl
          | _ => exact .inl trivial

def put (c : Config) : Setting → Json → Config
  | .lowBalanceThreshold, v => { c with lowBalanceThreshold := v }
  | .maxDepth, v => { c with maxDepth := v }
  | .blockedStageName, v => { c with blockedStageName := v }
  | .ioTimeoutSeconds, v => { c with ioTimeoutSeconds := v }
  | .immersionBatchLimit, v => { c with immersionBatchLimit := v }
  | .actionBatchLimit, v => { c with actionBatchLimit := v }

theorem get_put (c : Config) (s : Setting) (v : Json) : (c.put s v).get s = v := by
  cases s <;> rfl

theorem get_put_other (other : t ≠ s) : (c.put s v).get t = c.get t := by
  cases s <;> cases t <;> first | rfl | exact absurd rfl other

theorem set_known (c : Config) (s : Setting) (v : Json) : c.set s.name v = .ok (c.put s v) := by
  cases s <;> rfl

theorem set_unknown (unknown : ∀ s : Setting, s.name ≠ name) :
    c.set name v = .error (.misuse (.unknownSetting name)) := by
  unfold set
  split
  · exact absurd rfl (unknown .lowBalanceThreshold)
  · exact absurd rfl (unknown .maxDepth)
  · exact absurd rfl (unknown .blockedStageName)
  · exact absurd rfl (unknown .ioTimeoutSeconds)
  · exact absurd rfl (unknown .immersionBatchLimit)
  · exact absurd rfl (unknown .actionBatchLimit)
  · rfl

theorem setAll_ok (assigned : c.setAll given = .ok c') (s : Setting) :
    (c'.get s = c.get s ∧ ∀ v, (s.name, v) ∉ given) ∨ (s.name, c'.get s) ∈ given := by
  induction given generalizing c with
  | nil =>
    cases assigned
    exact .inl ⟨rfl, by simp⟩
  | cons first given ih =>
    obtain ⟨name, w⟩ := first
    obtain ⟨next, put, rest⟩ := bind_ok.mp (List.foldlM_cons.symm.trans assigned)
    by_cases known : ∃ t : Setting, t.name = name
    · obtain ⟨t, rfl⟩ := known
      rw [set_known] at put
      cases put
      rcases ih rest with ⟨kept, absent⟩ | present
      · by_cases same : s = t
        · subst s
          rw [kept, get_put]
          exact .inr List.mem_cons_self
        · refine .inl ⟨kept.trans (get_put_other same), fun v member => ?_⟩
          rcases List.mem_cons.mp member with head | later
          · exact same (Setting.name_inj (congrArg Prod.fst head))
          · exact absent v later
      · exact .inr (List.mem_cons_of_mem _ present)
    · rw [set_unknown fun t same => known ⟨t, same⟩] at put
      cases put

theorem setAll_error (refused : c.setAll given = .error f) :
    ∃ setting ∈ given, (∀ s : Setting, s.name ≠ setting.1) ∧ f = .misuse (.unknownSetting setting.1) := by
  induction given generalizing c with
  | nil => cases refused
  | cons first given ih =>
    rcases bind_error.mp (List.foldlM_cons.symm.trans refused) with now | ⟨next, _, later⟩
    · by_cases known : ∃ s : Setting, s.name = first.1
      · obtain ⟨s, same⟩ := known
        rw [← same, set_known] at now
        cases now
      · have unknown : ∀ s : Setting, s.name ≠ first.1 := fun s same => known ⟨s, same⟩
        rw [set_unknown unknown] at now
        cases now
        exact ⟨first, List.mem_cons_self, unknown, rfl⟩
    · obtain ⟨setting, member, unknown⟩ := ih later
      exact ⟨setting, List.mem_cons_of_mem _ member, unknown⟩

def Numeric (settings : List (String × Json)) : Prop :=
  ∀ setting ∈ settings, setting.2.kind = .null ∨ ∃ n, setting.2.number? = some n

def Given (settings : List (String × Json)) (s : Setting) (v : Json) : Prop := (s.name, v) ∈ settings ∧ v.kind ≠ .null

theorem mem_valued (settings : List (String × Json)) (s : Setting) (v : Json) :
    (s.name, v) ∈ settings.filter (fun setting => setting.2.kind ≠ .null) ↔ Given settings s v := by
  simp [Given]

theorem withOverrides_step (passing : ∀ s : Setting, s.Passes (c.get s))
    (numeric : Numeric settings) :
    (∃ f, c.withOverrides settings = .error f ∧
      ((f.family = .badValue ∧ ∃ s v, Given settings s v ∧ ¬s.Passes v) ∨
        ∃ setting ∈ settings, setting.2.kind ≠ .null ∧ (∀ s : Setting, s.name ≠ setting.1) ∧
          f = .misuse (.unknownSetting setting.1))) ∨
    ∃ c', c.withOverrides settings = .ok c' ∧ (∀ s : Setting, s.Passes (c'.get s)) ∧
      ∀ s, (c'.get s = c.get s ∧ ∀ v, ¬Given settings s v) ∨ Given settings s (c'.get s) := by
  unfold withOverrides
  cases assigned : c.setAll (settings.filter fun setting => setting.2.kind ≠ .null) with
  | error f =>
    obtain ⟨setting, member, unknown, rfl⟩ := setAll_error assigned
    obtain ⟨present, valued⟩ := List.mem_filter.mp member
    exact .inl ⟨_, rfl, .inr ⟨setting, present, of_decide_eq_true valued, unknown, rfl⟩⟩
  | ok c' =>
    have changes : ∀ s, (c'.get s = c.get s ∧ ∀ v, ¬Given settings s v) ∨ Given settings s (c'.get s) := by
      intro s
      have changed := setAll_ok assigned s
      simpa only [mem_valued] using changed
    have measured : ∀ s : Setting, s.Measured (c'.get s) := by
      intro s
      rcases changes s with ⟨kept, _⟩ | ⟨member, valued⟩
      · rw [kept]
        exact Setting.passes_measured (passing s)
      · exact Setting.measured_number s ((numeric _ member).resolve_left valued)
    rw [ok_bind]
    rcases check_measured measured with ⟨checked, passes⟩ | ⟨f, refused, bad, s, out⟩
    · exact .inr ⟨c', checked, passes, changes⟩
    · refine .inl ⟨f, refused, .inl ⟨bad, s, c'.get s, ?_, out⟩⟩
      rcases changes s with ⟨kept, _⟩ | given
      · rw [kept] at out
        exact absurd (passing s) out
      · exact given

theorem standard_bounded : standard.Bounded := by
  intro s
  cases s with
  | lowBalanceThreshold => exact trivial
  | maxDepth => exact ⟨.int 50, rfl, by rw [Number.le_int]; decide⟩
  | blockedStageName => exact trivial
  | ioTimeoutSeconds => exact ⟨_, rfl, by decide +kernel⟩
  | immersionBatchLimit => exact ⟨.int 1000, rfl, by rw [Number.le_int]; decide⟩
  | actionBatchLimit => exact ⟨.int 100, rfl, by rw [Number.le_int]; decide⟩

def Setting.readAs : Setting → Cast
  | .blockedStageName => .text
  | .ioTimeoutSeconds => .real
  | _ => .integer

theorem bindings_known (bound : (name, key, cast) ∈ bindings) : ∃ s : Setting, s.name = name ∧ s.readAs = cast := by
  simp only [bindings, List.mem_cons, Prod.mk.injEq, List.not_mem_nil, or_false] at bound
  rcases bound with ⟨rfl, rfl, rfl⟩ | ⟨rfl, rfl, rfl⟩ | ⟨rfl, rfl, rfl⟩ | ⟨rfl, rfl, rfl⟩ | ⟨rfl, rfl, rfl⟩ |
    ⟨rfl, rfl, rfl⟩
  · exact ⟨.lowBalanceThreshold, rfl, rfl⟩
  · exact ⟨.maxDepth, rfl, rfl⟩
  · exact ⟨.blockedStageName, rfl, rfl⟩
  · exact ⟨.ioTimeoutSeconds, rfl, rfl⟩
  · exact ⟨.immersionBatchLimit, rfl, rfl⟩
  · exact ⟨.actionBatchLimit, rfl, rfl⟩

def Supplies (environment : List (String × String)) (s : Setting) (v : Json) : Prop :=
  ∃ key, (s.name, key, s.readAs) ∈ bindings ∧ readVariable environment s.name key s.readAs = .ok (some (s.name, v))

theorem readVariable_ok (found : readVariable environment setting key cast = .ok (some supplied)) :
    ∃ v text, supplied = (setting, v) ∧ cast.read text = .ok v := by
  unfold readVariable at found
  dsimp only at found
  split at found
  · cases found
  split at found
  · cases found
  split at found
  · rename_i v read
    cases found
    exact ⟨v, _, rfl, read⟩
  · cases found

theorem readVariable_error (refused : readVariable environment setting key cast = .error f) :
    f.family = .badValue := by
  unfold readVariable at refused
  dsimp only at refused
  split at refused
  · cases refused
  split at refused
  · cases refused
  split at refused
  · cases refused
  · cases refused
    rfl

theorem supplies_measured (supplied : Supplies environment s v) :
    s.Measured v ∧ (s ≠ .ioTimeoutSeconds → v.isNan = false) := by
  obtain ⟨key, _, found⟩ := supplied
  obtain ⟨w, text, same, read⟩ := readVariable_ok found
  cases same
  cases s with
  | blockedStageName =>
    cases read
    exact ⟨trivial, fun _ => rfl⟩
  | ioTimeoutSeconds =>
    obtain ⟨d, _, rfl⟩ := map_ok.mp read
    exact ⟨⟨_, rfl⟩, fun other => absurd rfl other⟩
  | _ =>
    obtain ⟨i, _, rfl⟩ := map_ok.mp read
    exact ⟨Setting.measured_number _ ⟨_, rfl⟩, fun _ => rfl⟩

theorem supplies_found (found : (bindings.mapM fun (setting, key, cast) => readVariable environment setting key cast) =
    .ok supplied) (member : setting ∈ supplied.filterMap id) :
    ∃ s : Setting, s.name = setting.1 ∧ Supplies environment s setting.2 := by
  obtain ⟨_, present, same⟩ := List.mem_filterMap.mp member
  cases same
  obtain ⟨⟨name, key, cast⟩, bound, read⟩ := mapM_found found _ present
  obtain ⟨s, rfl, rfl⟩ := bindings_known bound
  obtain ⟨v, _, rfl, _⟩ := readVariable_ok read
  exact ⟨s, rfl, key, bound, read⟩

theorem supplied_step (origin : ∀ s, c.get s = standard.get s ∨ Supplies environment s (c.get s)) :
    (∃ f, c.check = .error f ∧ f.family = .badValue ∧ ∃ s v, Supplies environment s v ∧ ¬s.Passes v) ∨
    c.check = .ok c ∧ ∀ s : Setting, s.Allows (c.get s) ∨ s = .ioTimeoutSeconds ∧ (c.get s).isNan = true := by
  have measured : ∀ s : Setting, s.Measured (c.get s) := by
    intro s
    rcases origin s with kept | supply
    · rw [kept]
      exact Setting.passes_measured (.inl (standard_bounded s))
    · exact (supplies_measured supply).1
  rcases check_measured measured with ⟨checked, passes⟩ | ⟨f, refused, bad, s, out⟩
  · refine .inr ⟨checked, fun s => ?_⟩
    rcases origin s with kept | supply
    · rw [kept]
      exact .inl (standard_bounded s)
    · refine (passes s).imp_right fun nothing => ⟨?_, nothing⟩
      by_contra other
      rw [(supplies_measured supply).2 other] at nothing
      cases nothing
  · refine .inl ⟨f, refused, bad, s, c.get s, ?_, out⟩
    refine (origin s).resolve_left fun kept => ?_
    rw [kept] at out
    exact out (.inl (standard_bounded s))

theorem ofEnvironment_step (environment : List (String × String)) :
    (∃ f, ofEnvironment environment = .error f ∧ f.family = .badValue ∧
      ((∃ b ∈ bindings, readVariable environment b.1 b.2.1 b.2.2 = .error f) ∨
        ∃ s v, Supplies environment s v ∧ ¬s.Passes v)) ∨
    ∃ c, ofEnvironment environment = .ok c ∧
      (∀ s : Setting, s.Allows (c.get s) ∨ s = .ioTimeoutSeconds ∧ (c.get s).isNan = true) ∧
      ∀ s, c.get s = standard.get s ∨ Supplies environment s (c.get s) := by
  unfold ofEnvironment
  cases found : bindings.mapM fun (setting, key, cast) => readVariable environment setting key cast with
  | error f =>
    obtain ⟨_, b, _, split, _, refused⟩ := mapM_error.mp found
    have member : b ∈ bindings := split ▸ List.mem_append_right _ List.mem_cons_self
    exact .inl ⟨f, rfl, readVariable_error refused, .inl ⟨b, member, refused⟩⟩
  | ok supplied =>
    rw [ok_bind]
    unfold ofSettings
    cases assigned : standard.setAll (supplied.filterMap id) with
    | error f =>
      obtain ⟨setting, member, unknown, _⟩ := setAll_error assigned
      obtain ⟨s, named, _⟩ := supplies_found found member
      exact absurd named (unknown s)
    | ok c =>
      have origin : ∀ s, c.get s = standard.get s ∨ Supplies environment s (c.get s) := by
        intro s
        refine (setAll_ok assigned s).imp And.left fun member => ?_
        obtain ⟨t, named, supply⟩ := supplies_found found member
        obtain rfl := Setting.name_inj named
        exact supply
      rw [ok_bind]
      rcases supplied_step origin with ⟨f, refused, bad, out⟩ | ⟨checked, allowed⟩
      · exact .inl ⟨f, refused, bad, .inr out⟩
      · exact .inr ⟨c, checked, allowed, origin⟩

-- A configuration that an environment leads to, overridden with numbers any number of times.
inductive Made : Config → Prop where
  | environment (read : ofEnvironment environment = .ok config) : Made config
  | overridden (prior : Made before) (numeric : Numeric overrides)
      (answered : before.withOverrides overrides = .ok after) : Made after

theorem made_passes (made : Made c) : ∀ s : Setting, s.Passes (c.get s) := by
  induction made with
  | @environment environment c read =>
    rcases ofEnvironment_step environment with ⟨f, refused, _⟩ | ⟨_, same, allowed, _⟩
    · rw [refused] at read
      cases read
    · rw [same] at read
      cases read
      exact fun s => (allowed s).imp_right And.right
  | overridden _ numeric answered ih =>
    rcases withOverrides_step ih numeric with ⟨f, refused, _⟩ | ⟨_, same, passes, _⟩
    · rw [refused] at answered
      cases answered
    · rw [same] at answered
      cases answered
      exact passes

theorem bounded_exact (passes : ∀ s : Setting, s.Passes (c.get s)) :
    c.Bounded ↔ ∀ s : Setting, s.isChecked = true → (c.get s).isNan = false :=
  forall_congr' fun s => Setting.allows_exact (passes s)

-- What an environment makes, and what numbers make of all that is made: a refusal, or a
-- configuration that is within its bounds unless a checked setting holds what compares with nothing.
theorem made_bounds (environment : List (String × String)) (made : Made c) (numeric : Numeric settings) :
    ((∃ f, ofEnvironment environment = .error f ∧ f.family = .badValue ∧
        ((∃ b ∈ bindings, readVariable environment b.1 b.2.1 b.2.2 = .error f) ∨
          ∃ s v, Supplies environment s v ∧ ¬s.Passes v)) ∨
      ∃ d, ofEnvironment environment = .ok d ∧ (d.Bounded ↔ (d.get .ioTimeoutSeconds).isNan = false) ∧
        (∀ s : Setting, s.Allows (d.get s) ∨ s = .ioTimeoutSeconds ∧ (d.get s).isNan = true) ∧
        ∀ s, d.get s = standard.get s ∨ Supplies environment s (d.get s)) ∧
    ((∃ f, c.withOverrides settings = .error f ∧
        ((f.family = .badValue ∧ ∃ s v, Given settings s v ∧ ¬s.Passes v) ∨
          ∃ setting ∈ settings, setting.2.kind ≠ .null ∧ (∀ s : Setting, s.name ≠ setting.1) ∧
            f = .misuse (.unknownSetting setting.1))) ∨
      ∃ d, c.withOverrides settings = .ok d ∧
        (d.Bounded ↔ ∀ s : Setting, s.isChecked = true → (d.get s).isNan = false) ∧
        (∀ s : Setting, s.Allows (d.get s) ∨ (d.get s).isNan = true) ∧
        ∀ s, (d.get s = c.get s ∧ ∀ v, ¬Given settings s v) ∨ Given settings s (d.get s)) := by
  refine ⟨(ofEnvironment_step environment).imp_right ?_, (withOverrides_step (made_passes made) numeric).imp_right ?_⟩
  · rintro ⟨d, read, allowed, origin⟩
    refine ⟨d, read, ?_, allowed, origin⟩
    rw [bounded_exact fun s => (allowed s).imp_right And.right]
    refine ⟨fun placed => placed _ rfl, fun placed s checked => ?_⟩
    rcases allowed s with within | ⟨rfl, _⟩
    · exact (Setting.allows_exact (.inl within)).mp within checked
    · exact placed
  · rintro ⟨d, answered, passes, changes⟩
    exact ⟨d, answered, bounded_exact passes, passes, changes⟩

theorem check_passes (passes : ∀ s : Setting, s.Passes (c.get s)) : c.check = .ok c := by
  rcases check_measured fun s => Setting.passes_measured (passes s) with ⟨checked, _⟩ | ⟨_, _, _, s, out⟩
  · exact checked
  · exact absurd (passes s) out

theorem ofEnvironment_found (environment : List (String × String)) (supplied : List (Option (String × Json)))
    (found : (bindings.mapM fun (setting, key, cast) => readVariable environment setting key cast) = .ok supplied)
    (assigned : standard.setAll (supplied.filterMap id) = .ok c) : ofEnvironment environment = c.check := by
  rw [ofEnvironment, found, ok_bind, ofSettings, assigned, ok_bind]

theorem made_bounds_depth :
    let deep := { standard with maxDepth := .int 12 }
    Made deep ∧ deep.Bounded ∧
    ∃ c, deep.withOverrides [("max_depth", .int 7), ("action_batch_limit", .null)] = .ok c ∧ c.Bounded ∧
      c.get .maxDepth = .int 7 ∧ c.get .actionBatchLimit = deep.get .actionBatchLimit := by
  intro deep
  have bounded : deep.Bounded := by
    intro s
    cases s with
    | maxDepth => exact ⟨.int 12, rfl, by rw [Number.le_int]; decide⟩
    | _ => exact standard_bounded _
  have read : ofEnvironment [("LIFECYCLE_MAX_DEPTH", " \u0661_\u0662 ")] = deep.check :=
    ofEnvironment_found _ [none, some ("max_depth", .int 12), none, none, none, none] rfl rfl
  have made : Made deep := .environment (read.trans (check_passes fun s => .inl (bounded s)))
  have given : ∀ s v, Given [("max_depth", .int 7), ("action_batch_limit", .null)] s v ↔ s = .maxDepth ∧ v = .int 7 := by
    intro s v
    cases s <;> simp [Given, Setting.name]
    all_goals rintro rfl; simp [Json.kind]
  have numeric : Numeric [("max_depth", .int 7), ("action_batch_limit", .null)] := by
    simp [Numeric, Json.kind, Json.number?]
  refine ⟨made, bounded, ?_⟩
  rcases (made_bounds [] made numeric).2 with ⟨f, _, ⟨_, s, v, valued, out⟩ | ⟨setting, member, _, unknown, _⟩⟩ |
    ⟨c, answered, kept, _, changes⟩
  · obtain ⟨rfl, rfl⟩ := (given s v).mp valued
    exact absurd (.inl ⟨.int 7, rfl, by rw [Number.le_int]; decide⟩) out
  · simp only [List.mem_cons, List.not_mem_nil, or_false] at member
    rcases member with rfl | rfl
    · exact absurd rfl (unknown .maxDepth)
    · exact absurd rfl (unknown .actionBatchLimit)
  · simp only [given] at changes
    refine ⟨c, answered, kept.mpr fun s checked => ?_, by simpa using changes .maxDepth,
      by simpa using changes .actionBatchLimit⟩
    rcases changes s with ⟨same, _⟩ | ⟨rfl, same⟩
    · rw [same]
      exact (Setting.allows_exact (.inl (bounded s))).mp (bounded s) checked
    · rw [same]
      rfl

theorem bounds_missed :
    (∃ c, ofEnvironment [("LIFECYCLE_IO_TIMEOUT", "nan")] = .ok c ∧ ¬c.Bounded) ∧
    ∃ c, standard.withOverrides [("max_depth", .real (.nan false))] = .ok c ∧ ¬c.Bounded := by
  have passes : ∀ s t : Setting, s.Passes ((standard.put t (.real (.nan false))).get s) := by
    intro s t
    by_cases same : s = t
    · subst s
      rw [get_put]
      exact .inr rfl
    · rw [get_put_other same]
      exact .inl (standard_bounded s)
  constructor
  · refine ⟨standard.put .ioTimeoutSeconds (.real (.nan false)), ?_, fun bounded => ?_⟩
    · have read := ofEnvironment_found [("LIFECYCLE_IO_TIMEOUT", "nan")]
        [none, none, none, some ("io_timeout_seconds", .real (.nan false)), none, none] rfl rfl
      exact read.trans (check_passes fun s => passes s .ioTimeoutSeconds)
    · cases Json.IsOver.placed (bounded .ioTimeoutSeconds)
  · refine ⟨standard.put .maxDepth (.real (.nan false)), ?_, fun bounded => ?_⟩
    · have assigned : standard.setAll ([("max_depth", .real (.nan false))].filter fun s => s.2.kind ≠ .null) =
          .ok (standard.put .maxDepth (.real (.nan false))) := rfl
      rw [withOverrides, assigned, ok_bind]
      exact check_passes fun s => passes s .maxDepth
    · cases Json.IsAtLeast.placed (bounded .maxDepth)

end Config
end Lifecycle
