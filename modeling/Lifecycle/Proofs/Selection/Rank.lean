import Lifecycle.Proofs.Evaluation.Groups
import Lifecycle.Proofs.Selection.Ordering

namespace Lifecycle
namespace Transition

-- Ids of digits alone stand in the order of their numbers, those of one number
-- in that of their spellings; they come before all others, which stand in the
-- order of their characters.
inductive IdPrecedes (a b : String) : Prop where
  | number (first : idNumber? a = some m) (second : idNumber? b = some n) (less : m < n)
  | spelling (first : idNumber? a = some n) (second : idNumber? b = some n) (less : a < b)
  | numeric (first : idNumber? a = some n) (second : idNumber? b = none)
  | text (first : idNumber? a = none) (second : idNumber? b = none) (less : a < b)

def Precedes (t u : Transition) : Prop :=
  u.priority < t.priority ∨ t.priority = u.priority ∧ IdPrecedes t.id u.id

theorem idPrecedes_exact : IdPrecedes a b ↔ idAtMost b a = false := by
  unfold idAtMost
  constructor
  · intro precedes
    cases precedes with
    | number first second less =>
      simp only [first, second, Bool.or_eq_false_iff, Bool.and_eq_false_iff, decide_eq_false_iff_not]
      omega
    | spelling first second less => simp [first, second, less]
    | numeric first second => simp [first, second]
    | text first second less => simp [first, second, less]
  · intro below
    cases first : idNumber? a with
    | none =>
      cases second : idNumber? b with
      | none =>
        simp only [first, second, decide_eq_false_iff_not, String.not_le] at below
        exact .text first second below
      | some n => simp [first, second] at below
    | some m =>
      cases second : idNumber? b with
      | none => exact .numeric first second
      | some n =>
        simp only [first, second, Bool.or_eq_false_iff, Bool.and_eq_false_iff, decide_eq_false_iff_not,
          String.not_le, Nat.not_lt] at below
        rcases Nat.lt_or_eq_of_le below.1 with less | rfl
        · exact .number first second less
        · exact .spelling first second (below.2.resolve_left fun apart => apart rfl)

theorem precedes_exact {t u : Transition} : t.Precedes u ↔ isBefore u t = false := by
  unfold Precedes isBefore
  rw [idPrecedes_exact, Bool.or_eq_false_iff, Bool.and_eq_false_iff, decide_eq_false_iff_not,
    decide_eq_false_iff_not]
  rcases Int.lt_trichotomy t.priority u.priority with less | same | greater
  · simp [less, Int.lt_asymm less, Int.ne_of_lt less]
  · simp [same]
  · simp [greater, Int.lt_asymm greater, Int.ne_of_lt greater]

instance (t u : Transition) : Decidable (t.Precedes u) := decidable_of_iff _ precedes_exact.symm

theorem ordered_precedes {ts : List Transition} (distinct : (ts.map (·.id)).Nodup) :
    (ts.mergeSort isBefore).Pairwise Precedes := by
  have sorted := List.pairwise_mergeSort isBefore_trans isBefore_total ts
  have unlike : ((ts.mergeSort isBefore).map (·.id)).Nodup :=
    ((List.mergeSort_perm ts isBefore).map _).nodup_iff.mpr distinct
  refine (sorted.and (List.pairwise_map.mp unlike)).imp fun ⟨before, apart⟩ => ?_
  rw [precedes_exact]
  exact Bool.eq_false_iff.mpr fun back => apart (isBefore_antisymm before back)

theorem precedes_asymm {t u : Transition} (precedes : t.Precedes u) : ¬u.Precedes t := by
  intro back
  rw [precedes_exact] at precedes back
  have total := isBefore_total t u
  rw [precedes, back] at total
  cases total

theorem precedes_irrefl (t : Transition) : ¬t.Precedes t := fun precedes => precedes_asymm precedes precedes

theorem rank_ordered {before after : List Transition} (ordered : (before ++ t :: after).Pairwise Precedes) :
    (before ++ t :: after).countP (fun u => decide (u.Precedes t)) = before.length := by
  obtain ⟨_, behind, across⟩ := List.pairwise_append.mp ordered
  have front : before.countP (fun u => decide (u.Precedes t)) = before.length := by
    rw [List.countP_eq_length]
    intro u member
    exact decide_eq_true (across u member t (by simp))
  have back : after.countP (fun u => decide (u.Precedes t)) = 0 := by
    rw [List.countP_eq_zero]
    intro u member
    simpa using precedes_asymm ((List.pairwise_cons.mp behind).1 u member)
  rw [List.countP_append, List.countP_cons, front, back]
  simp [precedes_irrefl]

-- Whether a candidate is eligible, where there is an answer.
def Decides (s : Situation) (t : Transition) (verdict : Bool) : Prop :=
  (if t.isImplied s then Condition.evaluate s.context t.conditions else .ok false) = .ok verdict

theorem decides_bare {t : Transition} (bare : t.conditions = []) (implied : t.isImplied s = verdict) : t.Decides s verdict := by
  unfold Decides
  rw [implied, bare]
  cases verdict <;> rfl

theorem decides_asked {s : Situation} {t : Transition} (implied : t.isImplied s = true)
    (evaluated : Condition.evaluate s.context t.conditions = .ok verdict) : t.Decides s verdict := by
  rw [Decides, implied, if_pos rfl, evaluated]

end Transition

namespace Selection
open Transition

theorem scan_decided {t : Transition} (decided : t.Decides s verdict) : scan s looked (t :: rest) =
    if verdict then .ok ⟨some t, looked + 1⟩ else scan s (looked + 1) rest := by
  unfold Decides at decided
  rw [scan]
  cases implied : t.isImplied s with
  | true =>
    rw [implied, if_pos rfl] at decided
    rw [decided]
    cases verdict <;> rfl
  | false =>
    rw [implied] at decided
    cases decided
    rfl

theorem scan_answers {ts : List Transition} (named : ∀ t ∈ ts, ∀ c ∈ t.conditions, c.IsNamed) :
    ∃ selection, scan s looked ts = .ok selection := by
  induction ts generalizing looked with
  | nil => exact ⟨_, rfl⟩
  | cons first rest ih =>
    obtain ⟨selection, later⟩ := @ih (looked + 1) fun t member => named t (by simp [member])
    have checkable : Condition.Checkable s.context first.conditions :=
      Condition.checkable_named (named first (by simp))
    obtain ⟨verdict, decided⟩ := Condition.evaluate_answers checkable
    rw [scan]
    split
    · rw [decided]
      cases verdict with
      | true => exact ⟨_, rfl⟩
      | false => exact ⟨_, later⟩
    · exact ⟨_, later⟩

theorem choose_scan {ts : List Transition} (short : ∀ t ∈ ts, ¬t.IsOverlong) :
    choose s ts = scan s 0 (ts.mergeSort isBefore) := by
  rw [choose, inOrder_readable short]

theorem choose_ranked {ts : List Transition} (short : ∀ t ∈ ts, ¬t.IsOverlong)
    (ranked : ts.Pairwise fun t u => u.priority < t.priority) : choose s ts = scan s 0 ts := by
  have ordered : ts.Pairwise fun t u => isBefore t u = true := by
    apply ranked.imp
    intro t u higher
    simp [isBefore, higher]
  rw [choose_scan short, List.mergeSort_of_pairwise ordered]

theorem scan_related {β : Type} {knows : Transition → β → Prop} {opens : β → Bool} {ts : List Transition} {bs : List β}
    (looked : Nat) (decides : ∀ b ∈ bs, ∀ t, knows t b → t.Decides s (opens b)) (known : List.Forall₂ knows ts bs) :
    ∃ t? total, scan s looked ts = .ok ⟨t?, total⟩ ∧ Option.Rel knows t? (bs.find? opens) := by
  induction known generalizing looked with
  | nil => exact ⟨none, looked, rfl, .none⟩
  | @cons t b rest others first _ ih =>
    obtain ⟨now, later⟩ := List.forall_mem_cons.mp decides
    rw [scan_decided (now t first), List.find?_cons]
    cases opens b with
    | true => exact ⟨some t, looked + 1, rfl, .some first⟩
    | false => exact ih _ later

theorem choose_none {ts : List Transition} (short : ∀ t ∈ ts, ¬t.IsOverlong)
    (chosen : choose s ts = .ok ⟨none, total⟩) : (∀ t ∈ ts, ¬t.IsEligible s) ∧ total = ts.length := by
  rw [choose_scan short] at chosen
  obtain ⟨nobody, rfl⟩ := scan_none chosen
  exact ⟨fun t member => nobody t (List.mem_mergeSort.mpr member), by simp⟩

theorem choose_some {ts : List Transition} (distinct : (ts.map (·.id)).Nodup) (short : ∀ t ∈ ts, ¬t.IsOverlong)
    (chosen : choose s ts = .ok ⟨some t, total⟩) : t ∈ ts ∧ t.IsEligible s ∧
      (∀ u ∈ ts, u.IsEligible s → u = t ∨ t.Precedes u) ∧ total = ts.countP (·.Precedes t) + 1 := by
  rw [choose_scan short] at chosen
  obtain ⟨before, after, split, eligible, unfit, rfl⟩ := scan_some chosen
  have ordered := ordered_precedes distinct
  have perm := List.mergeSort_perm ts isBefore
  rw [split] at ordered perm
  refine ⟨perm.mem_iff.mp (by simp), eligible, fun u member fit => ?_, ?_⟩
  · rcases List.mem_append.mp (perm.mem_iff.mpr member) with front | rest
    · exact absurd fit (unfit u front)
    · obtain ⟨_, behind, _⟩ := List.pairwise_append.mp ordered
      exact (List.mem_cons.mp rest).imp_right ((List.pairwise_cons.mp behind).1 u)
  · rw [← perm.countP_eq, rank_ordered ordered, Nat.zero_add]

-- The choice depends on the set of candidates alone: it is the first eligible
-- one in the strict order, counted by its rank among all of them.
theorem choose_best (s : Situation) (ts : List Transition) (distinct : (ts.map (·.id)).Nodup)
    (short : ∀ t ∈ ts, ¬t.IsOverlong) :
    (∀ selection, choose s ts = .ok selection →
      (selection.transition = none ↔ ∀ t ∈ ts, ¬t.IsEligible s) ∧
      (selection.transition = none → selection.evaluated = ts.length) ∧
      ∀ t, selection.transition = some t → t ∈ ts ∧ t.IsEligible s ∧
        (∀ u ∈ ts, u.IsEligible s → u = t ∨ t.Precedes u) ∧
        selection.evaluated = ts.countP (·.Precedes t) + 1) ∧
    ((∀ t ∈ ts, ∀ c ∈ t.conditions, c.IsNamed) → ∃ selection, choose s ts = .ok selection) ∧
    ∀ us, ts.Perm us → choose s us = choose s ts := by
  refine ⟨?_, fun named => ?_, fun us perm => (choose_arrival perm distinct short s).symm⟩
  · rintro ⟨t?, total⟩ chosen
    cases t? with
    | none =>
      obtain ⟨nobody, rfl⟩ := choose_none short chosen
      exact ⟨iff_of_true rfl nobody, fun _ => rfl, nofun⟩
    | some t =>
      obtain ⟨member, eligible, facts⟩ := choose_some distinct short chosen
      refine ⟨iff_of_false nofun fun nobody => nobody t member eligible, nofun, fun u same => ?_⟩
      cases same
      exact ⟨member, eligible, facts⟩
  · rw [choose_scan short]
    exact scan_answers fun t member => named t (List.mem_mergeSort.mp member)

def newcomer : Context :=
  ⟨"u", 0, 0, 0, ⟨0, 0⟩, false, false, true, .finite false 0, [], none, none, .null, none, none, none, []⟩

def atStart : Situation := ⟨⟨"a", .text "NEW", 1, true, false⟩, newcomer, false, .text "BLOCKED"⟩

def opening (id : String) (conditions : List Condition) : Transition :=
  ⟨id, "a", "b", 1, .event, .text "BOT_START", none, 0, conditions, []⟩

def hasModel : Condition := ⟨⟨.text "preferred_model", .text "EXISTS", ""⟩, 0⟩

theorem choose_best_numbers :
    let ts := [opening "٣" [], opening "10" [], opening "9" [], opening "09" [hasModel]]
    (ts.map (·.id)).Nodup ∧ (∀ t ∈ ts, ¬t.IsOverlong) ∧ (∀ t ∈ ts, ∀ c ∈ t.conditions, c.IsNamed) ∧
      choose atStart ts = .ok ⟨some (opening "9" []), 2⟩ := by
  intro ts
  have distinct : (ts.map (·.id)).Nodup := by decide
  have short : ∀ t ∈ ts, ¬t.IsOverlong := by
    simp only [ts, List.forall_mem_cons, IsOverlong]
    decide
  have named : ∀ t ∈ ts, ∀ c ∈ t.conditions, c.IsNamed := by
    simp [ts, opening, hasModel, Comparison.IsNamed, Json.isKey]
  have eligible : (opening "9" []).IsEligible atStart := ⟨rfl, rfl⟩
  have refused : ¬(opening "09" [hasModel]).IsEligible atStart := by
    have fails : Condition.evaluate newcomer [hasModel] = .ok false := by rfl
    intro eligible
    have clash : Except.ok false = Except.ok true := fails.symm.trans eligible.2
    cases clash
  obtain ⟨found, answers, _⟩ := choose_best atStart ts distinct short
  obtain ⟨⟨t?, total⟩, chosen⟩ := answers named
  obtain ⟨absent, _, present⟩ := found _ chosen
  cases t? with
  | none => exact absurd eligible (absent.mp rfl _ (by simp [ts]))
  | some t =>
    obtain ⟨member, fit, first, rank⟩ := present t rfl
    have best : t = opening "9" [] := by
      rcases first _ (by simp [ts]) eligible with same | precedes
      · exact same.symm
      · simp only [ts, List.mem_cons, List.not_mem_nil, or_false] at member
        rcases member with rfl | rfl | rfl | rfl
        · exact absurd precedes (by decide)
        · exact absurd precedes (by decide)
        · rfl
        · exact absurd fit refused
    subst best
    obtain rfl : total = 2 := rank.trans (by decide)
    exact ⟨distinct, short, named, chosen⟩

end Selection
end Lifecycle
