import Lifecycle.Proofs.Outcome
import Lifecycle.Proofs.Store.Keyed
import Lifecycle.Tally
import Mathlib.Algebra.GroupWithZero.Nat

namespace Lifecycle.Sorting

open scoped List

variable {α ε : Type} {before : α → α → Except ε Bool}

theorem insert_perm (inserted : insert before a xs = .ok ys) : ys.Perm (a :: xs) := by
  fun_induction insert before a xs generalizing ys with
  | case1 xs halves =>
    cases inserted
    have short : xs.length ≤ xs.length / 2 := List.drop_eq_nil_iff.mp halves
    have empty : xs = [] := List.length_eq_zero_iff.mp (by omega)
    rw [empty]
  | case2 => cases inserted
  | case3 xs b right halves _ _ ih =>
    obtain ⟨left, put, rfl⟩ := map_ok.mp inserted
    calc
      left ++ b :: right
      _ ~ (a :: xs.take (xs.length / 2)) ++ b :: right := (ih put).append_right _
      _ = a :: xs := by rw [List.cons_append, ← halves, List.take_append_drop]
  | case4 xs b right halves _ _ ih =>
    obtain ⟨rest, put, rfl⟩ := map_ok.mp inserted
    calc
      xs.take (xs.length / 2) ++ b :: rest
      _ ~ xs.take (xs.length / 2) ++ b :: a :: right := ((ih put).cons b).append_left _
      _ ~ xs.take (xs.length / 2) ++ a :: b :: right := (List.Perm.swap a b right).append_left _
      _ ~ a :: (xs.take (xs.length / 2) ++ b :: right) := List.perm_middle
      _ = a :: xs := by rw [← halves, List.take_append_drop]

theorem insertAll_perm (inserted : insertAll before sorted xs = .ok ys) : ys.Perm (xs ++ sorted) := by
  induction xs generalizing sorted with
  | nil =>
    cases inserted
    exact .refl _
  | cons a rest ih =>
    rw [insertAll] at inserted
    cases put : insert before a sorted with
    | error e => simp [put] at inserted
    | ok more =>
      simp only [put] at inserted
      calc
        ys
        _ ~ rest ++ more := ih inserted
        _ ~ rest ++ a :: sorted := (insert_perm put).append_left rest
        _ ~ a :: rest ++ sorted := List.perm_middle

theorem run_split (split : run before falling last xs = .ok (front, rest)) : front ++ rest = xs := by
  induction xs generalizing last front with
  | nil =>
    cases split
    rfl
  | cons a later ih =>
    rw [run] at split
    cases compared : before a last with
    | error e => simp [compared] at split
    | ok first =>
      simp only [compared] at split
      by_cases goes : first = falling
      · rw [if_pos goes] at split
        obtain ⟨⟨more, behind⟩, taken, same⟩ := map_ok.mp split
        cases same
        rw [List.cons_append, ih taken]
      · rw [if_neg goes] at split
        cases split
        rfl

theorem sort_perm (sorted : sort before xs = .ok ys) : ys.Perm xs := by
  unfold sort at sorted
  split at sorted
  · cases sorted
    exact .refl _
  · cases sorted
    exact .refl _
  · rename_i a b later
    cases compared : before b a with
    | error e => simp [compared] at sorted
    | ok falling =>
      simp only [compared] at sorted
      cases split : run before falling b later with
      | error e => simp [split] at sorted
      | ok parts =>
        obtain ⟨front, rest⟩ := parts
        simp only [split] at sorted
        have begun : (if falling then (a :: b :: front).reverse else a :: b :: front).Perm (a :: b :: front) := by
          cases falling
          · exact .refl _
          · exact List.reverse_perm _
        calc
          ys
          _ ~ rest ++ (if falling then (a :: b :: front).reverse else a :: b :: front) := insertAll_perm sorted
          _ ~ rest ++ a :: b :: front := begun.append_left rest
          _ ~ a :: b :: front ++ rest := List.perm_append_comm
          _ = a :: b :: later := by rw [List.cons_append, List.cons_append, run_split split]

end Lifecycle.Sorting

namespace Lifecycle

theorem Number.eq_place {x y : Number} : x.eq y = true ↔ ∃ p, x.place? = some p ∧ y.place? = some p := by
  unfold Number.eq
  split
  · rename_i p q at_p at_q
    rw [at_p, at_q]
    simp [eq_comm]
  · rename_i placeless
    refine iff_of_false nofun ?_
    rintro ⟨p, at_p, at_q⟩
    exact placeless p p at_p at_q

-- What equal names have in common, a place for numbers of any kind.
inductive NameKey where
  | nothing
  | text (s : String)
  | place (p : Place)
  | constant
deriving DecidableEq

def Json.key? : Json → Option NameKey
  | .null => some .nothing
  | .text s => some (.text s)
  | .real (.nan constant) => if constant then some .constant else none
  | v => (v.number?.bind Number.place?).map .place

theorem Number.eq_key {x y : Number} : x.eq y = true ↔
    ∃ k, x.place?.map NameKey.place = some k ∧ y.place?.map NameKey.place = some k := by
  rw [eq_place]
  cases x.place? <;> cases y.place? <;> simp [eq_comm]

@[simp] theorem Number.place_nan : (Number.real (.nan constant)).place? = none := rfl

theorem Json.same_key {a b : Json} (settled : a.isKey = true) :
    (a.same b || (a.isConstant && b.isConstant)) = true ↔ ∃ k, a.key? = some k ∧ b.key? = some k := by
  cases a
  case list => cases settled
  case record => cases settled
  case text s =>
    cases b
    case text t => simpa [same, isConstant, key?] using eq_comm
    case real d => cases d <;> simp [same, isConstant, key?, number?]
    all_goals simp [same, isConstant, key?, number?]
  case real d =>
    cases d
    all_goals
      cases b
      case real c => cases c <;> simp [same, isConstant, key?, number?, Number.eq_key]
      all_goals simp [same, isConstant, key?, number?, Number.eq_key]
  all_goals
    cases b
    case real d => cases d <;> simp [same, isConstant, key?, number?, Number.eq_key]
    all_goals simp [same, isConstant, key?, number?, Number.eq_key]

-- By what a stage is counted: a name that equals no other one is known by its stage.
def Stage.key (g : Stage) : NameKey ⊕ String :=
  match g.name.key? with
  | some k => .inl k
  | none => .inr g.id

namespace Tally

variable {stages seen : List Stage} {t : Tally}

theorem sharesName_key (distinct : (stages.map (·.id)).Nodup) (first : f ∈ stages) (second : g ∈ stages)
    (settled : f.name.isKey = true) : sharesName f g = true ↔ f.key = g.key := by
  have one : f.id = g.id → f = g := List.inj_on_of_nodup_map distinct first second
  rw [sharesName, Bool.or_assoc, Bool.or_eq_true, decide_eq_true_iff, Json.same_key settled]
  constructor
  · rintro (same | ⟨k, known, equal⟩)
    · rw [one same]
    · rw [Stage.key, Stage.key, known, equal]
  · intro same
    cases known : f.name.key? with
    | none => cases equal : g.name.key? <;> simp_all [Stage.key]
    | some k => cases equal : g.name.key? <;> simp_all [Stage.key]

def total (t : Tally) : Nat := (t.map (·.2)).sum

def count (t : Tally) (g : Stage) : Nat := ((t.find? fun entry => sharesName entry.1 g).map (·.2)).getD 0

theorem count_cons : count ((f, n) :: t) g = if sharesName f g then n else count t g := by
  unfold count
  rw [List.find?_cons]
  split <;> simp_all

theorem total_increment : (increment f t).total = t.total + 1 := by
  unfold total
  induction t with
  | nil => rfl
  | cons entry rest ih =>
    rw [increment]
    split
    · simp only [List.map_cons, List.sum_cons]
      omega
    · simp only [List.map_cons, List.sum_cons, ih]
      omega

theorem mem_increment (member : entry ∈ increment f t) : entry.1 = f ∨ ∃ held ∈ t, entry.1 = held.1 := by
  induction t with
  | nil => exact .inl (congrArg Prod.fst (List.mem_singleton.mp member))
  | cons other rest ih =>
    rw [increment] at member
    split at member
    · rcases List.mem_cons.mp member with rfl | later
      · exact .inr ⟨other, List.mem_cons_self, rfl⟩
      · exact .inr ⟨entry, List.mem_cons_of_mem _ later, rfl⟩
    · rcases List.mem_cons.mp member with rfl | later
      · exact .inr ⟨other, List.mem_cons_self, rfl⟩
      · rcases ih later with same | ⟨held, behind, same⟩
        · exact .inl same
        · exact .inr ⟨held, List.mem_cons_of_mem _ behind, same⟩

-- The counted stages are stages of a dataset whose names can be counted, and no name has two counts.
structure Sound (stages : List Stage) (t : Tally) : Prop where
  listed : ∀ entry ∈ t, entry.1 ∈ stages ∧ entry.1.name.isKey = true
  apart : (t.map (·.1.key)).Nodup

theorem Sound.nil : Sound stages [] := ⟨nofun, List.nodup_nil⟩

section
variable (distinct : (stages.map (·.id)).Nodup) (first : f ∈ stages) (settled : f.name.isKey = true)
include distinct first settled

theorem Sound.increment (sound : Sound stages t) : Sound stages (increment f t) := by
  constructor
  · intro entry member
    rcases mem_increment member with same | ⟨held, before, same⟩
    · rw [same]
      exact ⟨first, settled⟩
    · rw [same]
      exact sound.listed held before
  · have listed := sound.listed
    have apart := sound.apart
    clear sound
    induction t with
    | nil => exact List.nodup_singleton _
    | cons other rest ih =>
      obtain ⟨own, named⟩ := listed other List.mem_cons_self
      obtain ⟨new, later⟩ := List.nodup_cons.mp apart
      rw [Tally.increment]
      split
      · exact apart
      · rename_i differs
        refine List.nodup_cons.mpr ⟨?_, ih (fun entry member => listed entry (List.mem_cons_of_mem _ member)) later⟩
        intro again
        obtain ⟨entry, member, same⟩ := List.mem_map.mp again
        rcases mem_increment member with this | ⟨held, behind, this⟩
        · exact differs ((sharesName_key distinct own first named).mpr (this ▸ same).symm)
        · exact new (List.mem_map.mpr ⟨held, behind, this ▸ same⟩)

theorem count_increment (listed : ∀ entry ∈ t, entry.1 ∈ stages ∧ entry.1.name.isKey = true) (second : g ∈ stages) :
    (Tally.increment f t).count g = t.count g + if sharesName f g then 1 else 0 := by
  have keyed := sharesName_key distinct first second settled
  induction t with
  | nil =>
    rw [Tally.increment, count_cons]
    exact (Nat.zero_add _).symm
  | cons other rest ih =>
    obtain ⟨member, named⟩ := listed other List.mem_cons_self
    have toFirst := sharesName_key distinct member first named
    have toSecond := sharesName_key distinct member second named
    have later := ih fun entry member => listed entry (List.mem_cons_of_mem _ member)
    rw [Tally.increment]
    by_cases same : sharesName other.1 f = true
    · have agree : sharesName other.1 g = sharesName f g := by
        rw [Bool.eq_iff_iff, toSecond, keyed, toFirst.mp same]
      rw [if_pos same, count_cons, count_cons, agree]
      split <;> rfl
    · rw [if_neg same, count_cons, count_cons, later]
      by_cases held : sharesName other.1 g = true
      · have differs : ¬ sharesName f g = true :=
          fun also => same (toFirst.mpr ((toSecond.mp held).trans (keyed.mp also).symm))
        rw [if_pos held, if_pos held, if_neg differs]
        rfl
      · rw [if_neg held, if_neg held]

end

theorem find_shared (distinct : (stages.map (·.id)).Nodup)
    (listed : ∀ entry ∈ t, entry.1 ∈ stages ∧ entry.1.name.isKey = true) (known : g ∈ stages) :
    t.find? (fun entry => sharesName entry.1 g) = t.find? (fun entry => entry.1.key = g.key) := by
  induction t with
  | nil => rfl
  | cons entry rest ih =>
    obtain ⟨member, named⟩ := listed entry List.mem_cons_self
    have shared := sharesName_key distinct member known named
    have later := ih fun entry behind => listed entry (List.mem_cons_of_mem _ behind)
    rw [List.find?_cons, List.find?_cons, later]
    by_cases same : entry.1.key = g.key
    · rw [shared.mpr same, decide_eq_true same]
    · rw [Bool.eq_false_iff.mpr (mt shared.mp same), decide_eq_false same]

theorem count_perm (distinct : (stages.map (·.id)).Nodup) (sound : Sound stages t) (perm : t.Perm others)
    (known : g ∈ stages) : count others g = count t g := by
  have alike : ∀ entry ∈ others, entry.1 ∈ stages ∧ entry.1.name.isKey = true :=
    fun entry member => sound.listed entry (perm.mem_iff.mpr member)
  rw [count, count, find_shared distinct sound.listed known, find_shared distinct alike known]
  rw [find_perm sound.apart perm]

theorem total_perm (perm : t.Perm others) : total others = total t :=
  ((perm.map Prod.snd).sum_nat).symm

theorem inOrder_perm (sorted : t.inOrder = .ok others) : t.Perm others := (Sorting.sort_perm sorted).symm

def countEach (t : Tally) (seen : List Stage) : Tally := seen.foldl (fun t g => increment g t) t

theorem mem_countEach (member : entry ∈ countEach t seen) : entry.1 ∈ seen ∨ ∃ held ∈ t, entry.1 = held.1 := by
  induction seen generalizing t with
  | nil => exact .inr ⟨entry, member, rfl⟩
  | cons g rest ih =>
    rcases ih member with later | ⟨held, counted, same⟩
    · exact .inl (List.mem_cons_of_mem _ later)
    · rcases mem_increment counted with first | before
      · exact .inl (same.trans first ▸ List.mem_cons_self)
      · obtain ⟨old, member, equal⟩ := before
        exact .inr ⟨old, member, same.trans equal⟩

theorem total_countEach : (countEach t seen).total = t.total + seen.length := by
  induction seen generalizing t with
  | nil => rfl
  | cons g rest ih =>
    rw [countEach, List.foldl_cons, ← countEach, ih, total_increment, List.length_cons]
    omega

section
variable (distinct : (stages.map (·.id)).Nodup) (listed : ∀ g ∈ seen, g ∈ stages ∧ g.name.isKey = true)
include distinct listed

theorem Sound.countEach (sound : Sound stages t) : Sound stages (countEach t seen) := by
  induction seen generalizing t with
  | nil => exact sound
  | cons g rest ih =>
    obtain ⟨member, named⟩ := listed g List.mem_cons_self
    exact ih (fun g behind => listed g (List.mem_cons_of_mem _ behind)) (sound.increment distinct member named)

theorem count_countEach (sound : Sound stages t) (known : g ∈ stages) :
    (Tally.countEach t seen).count g = t.count g + seen.countP (sharesName · g) := by
  induction seen generalizing t with
  | nil => rfl
  | cons f rest ih =>
    obtain ⟨member, named⟩ := listed f List.mem_cons_self
    have first := count_increment distinct member named sound.listed known
    have later := ih (fun g behind => listed g (List.mem_cons_of_mem _ behind))
      (sound.increment distinct member named)
    calc
      (Tally.countEach t (f :: rest)).count g
      _ = (increment f t).count g + rest.countP (sharesName · g) := later
      _ = t.count g + (f :: rest).countP (sharesName · g) := by rw [first, List.countP_cons]; omega

end

end Tally

section
variable {α κ : Type} [DecidableEq κ] {xs : List α} {keys : List κ}

theorem countP_disjoint {p q : α → Bool} (apart : ∀ x ∈ xs, p x = true → q x = false) :
    xs.countP (fun x => p x || q x) = xs.countP p + xs.countP q := by
  induction xs with
  | nil => rfl
  | cons x rest ih =>
    have first := apart x List.mem_cons_self
    have later := ih fun x member => apart x (List.mem_cons_of_mem _ member)
    rw [List.countP_cons, List.countP_cons, List.countP_cons, later]
    cases holds : p x with
    | false => simp only [Bool.false_or, Bool.false_eq_true, if_false]; omega
    | true => simp only [first holds, Bool.true_or, Bool.false_eq_true, if_true, if_false]; omega

theorem sum_counts (xs : List α) (key : α → κ) (distinct : keys.Nodup) :
    (keys.map fun k => xs.countP (key · = k)).sum = xs.countP (key · ∈ keys) := by
  induction keys with
  | nil => simp
  | cons k rest ih =>
    obtain ⟨new, later⟩ := List.nodup_cons.mp distinct
    have apart : ∀ x ∈ xs, decide (key x = k) = true → decide (key x ∈ rest) = false := by
      intro x _ same
      rw [of_decide_eq_true same]
      exact decide_eq_false new
    calc
      ((k :: rest).map fun k => xs.countP (key · = k)).sum
      _ = xs.countP (key · = k) + xs.countP (key · ∈ rest) := by rw [List.map_cons, List.sum_cons, ih later]
      _ = xs.countP (fun x => decide (key x = k) || decide (key x ∈ rest)) := (countP_disjoint apart).symm
      _ = xs.countP (key · ∈ k :: rest) := by simp only [List.mem_cons, Bool.decide_or]

end

def Store.distribution (s : Store) (version : Int) : Distribution :=
  .ofRecords version (s.stagesOf version) (s.assignmentsOf (some version))

namespace Distribution

variable {s : Store} {stages seen : List Stage}

-- Where assignments are to stages of a dataset, those to some of its stages are counted stage by stage.
theorem sum_stages (distinct : (stages.map (·.id)).Nodup) (listed : ∀ f ∈ seen, f ∈ stages) (p : Stage → Bool) :
    ((stages.filter p).map fun g => seen.countP (·.id = g.id)).sum = seen.countP p := by
  have apart : ((stages.filter p).map (·.id)).Nodup := (List.filter_sublist.map _).nodup distinct
  have held : ∀ f ∈ seen, decide (f.id ∈ (stages.filter p).map (·.id)) = true ↔ p f = true := by
    intro f member
    rw [decide_eq_true_iff, List.mem_map]
    constructor
    · rintro ⟨g, kept, same⟩
      obtain ⟨own, holds⟩ := List.mem_filter.mp kept
      rwa [← List.inj_on_of_nodup_map distinct own (listed f member) same]
    · intro holds
      exact ⟨f, List.mem_filter.mpr ⟨listed f member, holds⟩, rfl⟩
  have summed := sum_counts seen (fun f => f.id) apart
  rw [List.map_map] at summed
  exact summed.trans (List.countP_congr held)

theorem total_counts (d : Distribution) : d.total = (d.counts.map (·.2)).sum := by
  unfold total
  rw [List.sum, List.foldr_map]

theorem countAt_assignments (s : Store) (version : Int) (stage : String) :
    countAt (s.assignmentsOf (some version)) version stage =
      ((s.assignmentsOf (some version)).map (·.stageId)).count stage := by
  rw [countAt, List.count, List.countP_map, List.countP_eq_length_filter]
  apply congrArg List.length
  apply List.filter_congr
  intro a member
  have own : decide (a.versionId = version) = true := (List.mem_filter.mp member).2
  rw [own]
  rfl

theorem distribution_counts (s : Store) (version : Int) : (s.distribution version).counts =
    (s.stagesOf version).map fun g => (g, ((s.assignmentsOf (some version)).map (·.stageId)).count g.id) := by
  have own : (s.stagesOf version).filter (fun g => g.versionId = version) = s.stagesOf version := by
    rw [Store.stagesOf, List.filter_filter]
    simp only [Bool.and_self]
  unfold Store.distribution ofRecords
  simp only [own, countAt_assignments]

theorem distribution_sum (distinct : (s.stages.map (·.id)).Nodup)
    (stand : ((s.assignmentsOf (some version)).map (·.stageId)).Perm (seen.map (·.id)))
    (listed : ∀ f ∈ seen, f ∈ s.stagesOf version) (p : Stage → Bool) :
    (((s.distribution version).counts.filter fun c => p c.1).map (·.2)).sum = seen.countP p := by
  have apart : ((s.stagesOf version).map (·.id)).Nodup := (List.filter_sublist.map _).nodup distinct
  rw [distribution_counts, List.filter_map, List.map_map, ← sum_stages apart listed p]
  apply congrArg List.sum
  apply List.map_congr_left
  intro g _
  change ((s.assignmentsOf (some version)).map (·.stageId)).count g.id = _
  rw [stand.count_eq, List.count, List.countP_map]
  rfl

end Distribution
end Lifecycle
