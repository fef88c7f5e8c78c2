import Lifecycle.Proofs.Replay.Batch
import Lifecycle.Proofs.Selection.Ordering

namespace Lifecycle
namespace Store

-- Two stores of the same records, of which transitions and users came in different orders.
structure Rearranged (s t : Store) : Prop where
  versions : s.versions = t.versions
  stages : s.stages = t.stages
  transitions : s.transitions.Perm t.transitions
  users : s.users.Perm t.users

theorem isNewer_total (a b : UserFacts) : isNewer a b || isNewer b a := by
  unfold isNewer
  rcases Int.lt_trichotomy a.createdAt.moment b.createdAt.moment with earlier | same | later
  · simp [earlier]
  · simpa [same] using String.le_total b.id a.id
  · simp [later]

theorem isNewer_trans (a b c : UserFacts) (ab : isNewer a b) (bc : isNewer b c) : isNewer a c := by
  simp only [isNewer, Bool.or_eq_true, Bool.and_eq_true, decide_eq_true_eq] at *
  rcases ab with newer | ⟨level, ids⟩
  · rcases bc with further | ⟨level, _⟩
    · exact .inl (Int.lt_trans further newer)
    · exact .inl (level ▸ newer)
  · rcases bc with further | ⟨even, more⟩
    · exact .inl (level ▸ further)
    · exact .inr ⟨level.trans even, String.le_trans more ids⟩

theorem isNewer_antisymm (ab : isNewer a b) (ba : isNewer b a) : a.id = b.id := by
  simp only [isNewer, Bool.or_eq_true, Bool.and_eq_true, decide_eq_true_eq] at ab ba
  rcases ab with newer | ⟨level, ids⟩
  · rcases ba with older | ⟨level, _⟩
    · exact absurd older (Int.lt_asymm newer)
    · exact absurd newer (level ▸ Int.lt_irrefl _)
  · rcases ba with older | ⟨_, back⟩
    · exact absurd older (level ▸ Int.lt_irrefl _)
    · exact String.le_antisymm back ids

variable {s t : Store} (rearranged : s.Rearranged t)
include rearranged

theorem userIds_arrival (users : (s.users.map (·.id)).Nodup) (limit : Json) : s.userIds limit = t.userIds limit := by
  have sorted : s.users.mergeSort isNewer = t.users.mergeSort isNewer := by
    apply mergeSort_arrival isNewer_trans isNewer_total _ rearranged.users
    intro a left b right ab ba
    exact List.inj_on_of_nodup_map users left right (isNewer_antisymm ab ba)
  unfold userIds
  rw [sorted]

theorem user_arrival (users : (s.users.map (·.id)).Nodup) (id : String) : s.user? id = t.user? id :=
  find_perm users rearranged.users

theorem stage_arrival (id : String) : s.stage? id = t.stage? id := by
  unfold stage?
  rw [rearranged.stages]

theorem initialStage_arrival (version : Int) : s.initialStage? version = t.initialStage? version := by
  unfold initialStage?
  rw [rearranged.stages]

-- The first sorting leaves equal priorities in the order of arrival; the second one settles them.
theorem choose_arrival (transitions : (s.transitions.map (·.id)).Nodup)
    (short : ∀ u ∈ s.transitions, ¬ u.IsOverlong) (situation : Situation) (stage : String) (version : Int) :
    Selection.choose situation (s.transitionsFrom stage version) =
      Selection.choose situation (t.transitionsFrom stage version) := by
  have candidates : (s.transitionsFrom stage version).Perm
      (s.transitions.filter fun u => u.source = stage && u.versionId = version) := List.mergeSort_perm _ _
  have others : (t.transitionsFrom stage version).Perm
      (t.transitions.filter fun u => u.source = stage && u.versionId = version) := List.mergeSort_perm _ _
  have perm := (candidates.trans (rearranged.transitions.filter _)).trans others.symm
  apply Selection.choose_arrival perm
  · have kept : (s.transitions.filter fun u => u.source = stage && u.versionId = version).Sublist s.transitions :=
      List.filter_sublist
    exact (candidates.map (·.id)).nodup_iff.mpr ((kept.map (·.id)).nodup transitions)
  · intro u member
    exact short u (List.mem_of_mem_filter (candidates.mem_iff.mp member))

end Store

namespace Engine

variable {s t : Store} (rearranged : s.Rearranged t) (users : (s.users.map (·.id)).Nodup)
  (transitions : (s.transitions.map (·.id)).Nodup) (short : ∀ u ∈ s.transitions, ¬ u.IsOverlong)

include rearranged transitions short in
theorem next_arrival (e : Engine) (version : Int) (context : Context) (blocked : Bool) :
    e.next? s version context blocked = e.next? t version context blocked := by
  funext stage
  unfold next?
  simp only [Store.choose_arrival rearranged transitions short, Store.stage_arrival rearranged]

include rearranged users transitions short

theorem infer_arrival (e : Engine) (user : String) (version : Int) :
    e.infer s user version = e.infer t user version := by
  unfold infer
  simp only [Store.user_arrival rearranged users, Store.initialStage_arrival rearranged,
    next_arrival rearranged transitions short, rearranged.stages]

theorem immerseAll_arrival (e : Engine) (choice : Option Int) (limit : Json) :
    (e.immerseAll choice limit s).1 = (e.immerseAll choice limit t).1 ∧
    (∀ user, s.assignment? user = t.assignment? user →
      (e.immerseAll choice limit s).2.assignment? user = (e.immerseAll choice limit t).2.assignment? user) ∧
    (s.assignments = t.assignments → ∀ version,
      Fingerprint.ofAssignments ((e.immerseAll choice limit s).2.assignmentsOf version) =
        Fingerprint.ofAssignments ((e.immerseAll choice limit t).2.assignmentsOf version)) := by
  obtain ⟨result, records, runs, _⟩ := immerseAll_writes e choice limit (e.resolveVersion t choice)
    (e.batch t limit) fun version turn => (turn.engine.immerse turn.user version t).1
  have resolved : e.resolveVersion s choice = e.resolveVersion t choice := by
    simp only [resolveVersion, Store.activeVersion?, rearranged.versions]
  have listed : e.batch s limit = e.batch t limit := by
    simp only [batch, Store.userIds_arrival rearranged users]
  have answered : ∀ version (turn : Turn), (turn.engine.immerse turn.user version s).1 =
      (turn.engine.immerse turn.user version t).1 :=
    fun version turn => immerse_congr (infer_arrival rearranged users transitions short turn.engine turn.user version)
  rw [runs s resolved listed answered, runs t rfl rfl fun _ _ => rfl]
  refine ⟨rfl, fun _ => Store.setAssignments_lookup records, ?_⟩
  intro same version
  have equal := Store.setAssignments_same same records
  simp only [Store.assignmentsOf, equal]

end Engine

namespace Engine

def walkers : List UserFacts := [walker, { walker with id := "v" }]

def twoWays (ways : List Transition) (users : List UserFacts) : Store := ⟨[], [wayIn, wayOut], ways, users, []⟩

theorem immerseAll_arrival_turned :
    (twoWays [way "2" "b", way "10" "c"] walkers).Rearranged (twoWays [way "10" "c", way "2" "b"] walkers.reverse) ∧
    ((twoWays [way "2" "b", way "10" "c"] walkers).users.map (·.id)).Nodup ∧
    ((twoWays [way "2" "b", way "10" "c"] walkers).transitions.map (·.id)).Nodup ∧
    (∀ u ∈ (twoWays [way "2" "b", way "10" "c"] walkers).transitions, ¬ u.IsOverlong) ∧
    (standard.immerseAll (some 1) .null (twoWays [way "2" "b", way "10" "c"] walkers)).1 =
      (standard.immerseAll (some 1) .null (twoWays [way "10" "c", way "2" "b"] walkers.reverse)).1 := by
  have rearranged : (twoWays [way "2" "b", way "10" "c"] walkers).Rearranged
      (twoWays [way "10" "c", way "2" "b"] walkers.reverse) :=
    ⟨rfl, rfl, .swap _ _ _, (List.reverse_perm _).symm⟩
  have users : ((twoWays [way "2" "b", way "10" "c"] walkers).users.map (·.id)).Nodup := by decide
  have transitions : ((twoWays [way "2" "b", way "10" "c"] walkers).transitions.map (·.id)).Nodup := by decide
  have short : ∀ u ∈ (twoWays [way "2" "b", way "10" "c"] walkers).transitions, ¬ u.IsOverlong := by
    rintro u member ⟨_, long⟩
    simp only [twoWays, List.mem_cons, List.not_mem_nil, or_false] at member
    rcases member with rfl | rfl
    · exact absurd long (by decide)
    · exact absurd long (by decide)
  exact ⟨rearranged, users, transitions, short,
    (immerseAll_arrival rearranged users transitions short standard (some 1) .null).1⟩

end Engine
end Lifecycle
