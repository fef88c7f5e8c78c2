import Lifecycle.Proofs.Record.Facts
import Lifecycle.Proofs.Record.Graph
import Lifecycle.Proofs.Store.Keyed

namespace Lifecycle.Store

variable {s : Store}

structure WellFormed (s : Store) : Prop extends s.Keyed where
  sound : ∀ t ∈ s.transitions, t.WellFormed
  known : ∀ u ∈ s.users, u.WellFormed
  entered : ∀ a ∈ s.assignments, a.enteredAt.Readable

theorem decodeAll_each {α : Type} {read : Json → Except Fault α} {Holds : α → Prop} {all : List α}
    (each : ∀ v a, read v = .ok a → Holds a) (done : decodeAll read v key = .ok all) :
    ∀ a ∈ all, Holds a := by
  unfold decodeAll at done
  obtain ⟨_, _, done⟩ := bind_ok.mp done
  obtain ⟨_, _, done⟩ := bind_ok.mp done
  exact mapM_all each done

theorem decode_wellFormed (decoded : decode v = .ok s) : s.WellFormed := by
  unfold decode at decoded
  obtain ⟨versions, _, decoded⟩ := bind_ok.mp decoded
  obtain ⟨stages, _, decoded⟩ := bind_ok.mp decoded
  obtain ⟨transitions, moved, decoded⟩ := bind_ok.mp decoded
  obtain ⟨users, met, decoded⟩ := bind_ok.mp decoded
  obtain ⟨assignments, placed, decoded⟩ := bind_ok.mp decoded
  cases decoded
  refine ⟨ofRecords_keyed versions stages transitions users assignments, ?_, ?_, ?_⟩
  · exact decodeAll_each (fun _ _ => Transition.decode_wellFormed) moved
  · intro u member
    exact decodeAll_each (fun _ _ => UserFacts.decode_wellFormed) met u (mem_collect member)
  · intro a member
    rcases mem_assignAll member with none | given
    · cases none
    · exact decodeAll_each (fun _ _ => Assignment.decode_readable) placed a given

def withoutUndatedModels (s : Store) : Store := { s with users := s.users.map (·.withoutUndatedModel) }

theorem decode_encode (wellFormed : s.WellFormed) : decode s.encode = .ok s.withoutUndatedModels := by
  have versions : (s.versions.map Version.encode).mapM Version.decode = .ok s.versions :=
    mapM_restored fun v _ => Version.decode_encode v
  have stages : (s.stages.map Stage.encode).mapM Stage.decode = .ok s.stages :=
    mapM_restored fun g _ => Stage.decode_encode g
  have transitions : (s.transitions.map Transition.encode).mapM Transition.decode = .ok s.transitions :=
    mapM_restored fun t member => Transition.decode_encode (wellFormed.sound t member)
  have users : (s.users.map UserFacts.encode).mapM UserFacts.decode =
      .ok (s.users.map (·.withoutUndatedModel)) :=
    mapM_written _ fun u member => UserFacts.decode_encode (wellFormed.known u member)
  have assignments : (s.assignments.map Assignment.encode).mapM Assignment.decode = .ok s.assignments :=
    mapM_restored fun a member => Assignment.decode_encode (wellFormed.entered a member)
  have distinct : ((s.users.map (·.withoutUndatedModel)).map (·.id)).Nodup := by
    rw [List.map_map]
    exact wellFormed.users
  have kept : ofRecords s.versions s.stages s.transitions (s.users.map (·.withoutUndatedModel)) s.assignments =
      s.withoutUndatedModels := by
    unfold ofRecords withoutUndatedModels
    rw [collect_distinct wellFormed.versions, collect_distinct wellFormed.stages, collect_distinct distinct,
      assignAll_sorted wellFormed.assignments]
  simp [decode, decodeAll, encode, versions, stages, transitions, users, assignments, kept]

theorem withoutUndatedModels_same : s.withoutUndatedModels = s ↔ ∀ u ∈ s.users, u.Dated := by
  have users : s.withoutUndatedModels = s ↔ s.users.map (·.withoutUndatedModel) = s.users.map id := by
    rw [List.map_id]
    constructor
    · intro same
      exact congrArg Store.users same
    · intro same
      rw [withoutUndatedModels, same]
  rw [users, List.map_inj_left]
  exact forall₂_congr fun u _ => u.withoutUndatedModel_same

theorem user_withoutUndatedModels (s : Store) (user : String) :
    s.withoutUndatedModels.user? user = (s.user? user).map (·.withoutUndatedModel) := by
  simp only [user?, withoutUndatedModels, List.find?_map]
  rfl

theorem user_dated (dated : ∀ u, s.user? user = some u → u.Dated) :
    s.withoutUndatedModels.user? user = s.user? user := by
  rw [user_withoutUndatedModels]
  cases found : s.user? user with
  | none => rfl
  | some u => rw [Option.map_some, u.withoutUndatedModel_same.mpr (dated u found)]

theorem userIds_withoutUndatedModels (s : Store) (limit : Json) :
    s.withoutUndatedModels.userIds limit = s.userIds limit := by
  have sorted : (s.users.map (·.withoutUndatedModel)).mergeSort isNewer =
      (s.users.mergeSort isNewer).map (·.withoutUndatedModel) := by
    rw [List.map_mergeSort]
    intro u _ w _
    rfl
  simp only [userIds, withoutUndatedModels, sorted, List.map_map]
  rfl

theorem setAssignment_wellFormed (wellFormed : s.WellFormed) {a : Assignment} (entered : a.enteredAt.Readable) :
    (s.setAssignment a).WellFormed := by
  refine ⟨setAssignment_keyed wellFormed.toKeyed a, wellFormed.sound, wellFormed.known, ?_⟩
  intro b member
  rcases mem_assign member with rfl | held
  · exact entered
  · exact wellFormed.entered b held

end Lifecycle.Store
