import Lifecycle.Proofs.Replay.Batch
import Lifecycle.Proofs.Store.RoundTrip

namespace Lifecycle

variable {s : Store} {e : Engine}

theorem Store.setAssignments_wellFormed (wellFormed : s.WellFormed) {records : List Assignment}
    (entered : ∀ a ∈ records, a.enteredAt.Readable) : (s.setAssignments records).WellFormed := by
  induction records generalizing s with
  | nil => exact wellFormed
  | cons a rest ih =>
    have first := setAssignment_wellFormed wellFormed (entered a List.mem_cons_self)
    exact ih first fun b member => entered b (List.mem_cons_of_mem a member)

namespace Engine

theorem infer_congr {t : Store} (stages : t.stages = s.stages) (transitions : t.transitions = s.transitions)
    (facts : t.user? user = s.user? user) : e.infer t user version = e.infer s user version := by
  have next : ∀ context blocked, e.next? t version context blocked = e.next? s version context blocked := by
    intro context blocked
    unfold next? Store.transitionsFrom Store.stage?
    rw [stages, transitions]
  unfold infer Store.initialStage?
  simp only [facts, stages, next]

def painter (model : Json) : UserFacts := { walker with lastGenerationModel := model }

def paintersWay : Transition :=
  { way "ab" "b" with conditions := [⟨⟨.text "preferred_model", .text "EQUALS", "sdxl"⟩, 0⟩] }

def studio (model : Json) : Store := ⟨[], [wayIn, wayOut], [paintersWay], [painter model], []⟩

def studioDataset : Json := .record [
  ("states", .list [wayIn.encode, wayOut.encode]),
  ("transitions", .list [paintersWay.encode]),
  ("users", .list [.record [
    ("id", .text "u"), ("createdAt", .text "0001-01-01T00:00:00+00:00"),
    ("lastGeneration", .record [("modelId", .text "sdxl")])]])]

theorem studio_choice {holds : Bool} (evaluated : Condition.evaluate context paintersWay.conditions = .ok holds) :
    Replay.choice ⟨studio model, 1, context, blocked, name⟩ wayIn =
      .ok ⟨if holds then some paintersWay else none, 1⟩ := by
  have named : Transition.idNumber? "ab" = none := by decide
  have candidates : Replay.candidates ⟨studio model, 1, context, blocked, name⟩ wayIn = [paintersWay] := by
    simp [Replay.candidates, Store.transitionsFrom, studio, paintersWay, way, wayIn]
  have ordered : Transition.inOrder [paintersWay] = .ok [paintersWay] := by
    simp [Transition.inOrder, Transition.checkId, paintersWay, way, named]
  have implied : ∀ situation, paintersWay.isImplied situation = true := fun _ => rfl
  rw [Replay.choice, candidates]
  cases holds <;>
    simp [Selection.choose, ordered, Selection.scan, implied, Replay.situation, evaluated]

theorem studio_picks (admitted : Condition.evaluate context paintersWay.conditions = .ok true) :
    Replay.Picks ⟨studio model, 1, context, blocked, name⟩ wayIn paintersWay := ⟨1, studio_choice admitted⟩

theorem studio_picksNone (refused : Condition.evaluate context paintersWay.conditions = .ok false) :
    Replay.PicksNone ⟨studio model, 1, context, blocked, name⟩ wayIn := ⟨1, studio_choice refused⟩

-- A dataset read once is read again from what is written of it, but for the
-- model of a last generation that has no time: it is written with its time only.
-- Every other user is carried to the same stage as before.
theorem immerse_saved (read : Store.decode v = .ok s) :
    Store.decode s.encode = .ok s.withoutUndatedModels ∧
    (s.withoutUndatedModels = s ↔ ∀ u ∈ s.users, u.Dated) ∧
    (∀ limit, s.withoutUndatedModels.userIds limit = s.userIds limit) ∧
    ∀ (e : Engine) user version, (∀ u, s.user? user = some u → u.Dated) →
      s.withoutUndatedModels.user? user = s.user? user ∧
        (e.immerse user version s.withoutUndatedModels).1 = (e.immerse user version s).1 := by
  refine ⟨Store.decode_encode (Store.decode_wellFormed read), Store.withoutUndatedModels_same,
    s.userIds_withoutUndatedModels, ?_⟩
  intro e user version dated
  have facts := Store.user_dated dated
  exact ⟨facts, immerse_congr (infer_congr rfl rfl facts)⟩

theorem immerse_saved_one_way :
    Store.decode (oneWay "ab" "b").encode = .ok (oneWay "ab" "b") ∧
    (oneWay "ab" "b").withoutUndatedModels = oneWay "ab" "b" := by
  have read : Store.decode (oneWay "ab" "b").encode = .ok (oneWay "ab" "b") := rfl
  have dated : ∀ u ∈ (oneWay "ab" "b").users, u.Dated := by
    simp [oneWay, UserFacts.Dated, walker]
  exact ⟨read, (immerse_saved read).2.1.mpr dated⟩

theorem immerse_saved_undated :
    Store.decode studioDataset = .ok (studio (.text "sdxl")) ∧
    Store.decode (studio (.text "sdxl")).encode = .ok (studio .null) ∧
    (standard.immerse "u" 1 (studio (.text "sdxl"))).1 = .ok (some ⟨"u", 1, wayIn, [wayOut], .terminal⟩) ∧
    (standard.immerse "u" 1 (studio .null)).1 = .ok (some ⟨"u", 1, wayIn, [], .noMatch⟩) := by
  refine ⟨rfl, rfl, ?_, ?_⟩
  · refine (immerse_some rfl rfl).mpr ⟨rfl, rfl, _, ⟨_, _, rfl, rfl, rfl, rfl⟩, ?_⟩
    refine ⟨.cons ⟨rfl, _, studio_picks (by rfl), rfl⟩ .nil, rfl, rfl, by decide, ?_, ?_, ?_, ?_⟩
    all_goals simp [Inference.final, Inference.steps, wayOut]
  · refine (immerse_some rfl rfl).mpr ⟨rfl, rfl, _, ⟨_, _, rfl, rfl, rfl, rfl⟩, ?_⟩
    refine ⟨.nil, rfl, rfl, by decide, ?_, ?_, ?_, fun _ => studio_picksNone (by rfl)⟩
    all_goals simp [Inference.final, Inference.steps, wayIn]

theorem immerseAll_wellFormed (wellFormed : s.WellFormed) (clock : ∀ n, (e.clock n).Readable)
    (returned : e.immerseAll choice limit s = (.ok total, after)) : after.WellFormed := by
  obtain ⟨_, users, _, rfl⟩ := immerseAll_records returned
  refine Store.setAssignments_wellFormed wellFormed ?_
  intro a member
  obtain ⟨turn, listed, record⟩ := List.mem_filterMap.mp member
  obtain ⟨readings, same⟩ := turns_engine listed
  rw [recordOf_entered record, same]
  exact clock _

theorem verify_saved (read : Store.decode v = .ok s) (dated : ∀ u ∈ s.users, u.Dated)
    (clock : ∀ n, (e.clock n).Readable)
    (returned : e.immerseAll choice limit s = (.ok total, after)) :
    ∃ loaded, Store.decode after.encode = .ok loaded ∧
      ∀ fingerprint, fingerprint = Fingerprint.ofAssignments (after.assignmentsOf (some total.versionId)) →
        (e.verify fingerprint choice limit loaded).1 = .ok (true, fingerprint) := by
  have wellFormed := Store.decode_wellFormed read
  have kept := immerseAll_wellFormed wellFormed clock returned
  have users : after.users = s.users := by
    obtain ⟨_, _, _, rfl⟩ := immerseAll_records returned
    rw [Store.setAssignments_frame]
    rfl
  have same : after.withoutUndatedModels = after := Store.withoutUndatedModels_same.mpr (users ▸ dated)
  refine ⟨after, (Store.decode_encode kept).trans (congrArg Except.ok same), ?_⟩
  rintro fingerprint rfl
  exact verify_again wellFormed.toKeyed returned kept.toKeyed rfl fun _ _ => rfl

end Engine
end Lifecycle
