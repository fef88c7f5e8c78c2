import Lifecycle.Fingerprint
import Lifecycle.Proofs.Replay.Immersion
import Lifecycle.Proofs.Replay.Inference
import Lifecycle.Proofs.Store.Keyed

namespace Lifecycle
namespace Store

variable {s : Store}

def withAssignments (s : Store) (all : List Assignment) : Store := { s with assignments := all }

def setAssignments (s : Store) (records : List Assignment) : Store := records.foldl setAssignment s

theorem setAssignments_append (s : Store) (first later : List Assignment) :
    s.setAssignments (first ++ later) = (s.setAssignments first).setAssignments later := by
  unfold setAssignments
  exact List.foldl_append

theorem setAssignments_frame (s : Store) (records : List Assignment) :
    s.setAssignments records = s.withAssignments (s.setAssignments records).assignments := by
  induction records generalizing s with
  | nil => rfl
  | cons a rest ih => exact ih (s.setAssignment a)

theorem setAssignments_keyed (keyed : s.Keyed) (records : List Assignment) : (s.setAssignments records).Keyed := by
  induction records generalizing s with
  | nil => exact keyed
  | cons a rest ih => exact ih (setAssignment_keyed keyed a)

theorem setAssignments_same {t : Store} (same : s.assignments = t.assignments) (records : List Assignment) :
    (s.setAssignments records).assignments = (t.setAssignments records).assignments := by
  induction records generalizing s t with
  | nil => exact same
  | cons a rest ih =>
    apply ih
    unfold setAssignment
    rw [same]

theorem setAssignment_found (s : Store) (a : Assignment) (user : String) :
    (s.setAssignment a).assignment? user = if user = a.userId then some a else s.assignment? user := assign_found

theorem setAssignments_lookup {t : Store} (records : List Assignment)
    (same : s.assignment? user = t.assignment? user) :
    (s.setAssignments records).assignment? user = (t.setAssignments records).assignment? user := by
  induction records generalizing s t with
  | nil => exact same
  | cons a rest ih =>
    apply ih
    rw [setAssignment_found, setAssignment_found, same]

theorem setAssignments_covered {t : Store} (put : ∃ a ∈ records, a.userId = user) :
    (s.setAssignments records).assignment? user = (t.setAssignments records).assignment? user := by
  obtain ⟨a, member, rfl⟩ := put
  induction records generalizing s t with
  | nil => cases member
  | cons b rest ih =>
    rcases List.mem_cons.mp member with rfl | later
    · apply setAssignments_lookup (s := s.setAssignment a) (t := t.setAssignment a) rest
      rw [setAssignment_found, setAssignment_found, if_pos rfl, if_pos rfl]
    · exact ih later

theorem setAssignments_uncovered (others : ∀ a ∈ records, a.userId ≠ user) :
    (s.setAssignments records).assignment? user = s.assignment? user := by
  induction records generalizing s with
  | nil => rfl
  | cons a rest ih =>
    obtain ⟨first, later⟩ := List.forall_mem_cons.mp others
    have kept := ih (s := s.setAssignment a) later
    rw [setAssignment_found, if_neg first.symm] at kept
    exact kept

theorem setAssignments_found {record? : String → Option Assignment}
    (own : ∀ user a, record? user = some a → a.userId = user) (users : List String) (user : String) :
    (s.setAssignments (users.filterMap record?)).assignment? user =
      if user ∈ users then record? user <|> s.assignment? user else s.assignment? user := by
  induction users generalizing s with
  | nil => rfl
  | cons first rest ih =>
    cases found : record? first with
    | none =>
      rw [List.filterMap_cons_none found, ih]
      by_cases same : user = first
      · subst same
        by_cases again : user ∈ rest <;> simp [found]
      · by_cases again : user ∈ rest <;> simp [same, again]
    | some a =>
      have named := own first a found
      have step : s.setAssignments (a :: rest.filterMap record?) =
          (s.setAssignment a).setAssignments (rest.filterMap record?) := rfl
      rw [List.filterMap_cons_some found, step, ih, setAssignment_found, named]
      by_cases same : user = first
      · subst same
        by_cases again : user ∈ rest <;> simp [again, found]
      · by_cases again : user ∈ rest <;> simp [same, again]

theorem keyed_ext {t : Store} (keyed : s.Keyed) (others : t.Keyed)
    (same : ∀ user, s.assignment? user = t.assignment? user) : s.assignments = t.assignments :=
  ordered_ext keyed.assignments others.assignments same

end Store

namespace Engine

variable {e : Engine} {s : Store} {turns : List Turn}

theorem immerse_withAssignments (e : Engine) (s : Store) (user : String) (version : Int) (all : List Assignment) :
    (e.immerse user version (s.withAssignments all)).1 = (e.immerse user version s).1 :=
  immerse_congr rfl

theorem immerse_setAssignments (e : Engine) (s : Store) (user : String) (version : Int) (records : List Assignment) :
    (e.immerse user version (s.setAssignments records)).1 = (e.immerse user version s).1 := by
  rw [Store.setAssignments_frame]
  exact immerse_withAssignments e s user version _

theorem recordOf_setAssignments (s : Store) (version : Int) (records : List Assignment) :
    Turn.recordOf (s.setAssignments records) version = Turn.recordOf s version := by
  funext turn
  exact congrArg turn.engine.written (immerse_setAssignments turn.engine s turn.user version records)

theorem immerse_writes (e : Engine) (s : Store) (user : String) (version : Int) :
    e.immerse user version s =
      ((e.immerse user version s).1, s.setAssignments (e.recordOf s version user).toList) := by
  unfold recordOf immerse
  cases e.infer s user version with
  | error f => rfl
  | ok r? =>
    cases r? with
    | none => rfl
    | some r => cases e.reach .assign <;> rfl

def immerseInTurn (version : Int) : List Turn → Store → Except Fault Store
  | [], s => .ok s
  | turn :: rest, s =>
    match turn.engine.immerse turn.user version s with
    | (.error f, _) => .error f
    | (.ok _, s) => immerseInTurn version rest s

theorem immerseInTurn_writes (returned : immerseInTurn version turns s = .ok final) :
    final = s.setAssignments (turns.filterMap (Turn.recordOf s version)) := by
  induction turns generalizing s with
  | nil =>
    cases returned
    rfl
  | cons turn rest ih =>
    rw [immerseInTurn, immerse_writes] at returned
    cases answered : (turn.engine.immerse turn.user version s).1 with
    | error f =>
      rw [answered] at returned
      cases returned
    | ok r? =>
      rw [answered] at returned
      have written := ih returned
      rw [recordOf_setAssignments, ← Store.setAssignments_append] at written
      change final = s.setAssignments ((turn.recordOf s version).toList ++ _) at written
      rw [written]
      cases record : turn.recordOf s version with
      | none => simp [record]
      | some a => simp [record]

theorem count_version (counted : Summary.count total r? = .ok next) : next.versionId = total.versionId := by
  unfold Summary.count at counted
  split at counted
  · cases counted
    rfl
  · split at counted
    · cases counted
    · cases counted
      rfl

theorem immerseEach_writes (version : Int) (outcome : Turn → Except Fault (Option Inference)) (turns : List Turn)
    (total : Summary) :
    ∃ result records,
      (∀ s, (∀ turn : Turn, (turn.engine.immerse turn.user version s).1 = outcome turn) →
        immerseEach version turns total s = (result, s.setAssignments records)) ∧
      ∀ done, result = .ok done → done.versionId = total.versionId ∧
        records = turns.filterMap fun turn => turn.engine.written (outcome turn) := by
  induction turns generalizing total with
  | nil =>
    refine ⟨.ok total, [], fun _ _ => rfl, ?_⟩
    intro done ended
    cases ended
    exact ⟨rfl, rfl⟩
  | cons turn rest ih =>
    have first : ∀ s, (∀ turn : Turn, (turn.engine.immerse turn.user version s).1 = outcome turn) →
        turn.engine.immerse turn.user version s =
          (outcome turn, s.setAssignments (turn.engine.written (outcome turn)).toList) := by
      intro s alike
      rw [← alike turn]
      exact immerse_writes turn.engine s turn.user version
    cases answered : outcome turn with
    | error f =>
      refine ⟨.error f, [], ?_, fun _ ended => by cases ended⟩
      intro s alike
      rw [immerseEach, first s alike, answered]
      rfl
    | ok r? =>
      cases counted : Summary.count total r? with
      | error f =>
        refine ⟨.error f, (turn.engine.written (.ok r?)).toList, ?_, fun _ ended => by cases ended⟩
        intro s alike
        rw [immerseEach, first s alike, answered]
        simp only [counted]
      | ok next =>
        obtain ⟨result, records, runs, ends⟩ := ih next
        refine ⟨result, (turn.engine.written (.ok r?)).toList ++ records, ?_, ?_⟩
        · intro s alike
          rw [immerseEach, first s alike, answered]
          simp only [counted]
          rw [runs _ fun turn => (immerse_setAssignments turn.engine s turn.user version _).trans (alike turn),
            Store.setAssignments_append]
        · intro done ended
          obtain ⟨kept, rfl⟩ := ends done ended
          refine ⟨kept.trans (count_version counted), ?_⟩
          cases record : turn.engine.written (.ok r?) with
          | none => simp [answered, record]
          | some a => simp [answered, record]

theorem immerseAll_writes (e : Engine) (choice : Option Int) (limit : Json) (resolution : Except Fault Int)
    (batch : Except Fault (List String)) (outcome : Int → Turn → Except Fault (Option Inference)) :
    ∃ result records,
      (∀ s, e.resolveVersion s choice = resolution → e.batch s limit = batch →
        (∀ version turn, (turn.engine.immerse turn.user version s).1 = outcome version turn) →
        e.immerseAll choice limit s = (result, s.setAssignments records)) ∧
      ∀ total, result = .ok total → ∃ users, resolution = .ok total.versionId ∧ batch = .ok users ∧
        records = (e.turns users).filterMap fun turn => turn.engine.written (outcome total.versionId turn) := by
  cases resolution with
  | error f =>
    refine ⟨.error f, [], ?_, fun _ ended => by cases ended⟩
    intro s resolved _ _
    rw [immerseAll, resolved]
    rfl
  | ok version =>
    cases batch with
    | error f =>
      refine ⟨.error f, [], ?_, fun _ ended => by cases ended⟩
      intro s resolved listed _
      simp only [immerseAll, resolved, listed]
      rfl
    | ok users =>
      obtain ⟨result, records, runs, ends⟩ :=
        immerseEach_writes version (outcome version) (e.turns users) ⟨version, 0, 0, []⟩
      cases result with
      | error f =>
        refine ⟨.error f, records, ?_, fun _ ended => by cases ended⟩
        intro s resolved listed alike
        simp only [immerseAll, resolved, listed, runs s (alike version)]
      | ok done =>
        obtain ⟨kept, put⟩ := ends done rfl
        cases sorted : done.byStage.inOrder with
        | error f =>
          refine ⟨.error f, records, ?_, fun _ ended => by cases ended⟩
          intro s resolved listed alike
          simp only [immerseAll, resolved, listed, runs s (alike version), sorted]
        | ok byStage =>
          refine ⟨.ok { done with byStage }, records, ?_, ?_⟩
          · intro s resolved listed alike
            simp only [immerseAll, resolved, listed, runs s (alike version), sorted]
          · intro total ended
            cases ended
            exact ⟨users, by rw [kept], rfl, by rw [put, kept]⟩

def Processes (e : Engine) (s : Store) (choice : Option Int) (limit : Json) (user : String) : Prop :=
  ∃ version users, e.resolveVersion s choice = .ok version ∧ e.batch s limit = .ok users ∧
    ∃ turn ∈ e.turns users, turn.user = user ∧ (turn.recordOf s version).isSome = true

theorem immerseAll_frame (e : Engine) (s : Store) (choice : Option Int) (limit : Json) :
    ∃ result records, (∀ all, e.immerseAll choice limit (s.withAssignments all) =
        (result, (s.withAssignments all).setAssignments records)) ∧
      ∀ total, result = .ok total → e.resolveVersion s choice = .ok total.versionId ∧
        ∃ users, e.batch s limit = .ok users ∧
          records = (e.turns users).filterMap (Turn.recordOf s total.versionId) := by
  obtain ⟨result, records, runs, ends⟩ := immerseAll_writes e choice limit (e.resolveVersion s choice)
    (e.batch s limit) fun version turn => (turn.engine.immerse turn.user version s).1
  refine ⟨result, records, ?_, ?_⟩
  · intro all
    exact runs _ rfl rfl fun version turn => immerse_withAssignments turn.engine s turn.user version all
  · intro total ended
    obtain ⟨users, resolved, listed, put⟩ := ends total ended
    exact ⟨resolved, users, listed, put⟩

theorem immerseAll_records (returned : e.immerseAll choice limit s = (.ok total, after)) :
    e.resolveVersion s choice = .ok total.versionId ∧ ∃ users, e.batch s limit = .ok users ∧
      after = s.setAssignments ((e.turns users).filterMap (Turn.recordOf s total.versionId)) := by
  obtain ⟨result, records, runs, ends⟩ := immerseAll_frame e s choice limit
  have first : (.ok total, after) = (result, s.setAssignments records) := returned.symm.trans (runs s.assignments)
  obtain ⟨rfl, rfl⟩ := Prod.mk.inj first
  obtain ⟨resolved, users, listed, rfl⟩ := ends total rfl
  exact ⟨resolved, users, listed, rfl⟩

theorem verify_again (keyed : s.Keyed) (returned : e.immerseAll choice limit s = (.ok total, after))
    {other : Store} (others : other.Keyed) (frame : other = after.withAssignments other.assignments)
    (agree : ∀ user, ¬ e.Processes s choice limit user → other.assignment? user = after.assignment? user) :
    (e.verify (Fingerprint.ofAssignments (after.assignmentsOf (some total.versionId))) choice limit other).1 =
      .ok (true, Fingerprint.ofAssignments (after.assignmentsOf (some total.versionId))) := by
  obtain ⟨result, records, runs, ends⟩ := immerseAll_frame e s choice limit
  have first : (.ok total, after) = (result, s.setAssignments records) := returned.symm.trans (runs s.assignments)
  obtain ⟨rfl, rfl⟩ := Prod.mk.inj first
  obtain ⟨resolved, users, listed, rfl⟩ := ends total rfl
  have base : other = s.withAssignments other.assignments := by
    rw [Store.setAssignments_frame] at frame
    exact frame
  have again : e.immerseAll choice limit other =
      (.ok total, other.setAssignments ((e.turns users).filterMap (Turn.recordOf s total.versionId))) := by
    rw [base]
    exact runs other.assignments
  have same : (other.setAssignments ((e.turns users).filterMap (Turn.recordOf s total.versionId))).assignments =
      (s.setAssignments ((e.turns users).filterMap (Turn.recordOf s total.versionId))).assignments := by
    apply Store.keyed_ext (Store.setAssignments_keyed others _) (Store.setAssignments_keyed keyed _)
    intro user
    by_cases put : ∃ a ∈ (e.turns users).filterMap (Turn.recordOf s total.versionId), a.userId = user
    · exact Store.setAssignments_covered put
    · have others : ∀ a ∈ (e.turns users).filterMap (Turn.recordOf s total.versionId), a.userId ≠ user :=
        fun a member its => put ⟨a, member, its⟩
      have unprocessed : ¬ e.Processes s choice limit user := by
        rintro ⟨version, named, chosen, batched, turn, member, rfl, processed⟩
        cases chosen.symm.trans resolved
        cases batched.symm.trans listed
        obtain ⟨a, record⟩ := Option.isSome_iff_exists.mp processed
        exact put ⟨a, List.mem_filterMap.mpr ⟨turn, member, record⟩, recordOf_user record⟩
      rw [Store.setAssignments_uncovered others]
      exact agree user unprocessed
  unfold verify
  rw [again]
  simp [Store.assignmentsOf, same]

theorem immerse_idempotent (keyed : s.Keyed) (pinned : e.Pinned) :
    (∀ version user, e.immerse user version s =
      ((e.immerse user version s).1, s.setAssignments (e.recordOf s version user).toList)) ∧
    (∀ version users final, immerseInTurn version (e.turns users) s = .ok final →
      final = s.withAssignments final.assignments ∧ final.Keyed ∧
      ∀ user, final.assignment? user =
        if user ∈ users then e.recordOf s version user <|> s.assignment? user else s.assignment? user) ∧
    (∀ choice limit, ∃ result records, ∀ all, e.immerseAll choice limit (s.withAssignments all) =
      (result, (s.withAssignments all).setAssignments records)) ∧
    ∀ choice limit total after, e.immerseAll choice limit s = (.ok total, after) →
      e.resolveVersion s choice = .ok total.versionId ∧ after.Keyed ∧
      ∀ fingerprint, fingerprint = Fingerprint.ofAssignments (after.assignmentsOf (some total.versionId)) →
        (e.verify fingerprint choice limit after).1 = .ok (true, fingerprint) ∧
        ∀ other : Store, other.Keyed → other = after.withAssignments other.assignments →
          (∀ user, ¬ e.Processes s choice limit user → other.assignment? user = after.assignment? user) →
          (e.verify fingerprint choice limit other).1 = .ok (true, fingerprint) := by
  refine ⟨fun version user => immerse_writes e s user version, ?_, ?_, ?_⟩
  · intro version users final returned
    have written := immerseInTurn_writes returned
    rw [turns_records pinned] at written
    subst written
    refine ⟨Store.setAssignments_frame s _, Store.setAssignments_keyed keyed _, ?_⟩
    exact Store.setAssignments_found (fun _ _ => recordOf_user) users
  · intro choice limit
    obtain ⟨result, records, runs, _⟩ := immerseAll_frame e s choice limit
    exact ⟨result, records, runs⟩
  · intro choice limit total after returned
    obtain ⟨result, records, runs, ends⟩ := immerseAll_frame e s choice limit
    have first : (.ok total, after) = (result, s.setAssignments records) := returned.symm.trans (runs s.assignments)
    obtain ⟨ended, put⟩ := Prod.mk.inj first
    have afterKeyed : after.Keyed := put ▸ Store.setAssignments_keyed keyed records
    refine ⟨(ends total ended.symm).1, afterKeyed, ?_⟩
    rintro fingerprint rfl
    refine ⟨verify_again keyed returned afterKeyed rfl fun _ _ => rfl, ?_⟩
    intro other others frame agree
    exact verify_again keyed returned others frame agree

theorem standard_pinned : standard.Pinned := fun _ => rfl

theorem oneWay_keyed : (oneWay "ab" "b").Keyed := ⟨.nil, by decide, by decide, .nil⟩

theorem walker_batch (only : s.users = [walker]) : standard.batch s .null = .ok ["u"] := by
  simp [batch, reach, standard, pinned, Store.userIds, only, Json.toBound?, Json.kind, Config.standard, takeBound,
    walker, bind, Except.bind, pure, Except.pure]

theorem oneWay_immersed : (standard.immerse "u" 1 (oneWay "ab" "b")).1 =
    .ok (some ⟨"u", 1, wayIn, [wayOut], .terminal⟩) := by
  have named : Transition.idNumber? "ab" = none := by decide
  refine (immerse_some rfl rfl).mpr ⟨rfl, rfl, _, ⟨walker, _, rfl, rfl, rfl, rfl⟩, ?_⟩
  refine ⟨.cons ⟨rfl, _, oneWay_picks named, rfl⟩ .nil, rfl, rfl, by decide, ?_, ?_, ?_, ?_⟩
  all_goals simp [Inference.final, Inference.steps, wayOut]

theorem immerse_idempotent_one_way : (oneWay "ab" "b").Keyed ∧ standard.Pinned ∧
    ∃ total after fingerprint, standard.immerseAll (some 1) .null (oneWay "ab" "b") = (.ok total, after) ∧
      after.assignments = [⟨"u", "b", 1, ⟨0, 0⟩⟩] ∧
      fingerprint = Fingerprint.ofAssignments (after.assignmentsOf (some total.versionId)) ∧
      (standard.verify fingerprint (some 1) .null (after.withAssignments [])).1 = .ok (true, fingerprint) := by
  have listed : standard.batch (oneWay "ab" "b") .null = .ok ["u"] := walker_batch rfl
  have returned : standard.immerseAll (some 1) .null (oneWay "ab" "b") =
      (.ok ⟨1, 1, 0, [(wayOut, 1)]⟩, (oneWay "ab" "b").setAssignment ⟨"u", "b", 1, ⟨0, 0⟩⟩) := by
    simp only [immerseAll, resolveVersion, listed, turns_single, immerseEach]
    rw [immerse_writes, recordOf, oneWay_immersed]
    rfl
  refine ⟨oneWay_keyed, standard_pinned, _, _, _, returned, rfl, rfl, ?_⟩
  obtain ⟨_, _, again⟩ := (immerse_idempotent oneWay_keyed standard_pinned).2.2.2 (some 1) .null _ _ returned
  refine (again _ rfl).2 _ oneWay_keyed rfl ?_
  intro user unprocessed
  have other : user ≠ "u" := by
    rintro rfl
    refine unprocessed ⟨1, ["u"], rfl, listed, ⟨standard, "u"⟩, ?_, rfl, ?_⟩
    · rw [turns_single]
      exact List.mem_singleton_self _
    · rw [Turn.recordOf, recordOf, oneWay_immersed]
      rfl
  simp [Store.withAssignments, Store.setAssignment, Store.assignment?, Store.assign, oneWay, Ne.symm other]

end Engine
end Lifecycle
