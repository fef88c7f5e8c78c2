import Lifecycle.Proofs.Record.Action
import Lifecycle.Record.Graph

namespace Lifecycle

theorem Version.decode_encode (v : Version) : decode v.encode = .ok v := by
  simp [decode, encode]

theorem Stage.decode_encode (s : Stage) : decode s.encode = .ok s := by
  simp [decode, encode]

namespace Condition

theorem checkGroup_natural (id : Nat) : checkGroup (id : Int) = .ok id := by
  simp [checkGroup]

theorem decode_encode (c : Condition) : decode c.encode = .ok c := by
  obtain ⟨comparison, group⟩ := c
  cases group with
  | zero =>
    have checked : checkGroup 0 = .ok 0 := rfl
    simp [decode, encode, Json.kind, Json.truthy, checked]
  | succ group =>
    have some : ¬((group : Int) + 1 = 0) := by omega
    have checked : checkGroup ((group : Int) + 1) = .ok (group + 1) := checkGroup_natural (group + 1)
    simp [decode, encode, Json.kind, Json.truthy, some, checked]

end Condition

theorem Trigger.ofJson_name (trigger : Trigger) : ofJson? (.text trigger.name) = some trigger := by
  cases trigger <;> rfl

namespace Transition

structure WellFormed (t : Transition) : Prop where
  event : t.event.truthy ∨ t.event = .null
  actions : ∀ a ∈ t.actions, a.payload.WellFormed

theorem decode_wellFormed {t : Transition} (decoded : decode v = .ok t) : t.WellFormed := by
  unfold decode at decoded
  obtain ⟨timeout, _, decoded⟩ := bind_ok.mp decoded
  obtain ⟨id, _, decoded⟩ := bind_ok.mp decoded
  obtain ⟨source, _, decoded⟩ := bind_ok.mp decoded
  obtain ⟨target, _, decoded⟩ := bind_ok.mp decoded
  obtain ⟨_, _, decoded⟩ := bind_ok.mp decoded
  obtain ⟨version, _, decoded⟩ := bind_ok.mp decoded
  obtain ⟨trigger, _, decoded⟩ := bind_ok.mp decoded
  obtain ⟨event, _, decoded⟩ := bind_ok.mp decoded
  obtain ⟨minutes, _, decoded⟩ := branch_ok decoded
  obtain ⟨_, _, decoded⟩ := bind_ok.mp decoded
  obtain ⟨priority, _, decoded⟩ := bind_ok.mp decoded
  obtain ⟨_, _, decoded⟩ := bind_ok.mp decoded
  obtain ⟨_, _, decoded⟩ := bind_ok.mp decoded
  obtain ⟨conditions, _, decoded⟩ := bind_ok.mp decoded
  obtain ⟨_, _, decoded⟩ := bind_ok.mp decoded
  obtain ⟨_, _, decoded⟩ := bind_ok.mp decoded
  obtain ⟨actions, acted, decoded⟩ := bind_ok.mp decoded
  split at decoded
  · cases decoded
  · cases decoded
    exact ⟨Json.truthy_or_null event, mapM_all (fun _ _ => Action.decode_wellFormed) acted⟩

theorem decode_encode {t : Transition} (wellFormed : t.WellFormed) : decode t.encode = .ok t := by
  have named := Json.truthy_kept wellFormed.event
  have guarded : (t.conditions.map Condition.encode).mapM Condition.decode = .ok t.conditions :=
    mapM_restored fun c _ => Condition.decode_encode c
  have acting : (t.actions.map Action.encode).mapM Action.decode = .ok t.actions :=
    mapM_restored fun a member => Action.decode_encode (wellFormed.actions a member)
  obtain ⟨id, source, target, version, trigger, event, minutes, priority, conditions, actions⟩ := t
  cases minutes with
  | none => simp [decode, encode, Json.ofOption, Json.kind, Trigger.ofJson_name, named, guarded, acting]
  | some n => simp [decode, encode, Json.ofOption, Json.kind, Trigger.ofJson_name, named, guarded, acting]

-- Reading settles a record: what it gives is what passes the checks, and once written
-- that is read as it was, under the name that it was read under where it is a payload.
theorem decode_settled :
    (∀ t : Transition, (∃ v, decode v = .ok t) ↔ t.WellFormed) ∧
    (∀ v t, decode v = .ok t → decode t.encode = .ok t) ∧
    (∀ name p, (∃ v, Payload.decode name v = .ok p) ↔ name = .text p.type.name ∧ p.WellFormed) ∧
    ∀ name v p, Payload.decode name v = .ok p → Payload.decode name p.encode = .ok p := by
  refine ⟨?_, ?_, ?_, ?_⟩
  · intro t
    constructor
    · rintro ⟨v, decoded⟩
      exact decode_wellFormed decoded
    · intro wellFormed
      exact ⟨t.encode, decode_encode wellFormed⟩
  · intro v t decoded
    exact decode_encode (decode_wellFormed decoded)
  · intro name p
    constructor
    · rintro ⟨v, decoded⟩
      exact Payload.decode_sound decoded
    · rintro ⟨rfl, wellFormed⟩
      exact ⟨p.encode, Payload.decode_encode wellFormed⟩
  · intro name v p decoded
    obtain ⟨rfl, wellFormed⟩ := Payload.decode_sound decoded
    exact Payload.decode_encode wellFormed

def sparse : Json := .record [
  ("id", .int 7), ("fromStateId", .text "a"), ("toStateId", .text "b"), ("versionId", .text "1"),
  ("triggerEvent", .text ""),
  ("conditions", .list [.record [("field", .text "credits"), ("operator", .text "EXISTS"), ("value", .null)]]),
  ("actions", .list [.record [("type", .text "SEND_MESSAGE"), ("config", .record [
    ("packageId", .text "p"), ("includeOffer", .int 0), ("burnableBonus", .record [("amount", .bool true)])])]])]

def filled : Transition where
  id := "7"
  source := "a"
  target := "b"
  versionId := 1
  trigger := .event
  event := .null
  timeoutMinutes := none
  priority := 0
  conditions := [⟨⟨.text "credits", .text "EXISTS", ""⟩, 0⟩]
  actions := [⟨.message "" .null none (some ⟨1, 24, none, none⟩), 0⟩]

theorem decode_settled_sparse : decode sparse = .ok filled ∧ decode filled.encode = .ok filled ∧
    Payload.decode (.text "TAG_USER") (.record [("tag", .int 7)]) = .ok (.tag "7") ∧
    Payload.decode (.text "TAG_USER") (.record [("tag", .text "7")]) = .ok (.tag "7") := by
  obtain ⟨_, transitions, _, payloads⟩ := decode_settled
  have read : decode sparse = .ok filled := by rfl
  have tagged : Payload.decode (.text "TAG_USER") (.record [("tag", .int 7)]) = .ok (.tag "7") := by rfl
  exact ⟨read, transitions sparse filled read, tagged, payloads _ _ _ tagged⟩

end Transition
end Lifecycle
