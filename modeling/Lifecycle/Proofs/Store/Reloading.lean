import Lifecycle.Proofs.Json.Document
import Lifecycle.Proofs.Record.Bounds
import Lifecycle.Proofs.Store.RoundTrip

namespace Lifecycle

namespace Json

-- A value as it is read from its saved text, in which keys stand in order.
def resaved (v : Json) : Json := v.sorted.reread

@[simp]
theorem resaved_int (i : Int) : resaved (.int i) = .int i := by
  simp [resaved, sorted, reread]

end Json

namespace Store

variable {s : Store} {v : Json}

theorem bounded_encode : s.encode.Bounded ↔
    (∀ v ∈ s.versions, v.encode.Bounded) ∧ (∀ g ∈ s.stages, g.encode.Bounded) ∧
      (∀ t ∈ s.transitions, t.encode.Bounded) ∧ (∀ u ∈ s.users, u.encode.Bounded) ∧
        ∀ a ∈ s.assignments, a.encode.Bounded := by
  simp [encode, Json.bounded_list]

theorem decodeAll_bounded {α : Type} {read : Json → Except Fault α} {write : α → Json} {all : List α}
    (bounded : v.Bounded) (each : ∀ x a, x.Bounded → read x = .ok a → (write a).Bounded)
    (done : decodeAll read v key = .ok all) : ∀ a ∈ all, (write a).Bounded := by
  unfold decodeAll at done
  obtain ⟨found, given, done⟩ := bind_ok.mp done
  obtain ⟨xs, listed, done⟩ := bind_ok.mp done
  have nothing : (Json.list []).Bounded := Json.bounded_list.mpr nofun
  have written := Json.bounded_each (Json.items_bounded (Json.fieldOr_bounded bounded nothing given) listed) each done
  intro a member
  exact Json.bounded_list.mp written _ (List.mem_map_of_mem member)

theorem decode_bounded (bounded : v.Bounded) (decoded : decode v = .ok s) : s.encode.Bounded := by
  unfold decode at decoded
  obtain ⟨versions, named, decoded⟩ := bind_ok.mp decoded
  obtain ⟨stages, drawn, decoded⟩ := bind_ok.mp decoded
  obtain ⟨transitions, moved, decoded⟩ := bind_ok.mp decoded
  obtain ⟨users, met, decoded⟩ := bind_ok.mp decoded
  obtain ⟨assignments, placed, decoded⟩ := bind_ok.mp decoded
  cases decoded
  apply bounded_encode.mpr
  refine ⟨?_, ?_, ?_, ?_, ?_⟩
  · intro v member
    exact decodeAll_bounded bounded (fun _ _ => Version.decode_bounded) named v (mem_collect member)
  · intro g member
    exact decodeAll_bounded bounded (fun _ _ => Stage.decode_bounded) drawn g (mem_collect member)
  · exact decodeAll_bounded bounded (fun _ _ => Transition.decode_bounded) moved
  · intro u member
    exact decodeAll_bounded bounded (fun _ _ => UserFacts.decode_bounded) met u (mem_collect member)
  · intro a member
    rcases mem_assignAll member with none | given
    · cases none
    · exact decodeAll_bounded bounded
        (fun _ _ bounded read => Assignment.encode_bounded (Assignment.decode_bounded bounded read)) placed a given

end Store
end Lifecycle
