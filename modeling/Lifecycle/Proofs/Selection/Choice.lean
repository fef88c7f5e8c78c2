import Lifecycle.Selection

namespace Lifecycle

def Transition.IsOverlong (t : Transition) : Prop :=
  (idNumber? t.id).isSome = true ∧ Numeral.digitLimit < t.id.length

def Transition.IsEligible (s : Situation) (t : Transition) : Prop :=
  t.isImplied s = true ∧ Condition.evaluate s.context t.conditions = .ok true

theorem Context.resolve_misuse (failed : resolve ctx field = .error f) : ∃ m, f = .misuse m := by
  unfold resolve at failed
  split at failed
  · cases failed
  · split at failed
    · cases failed
    · cases failed
      exact ⟨_, rfl⟩

theorem Relation.compare_misuse (failed : compare current operator expected = .error f) :
    ∃ m, f = .misuse m := by
  unfold compare at failed
  split at failed
  · cases failed
  · split at failed
    · cases failed
    · cases failed
      exact ⟨_, rfl⟩

namespace Condition

theorem check_misuse (failed : check ctx c = .error f) : ∃ m, f = .misuse m := by
  unfold check at failed
  split at failed
  · rename_i error resolved
    cases failed
    exact Context.resolve_misuse resolved
  · exact Relation.compare_misuse failed

theorem allHold_misuse (failed : allHold ctx cs = .error f) : ∃ m, f = .misuse m := by
  induction cs with
  | nil => cases failed
  | cons c rest ih =>
    simp only [allHold] at failed
    split at failed
    · rename_i checked
      cases failed
      exact check_misuse checked
    · cases failed
    · exact ih failed

theorem anyHolds_misuse (failed : anyHolds ctx gs = .error f) : ∃ m, f = .misuse m := by
  induction gs with
  | nil => cases failed
  | cons g rest ih =>
    simp only [anyHolds] at failed
    split at failed
    · rename_i checked
      cases failed
      exact allHold_misuse checked
    · cases failed
    · exact ih failed

theorem evaluate_misuse (failed : evaluate ctx cs = .error f) : ∃ m, f = .misuse m := by
  unfold evaluate at failed
  split at failed
  · cases failed
  · exact anyHolds_misuse failed

end Condition

namespace Selection

theorem scan_cases (scanned : scan s looked (t :: rest) = .ok chosen) :
    t.IsEligible s ∧ chosen = ⟨some t, looked + 1⟩ ∨
      ¬t.IsEligible s ∧ scan s (looked + 1) rest = .ok chosen := by
  rw [scan] at scanned
  split at scanned
  · rename_i implied
    split at scanned
    · cases scanned
    · rename_i holds
      cases scanned
      exact .inl ⟨⟨implied, holds⟩, rfl⟩
    · rename_i fails
      refine .inr ⟨fun ⟨_, holds⟩ => ?_, scanned⟩
      rw [fails] at holds
      cases holds
  · rename_i unimplied
    exact .inr ⟨fun eligible => unimplied eligible.1, scanned⟩

theorem scan_none (scanned : scan s looked ts = .ok ⟨none, total⟩) :
    (∀ t ∈ ts, ¬t.IsEligible s) ∧ total = looked + ts.length := by
  induction ts generalizing looked with
  | nil =>
    cases scanned
    simp
  | cons first rest ih =>
    rcases scan_cases scanned with ⟨_, found⟩ | ⟨unfit, later⟩
    · cases found
    · obtain ⟨others, rfl⟩ := ih later
      refine ⟨by simpa [unfit] using others, ?_⟩
      rw [List.length_cons]
      omega

theorem scan_some (scanned : scan s looked ts = .ok ⟨some t, total⟩) : ∃ before after,
    ts = before ++ t :: after ∧ t.IsEligible s ∧ (∀ u ∈ before, ¬u.IsEligible s) ∧
      total = looked + before.length + 1 := by
  induction ts generalizing looked with
  | nil => cases scanned
  | cons first rest ih =>
    rcases scan_cases scanned with ⟨eligible, found⟩ | ⟨unfit, later⟩
    · cases found
      exact ⟨[], rest, rfl, eligible, by simp, rfl⟩
    · obtain ⟨before, after, rfl, eligible, others, rfl⟩ := ih later
      refine ⟨first :: before, after, rfl, eligible, by simpa [unfit] using others, ?_⟩
      rw [List.length_cons]
      omega

theorem scan_misuse (failed : scan s looked ts = .error f) : ∃ m, f = .misuse m := by
  induction ts generalizing looked with
  | nil => cases failed
  | cons first rest ih =>
    simp only [scan] at failed
    split at failed
    · split at failed
      · rename_i evaluated
        cases failed
        exact Condition.evaluate_misuse evaluated
      · cases failed
      · exact ih failed
    · exact ih failed

end Selection

namespace Transition

theorem checkId_error (failed : checkId t = .error f) :
    t.IsOverlong ∧ f = .numeral (.tooManyDigits t.id.length) := by
  unfold checkId at failed
  split at failed
  · rename_i long
    cases failed
    exact ⟨by simpa [IsOverlong] using long, rfl⟩
  · cases failed

theorem checkId_overlong (long : t.IsOverlong) : checkId t = .error (.numeral (.tooManyDigits t.id.length)) := by
  simp [checkId, long.1, long.2]

theorem checkIds_error {ts : List Transition} (failed : ts.forM checkId = .error f) :
    ∃ t ∈ ts, t.IsOverlong ∧ f = .numeral (.tooManyDigits t.id.length) := by
  induction ts with
  | nil => cases failed
  | cons t rest ih =>
    rw [List.forM] at failed
    cases checked : checkId t with
    | error g =>
      rw [checked] at failed
      cases failed
      exact ⟨t, List.mem_cons_self, checkId_error checked⟩
    | ok =>
      rw [checked] at failed
      obtain ⟨u, member, facts⟩ := ih failed
      exact ⟨u, List.mem_cons_of_mem _ member, facts⟩

theorem checkIds_overlong {ts : List Transition} (member : t ∈ ts) (long : t.IsOverlong) :
    ts.forM checkId ≠ .ok () := by
  induction ts with
  | nil => cases member
  | cons first rest ih =>
    rw [List.forM]
    intro passed
    cases checked : checkId first with
    | error f =>
      rw [checked] at passed
      cases passed
    | ok =>
      rw [checked] at passed
      rcases List.mem_cons.mp member with rfl | later
      · rw [checkId_overlong long] at checked
        cases checked
      · exact ih later passed

theorem inOrder_perm (sorted : inOrder ts = .ok ordered) : ordered.Perm ts := by
  unfold inOrder at sorted
  cases checked : ts.forM checkId with
  | error f =>
    rw [checked] at sorted
    cases sorted
  | ok =>
    rw [checked] at sorted
    cases sorted
    exact List.mergeSort_perm ts isBefore

theorem inOrder_error (failed : inOrder ts = .error f) :
    ∃ t ∈ ts, t.IsOverlong ∧ f = .numeral (.tooManyDigits t.id.length) := by
  unfold inOrder at failed
  cases checked : ts.forM checkId with
  | error g =>
    rw [checked] at failed
    cases failed
    exact checkIds_error checked
  | ok =>
    rw [checked] at failed
    cases failed

theorem inOrder_overlong (member : t ∈ ts) (long : t.IsOverlong) :
    ∃ u ∈ ts, u.IsOverlong ∧ inOrder ts = .error (.numeral (.tooManyDigits u.id.length)) := by
  cases checked : ts.forM checkId with
  | error f =>
    obtain ⟨u, present, overlong, rfl⟩ := checkIds_error checked
    refine ⟨u, present, overlong, ?_⟩
    rw [inOrder, checked]
    rfl
  | ok => exact absurd checked (checkIds_overlong member long)

end Transition

namespace Selection

theorem choose_picked (chosen : choose s ts = .ok ⟨some t, total⟩) :
    t ∈ ts ∧ t.isImplied s = true ∧ Condition.evaluate s.context t.conditions = .ok true := by
  unfold choose at chosen
  split at chosen
  · cases chosen
  · rename_i ordered sorted
    obtain ⟨before, after, rfl, eligible, _⟩ := scan_some chosen
    exact ⟨(Transition.inOrder_perm sorted).mem_iff.mp (by simp), eligible⟩

theorem choose_error (failed : choose s ts = .error f) :
    (∃ t ∈ ts, t.IsOverlong ∧ f = .numeral (.tooManyDigits t.id.length)) ∨ ∃ m, f = .misuse m := by
  unfold choose at failed
  split at failed
  · rename_i error unsorted
    cases failed
    exact .inl (Transition.inOrder_error unsorted)
  · exact .inr (scan_misuse failed)

theorem choose_overlong (member : t ∈ ts) (long : t.IsOverlong) :
    ∃ f, choose s ts = .error f ∧ f.family = .badValue := by
  obtain ⟨u, _, _, unsorted⟩ := Transition.inOrder_overlong member long
  exact ⟨_, by rw [choose, unsorted], rfl⟩

theorem choose_badValue : (∃ f, choose s ts = .error f ∧ f.family = .badValue) ↔ ∃ t ∈ ts, t.IsOverlong := by
  constructor
  · rintro ⟨f, failed, value⟩
    rcases choose_error failed with ⟨t, member, long, _⟩ | ⟨m, rfl⟩
    · exact ⟨t, member, long⟩
    · cases value
  · rintro ⟨t, member, long⟩
    exact choose_overlong member long

end Selection
end Lifecycle
