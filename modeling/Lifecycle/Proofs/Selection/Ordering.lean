import Lifecycle.Proofs.Selection.Choice
import Mathlib.Data.List.Nodup

namespace Lifecycle

theorem mergeSort_arrival {α : Type} {le : α → α → Bool} {xs ys : List α}
    (trans : ∀ a b c, le a b → le b c → le a c) (total : ∀ a b, le a b || le b a)
    (apart : ∀ a ∈ xs, ∀ b ∈ xs, le a b → le b a → a = b) (perm : xs.Perm ys) :
    xs.mergeSort le = ys.mergeSort le := by
  have rearranged : (xs.mergeSort le).Perm (ys.mergeSort le) :=
    ((List.mergeSort_perm xs le).trans perm).trans (List.mergeSort_perm ys le).symm
  refine List.Perm.eq_of_pairwise ?_ (List.pairwise_mergeSort trans total xs)
    (List.pairwise_mergeSort trans total ys) rearranged
  intro a b left right ab ba
  exact apart a (List.mem_mergeSort.mp left) b (perm.mem_iff.mpr (List.mem_mergeSort.mp right)) ab ba

namespace Transition

theorem idAtMost_total (a b : String) : idAtMost a b || idAtMost b a := by
  unfold idAtMost
  cases idNumber? a with
  | none =>
    cases idNumber? b with
    | none => simpa using String.le_total a b
    | some n => rfl
  | some m =>
    cases idNumber? b with
    | none => rfl
    | some n =>
      rcases Nat.lt_trichotomy m n with less | same | greater
      · simp [less]
      · simpa [same] using String.le_total a b
      · simp [greater]

theorem idAtMost_trans (a b c : String) (ab : idAtMost a b) (bc : idAtMost b c) : idAtMost a c := by
  unfold idAtMost at *
  cases left : idNumber? a with
  | none =>
    cases middle : idNumber? b with
    | some n => simp [left, middle] at ab
    | none =>
      cases right : idNumber? c with
      | some k => simp [middle, right] at bc
      | none =>
        simp only [left, middle, right, decide_eq_true_eq] at ab bc ⊢
        exact String.le_trans ab bc
  | some m =>
    cases right : idNumber? c with
    | none => rfl
    | some k =>
      cases middle : idNumber? b with
      | none => simp [middle, right] at bc
      | some n =>
        simp only [left, middle, right, Bool.or_eq_true, Bool.and_eq_true, decide_eq_true_eq] at ab bc ⊢
        rcases ab with less | ⟨rfl, spelled⟩
        · rcases bc with further | ⟨rfl, _⟩
          · exact .inl (Nat.lt_trans less further)
          · exact .inl less
        · exact bc.imp_right (And.imp_right (String.le_trans spelled))

theorem idAtMost_antisymm (ab : idAtMost a b) (ba : idAtMost b a) : a = b := by
  unfold idAtMost at ab ba
  cases left : idNumber? a with
  | none =>
    cases right : idNumber? b with
    | some n => simp [left, right] at ab
    | none =>
      simp only [left, right, decide_eq_true_eq] at ab ba
      exact String.le_antisymm ab ba
  | some m =>
    cases right : idNumber? b with
    | none => simp [left, right] at ba
    | some n =>
      simp only [left, right, Bool.or_eq_true, Bool.and_eq_true, decide_eq_true_eq] at ab ba
      rcases ab with less | ⟨same, spelled⟩
      · rcases ba with greater | ⟨same, _⟩
        · exact absurd greater (Nat.lt_asymm less)
        · exact absurd less (same ▸ Nat.lt_irrefl _)
      · rcases ba with greater | ⟨_, back⟩
        · exact absurd greater (same ▸ Nat.lt_irrefl _)
        · exact String.le_antisymm spelled back

theorem isBefore_total (a b : Transition) : isBefore a b || isBefore b a := by
  unfold isBefore
  rcases Int.lt_trichotomy a.priority b.priority with less | same | greater
  · simp [less]
  · simpa [same] using idAtMost_total a.id b.id
  · simp [greater]

theorem isBefore_trans (a b c : Transition) (ab : isBefore a b) (bc : isBefore b c) : isBefore a c := by
  simp only [isBefore, Bool.or_eq_true, Bool.and_eq_true, decide_eq_true_eq] at *
  rcases ab with higher | ⟨level, ids⟩
  · rcases bc with further | ⟨level, _⟩
    · exact .inl (Int.lt_trans further higher)
    · exact .inl (level ▸ higher)
  · rcases bc with further | ⟨even, more⟩
    · exact .inl (level ▸ further)
    · exact .inr ⟨level.trans even, idAtMost_trans _ _ _ ids more⟩

theorem isBefore_antisymm {a b : Transition} (ab : isBefore a b) (ba : isBefore b a) : a.id = b.id := by
  simp only [isBefore, Bool.or_eq_true, Bool.and_eq_true, decide_eq_true_eq] at ab ba
  rcases ab with higher | ⟨level, ids⟩
  · rcases ba with lower | ⟨level, _⟩
    · exact absurd lower (Int.lt_asymm higher)
    · exact absurd higher (level ▸ Int.lt_irrefl _)
  · rcases ba with lower | ⟨_, back⟩
    · exact absurd lower (level ▸ Int.lt_irrefl _)
    · exact idAtMost_antisymm ids back

theorem inOrder_readable {ts : List Transition} (short : ∀ t ∈ ts, ¬ t.IsOverlong) :
    inOrder ts = .ok (ts.mergeSort isBefore) := by
  unfold inOrder
  cases checked : ts.forM checkId with
  | error f =>
    obtain ⟨t, member, overlong, _⟩ := checkIds_error checked
    exact absurd overlong (short t member)
  | ok => rfl

theorem inOrder_arrival {ts us : List Transition} (perm : ts.Perm us) (distinct : (ts.map (·.id)).Nodup)
    (short : ∀ t ∈ ts, ¬ t.IsOverlong) : inOrder ts = inOrder us := by
  have shortToo : ∀ t ∈ us, ¬ t.IsOverlong := fun t member => short t (perm.mem_iff.mpr member)
  rw [inOrder_readable short, inOrder_readable shortToo]
  congr 1
  apply mergeSort_arrival isBefore_trans isBefore_total _ perm
  intro a left b right ab ba
  exact List.inj_on_of_nodup_map distinct left right (isBefore_antisymm ab ba)

end Transition

theorem Selection.choose_arrival {ts us : List Transition} (perm : ts.Perm us) (distinct : (ts.map (·.id)).Nodup)
    (short : ∀ t ∈ ts, ¬ t.IsOverlong) (s : Situation) : choose s ts = choose s us := by
  unfold choose
  rw [Transition.inOrder_arrival perm distinct short]

end Lifecycle
