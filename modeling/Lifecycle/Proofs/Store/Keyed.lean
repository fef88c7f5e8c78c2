import Lifecycle.Store
import Mathlib.Data.List.Nodup

namespace Lifecycle

section
variable {α κ : Type} [DecidableEq κ] {key : α → κ} {records : List α}

theorem put_new (new : key a ∉ records.map key) : put key records a = records ++ [a] := by
  have absent : records.any (key · = key a) = false := by
    simpa [List.any_eq_false] using new
  simp [put, absent]

theorem put_known (known : key a ∈ records.map key) : (put key records a).map key = records.map key := by
  have present : records.any (key · = key a) = true := by
    simpa [List.any_eq_true] using known
  rw [put, if_pos present, List.map_map]
  apply List.map_congr_left
  intro b _
  by_cases same : key b = key a <;> simp [same]

theorem put_nodup (distinct : (records.map key).Nodup) : ((put key records a).map key).Nodup := by
  by_cases known : key a ∈ records.map key
  · rw [put_known known]
    exact distinct
  · rw [put_new known, List.map_append]
    exact List.nodup_append.mpr ⟨distinct, by simp, by simpa using known⟩

theorem mem_put {a b : α} : b ∈ put key records a ↔ b = a ∨ b ∈ records ∧ key b ≠ key a := by
  unfold put
  split
  · rename_i present
    obtain ⟨c, held, same⟩ := List.any_eq_true.mp present
    rw [List.mem_map]
    constructor
    · rintro ⟨c, held, rfl⟩
      by_cases same : key c = key a
      · exact .inl (if_pos same)
      · rw [if_neg same]
        exact .inr ⟨held, same⟩
    · rintro (rfl | ⟨held, other⟩)
      · exact ⟨c, held, if_pos (of_decide_eq_true same)⟩
      · exact ⟨b, held, if_neg other⟩
  · rename_i absent
    have apart : ∀ c ∈ records, key c ≠ key a := by simpa using absent
    rw [List.mem_append, List.mem_singleton]
    constructor
    · rintro (held | last)
      · exact .inr ⟨held, apart b held⟩
      · exact .inl last
    · rintro (last | ⟨held, _⟩)
      · exact .inr last
      · exact .inl held

theorem mem_collect (member : a ∈ collect key records) : a ∈ records := by
  have kept : ∀ held : List α, a ∈ records.foldl (put key) held → a ∈ held ∨ a ∈ records := by
    clear member
    induction records with
    | nil => exact fun _ member => .inl member
    | cons b rest ih =>
      intro held member
      rcases ih _ member with put | later
      · rcases mem_put.mp put with rfl | ⟨held, _⟩
        · exact .inr List.mem_cons_self
        · exact .inl held
      · exact .inr (List.mem_cons_of_mem _ later)
  exact (kept [] member).resolve_left List.not_mem_nil

theorem collect_nodup (records : List α) : ((collect key records).map key).Nodup := by
  have kept : ∀ held : List α, (held.map key).Nodup → ((records.foldl (put key) held).map key).Nodup := by
    induction records with
    | nil => exact fun _ distinct => distinct
    | cons a rest ih => exact fun held distinct => ih _ (put_nodup distinct)
  exact kept [] List.nodup_nil

theorem collect_distinct (distinct : (records.map key).Nodup) : collect key records = records := by
  have grown : ∀ held : List α, ((held ++ records).map key).Nodup →
      records.foldl (put key) held = held ++ records := by
    induction records with
    | nil => simp
    | cons a rest ih =>
      intro held apart
      rw [List.map_append, List.map_cons] at apart
      have new : key a ∉ held.map key := by
        intro known
        exact (List.nodup_append.mp apart).2.2 _ known _ List.mem_cons_self rfl
      rw [List.foldl_cons, put_new new, ih (List.nodup_cons.mp distinct).2 _ (by simpa using apart)]
      simp
  exact grown [] distinct

theorem find_keyed (distinct : (records.map key).Nodup) :
    records.find? (key · = k) = some a ↔ a ∈ records ∧ key a = k := by
  constructor
  · intro found
    exact ⟨List.mem_of_find?_eq_some found, by simpa using List.find?_some found⟩
  · rintro ⟨member, rfl⟩
    cases found : records.find? (key · = key a) with
    | none => simpa using List.find?_eq_none.mp found a member
    | some b =>
      have same : key b = key a := by simpa using List.find?_some found
      rw [List.inj_on_of_nodup_map distinct (List.mem_of_find?_eq_some found) member same]

theorem find_perm {others : List α} (distinct : (records.map key).Nodup) (perm : records.Perm others) :
    records.find? (key · = k) = others.find? (key · = k) := by
  have apart : (others.map key).Nodup := (perm.map key).nodup_iff.mp distinct
  apply Option.ext
  intro a
  rw [find_keyed distinct, find_keyed apart, perm.mem_iff]

end

namespace Store

-- What every dataset has after reading: one record for each key, assignments
-- in the order of their users.
structure Keyed (s : Store) : Prop where
  versions : (s.versions.map (·.id)).Nodup
  stages : (s.stages.map (·.id)).Nodup
  users : (s.users.map (·.id)).Nodup
  assignments : s.assignments.Pairwise (·.userId < ·.userId)

def among (all : List Assignment) (user : String) : Option Assignment := all.find? fun a => a.userId = user

theorem assign_found : among (assign a all) user = if user = a.userId then some a else among all user := by
  unfold among
  induction all with
  | nil => by_cases same : user = a.userId <;> simp [assign, same, eq_comm]
  | cons b rest ih =>
    by_cases before : a.userId < b.userId
    · by_cases same : user = a.userId <;> simp [assign, before, same, eq_comm]
    · by_cases equal : a.userId = b.userId
      · by_cases same : user = b.userId <;> simp [assign, equal, same, eq_comm]
      · rw [assign, if_neg before, if_neg equal, List.find?_cons, List.find?_cons, ih]
        by_cases held : b.userId = user
        · have other : user ≠ a.userId := fun same => equal (same.symm.trans held.symm)
          simp [held, other]
        · simp [held]

theorem mem_assign (member : b ∈ assign a all) : b = a ∨ b ∈ all := by
  induction all with
  | nil => simpa [assign] using member
  | cons c rest ih =>
    simp only [assign] at member
    split at member
    · simpa using member
    · split at member
      · rcases List.mem_cons.mp member with same | later
        · exact .inl same
        · exact .inr (List.mem_cons_of_mem _ later)
      · rcases List.mem_cons.mp member with same | later
        · exact .inr (same ▸ List.mem_cons_self)
        · exact (ih later).imp id (List.mem_cons_of_mem _)

theorem assign_ordered (ordered : all.Pairwise (·.userId < ·.userId)) :
    (assign a all).Pairwise (·.userId < ·.userId) := by
  induction all with
  | nil => exact List.pairwise_singleton _ _
  | cons b rest ih =>
    obtain ⟨first, later⟩ := List.pairwise_cons.mp ordered
    simp only [assign]
    split
    · rename_i before
      refine List.pairwise_cons.mpr ⟨?_, ordered⟩
      intro c member
      rcases List.mem_cons.mp member with rfl | behind
      · exact before
      · exact String.lt_trans before (first c behind)
    · rename_i notBefore
      split
      · rename_i same
        refine List.pairwise_cons.mpr ⟨?_, later⟩
        intro c behind
        rw [same]
        exact first c behind
      · rename_i different
        refine List.pairwise_cons.mpr ⟨?_, ih later⟩
        intro c member
        rcases mem_assign member with rfl | behind
        · exact String.not_le.mp fun notAfter =>
            different (String.le_antisymm notAfter (String.not_lt.mp notBefore))
        · exact first c behind

theorem among_below (ordered : (a :: all).Pairwise (·.userId < ·.userId)) (below : user ≤ a.userId) :
    among all user = none := by
  refine List.find?_eq_none.mpr ?_
  intro b member
  have after := (List.pairwise_cons.mp ordered).1 b member
  simpa using fun same : b.userId = user => String.not_lt.mpr below (same ▸ after)

theorem ordered_ext (ordered : all.Pairwise (·.userId < ·.userId))
    (others : more.Pairwise (·.userId < ·.userId)) (same : ∀ user, among all user = among more user) :
    all = more := by
  induction all generalizing more with
  | nil =>
    cases more with
    | nil => rfl
    | cons b rest => simpa [among] using same b.userId
  | cons a rest ih =>
    cases more with
    | nil => simpa [among] using same a.userId
    | cons b later =>
      have first : a = b := by
        rcases String.le_total a.userId b.userId with before | after
        · have found := same a.userId
          by_cases equal : b.userId = a.userId
          · simpa [among, equal] using found
          · have absent := among_below others before
            simp only [among, List.find?_cons, decide_true, equal, decide_false] at found absent
            rw [absent] at found
            cases found
        · have found := same b.userId
          by_cases equal : a.userId = b.userId
          · simpa [among, equal] using found
          · have absent := among_below ordered after
            simp only [among, List.find?_cons, decide_true, equal, decide_false] at found absent
            rw [absent] at found
            cases found
      subst first
      have tails : rest = later := by
        refine ih (List.pairwise_cons.mp ordered).2 (List.pairwise_cons.mp others).2 ?_
        intro user
        by_cases equal : user = a.userId
        · rw [among_below ordered (equal ▸ String.le_refl _), among_below others (equal ▸ String.le_refl _)]
        · have found := same user
          simpa [among, Ne.symm equal] using found
      rw [tails]

theorem assignAll_ordered (records : List Assignment) (ordered : all.Pairwise (·.userId < ·.userId)) :
    (records.foldl (fun all a => assign a all) all).Pairwise (·.userId < ·.userId) := by
  induction records generalizing all with
  | nil => exact ordered
  | cons a rest ih => exact ih (assign_ordered ordered)

theorem mem_assignAll {records : List Assignment}
    (member : a ∈ records.foldl (fun all a => assign a all) all) : a ∈ all ∨ a ∈ records := by
  induction records generalizing all with
  | nil => exact .inl member
  | cons b rest ih =>
    rcases ih member with put | later
    · rcases mem_assign put with rfl | held
      · exact .inr List.mem_cons_self
      · exact .inl held
    · exact .inr (List.mem_cons_of_mem _ later)

theorem assign_last (after : ∀ b ∈ all, b.userId < a.userId) : assign a all = all ++ [a] := by
  induction all with
  | nil => rfl
  | cons b rest ih =>
    have first := after b List.mem_cons_self
    have later := ih fun c member => after c (List.mem_cons_of_mem b member)
    rw [assign, if_neg (String.lt_asymm first), if_neg fun same => String.lt_irrefl _ (same ▸ first), later]
    rfl

theorem assignAll_sorted {records : List Assignment} (ordered : records.Pairwise (·.userId < ·.userId)) :
    records.foldl (fun all a => assign a all) [] = records := by
  have grown : ∀ held : List Assignment, (held ++ records).Pairwise (·.userId < ·.userId) →
      records.foldl (fun all a => assign a all) held = held ++ records := by
    clear ordered
    induction records with
    | nil => simp
    | cons a rest ih =>
      intro held ordered
      have before : ∀ b ∈ held, b.userId < a.userId :=
        fun b member => (List.pairwise_append.mp ordered).2.2 b member a List.mem_cons_self
      rw [List.foldl_cons, assign_last before, ih _ (by simpa using ordered)]
      simp
  exact grown [] ordered

theorem ofRecords_keyed (versions : List Version) (stages : List Stage) (transitions : List Transition)
    (users : List UserFacts) (assignments : List Assignment) :
    (ofRecords versions stages transitions users assignments).Keyed :=
  ⟨collect_nodup _, collect_nodup _, collect_nodup _, assignAll_ordered _ .nil⟩

theorem setAssignment_keyed (keyed : s.Keyed) (a : Assignment) : (setAssignment s a).Keyed :=
  ⟨keyed.versions, keyed.stages, keyed.users, assign_ordered keyed.assignments⟩

end Store
end Lifecycle
