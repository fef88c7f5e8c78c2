namespace Lifecycle

variable {α β γ ε : Type}

theorem bind_ok {x : Except ε α} {f : α → Except ε β} {b : β} :
    x >>= f = .ok b ↔ ∃ a, x = .ok a ∧ f a = .ok b := by
  cases x <;> simp [bind, Except.bind]

theorem map_ok {x : Except ε α} {f : α → β} {b : β} : x.map f = .ok b ↔ ∃ a, x = .ok a ∧ f a = b := by
  cases x <;> simp [Except.map]

theorem mapError_ok {δ : Type} {x : Except ε α} {f : ε → δ} {a : α} : x.mapError f = .ok a ↔ x = .ok a := by
  cases x with
  | error => exact iff_of_false nofun nofun
  | ok b =>
    change (.ok b : Except δ α) = .ok a ↔ _
    simp only [Except.ok.injEq]

theorem bind_error {x : Except ε α} {f : α → Except ε β} {e : ε} :
    x >>= f = .error e ↔ x = .error e ∨ ∃ a, x = .ok a ∧ f a = .error e := by
  cases x <;> simp [bind, Except.bind]

theorem map_error {x : Except ε α} {f : α → β} {e : ε} : x.map f = .error e ↔ x = .error e := by
  cases x <;> simp [Except.map]

theorem mapError_error {δ : Type} {x : Except ε α} {f : ε → δ} {e : δ} :
    x.mapError f = .error e ↔ ∃ g, x = .error g ∧ f g = e := by
  cases x with
  | error g =>
    change (.error (f g) : Except δ α) = .error e ↔ _
    simp
  | ok =>
    refine iff_of_false nofun ?_
    rintro ⟨g, failed, _⟩
    cases failed

theorem branch_ok {x y : Except ε α} {f : α → Except ε β} {b : β} {c : Prop} [Decidable c]
    (done : (if c then x >>= f else y >>= f) = .ok b) : ∃ a, (if c then x else y) = .ok a ∧ f a = .ok b := by
  split at done
  · rename_i holds
    rw [if_pos holds]
    exact bind_ok.mp done
  · rename_i fails
    rw [if_neg fails]
    exact bind_ok.mp done

theorem longBranch_ok {x : Except ε γ} {g : γ → Except ε α} {y : Except ε α} {f : α → Except ε β} {b : β} {c : Prop}
    [Decidable c] (done : (if c then x >>= fun d => g d >>= f else y >>= f) = .ok b) :
    ∃ a, (if c then x >>= g else y) = .ok a ∧ f a = .ok b := by
  refine branch_ok (f := f) ?_
  rwa [bind_assoc]

variable {passes stops : α → Prop} {x : α} {xs : List α}

-- Gone through from the front, a list is left at an item behind others that let pass.
def LeftAt (passes stops : α → Prop) (xs : List α) : Prop :=
  ∃ before x after, xs = before ++ x :: after ∧ (∀ y ∈ before, passes y) ∧ stops x

theorem leftAt_nil : ¬LeftAt passes stops [] := by
  rintro ⟨before, x, after, split, _⟩
  cases before <;> cases split

theorem leftAt_cons : LeftAt passes stops (x :: xs) ↔ stops x ∨ passes x ∧ LeftAt passes stops xs := by
  constructor
  · rintro ⟨before, y, after, split, pass, stop⟩
    cases before with
    | nil =>
      cases split
      exact .inl stop
    | cons z before =>
      cases split
      obtain ⟨first, others⟩ := List.forall_mem_cons.mp pass
      exact .inr ⟨first, before, y, after, rfl, others, stop⟩
  · rintro (stop | ⟨first, before, y, after, rfl, pass, stop⟩)
    · exact ⟨[], x, xs, rfl, nofun, stop⟩
    · exact ⟨x :: before, y, after, rfl, List.forall_mem_cons.mpr ⟨first, pass⟩, stop⟩

theorem leftAt_congr {lets halts : α → Prop} (pass : ∀ x, passes x ↔ lets x) (stop : ∀ x, stops x ↔ halts x) :
    LeftAt passes stops xs ↔ LeftAt lets halts xs := by
  simp only [LeftAt, pass, stop]

theorem leftAt_first (stopped : ¬∀ x ∈ xs, passes x) : LeftAt passes (¬passes ·) xs := by
  induction xs with
  | nil => exact absurd nofun stopped
  | cons x xs ih =>
    rw [leftAt_cons]
    by_cases pass : passes x
    · exact .inr ⟨pass, ih fun others => stopped (List.forall_mem_cons.mpr ⟨pass, others⟩)⟩
    · exact .inl pass

theorem mapM_error {read : α → Except ε β} {e : ε} :
    xs.mapM read = .error e ↔ LeftAt (fun x => ∃ v, read x = .ok v) (fun x => read x = .error e) xs := by
  induction xs with
  | nil => exact iff_of_false nofun leftAt_nil
  | cons x xs ih =>
    rw [List.mapM_cons, leftAt_cons, ← ih]
    cases first : read x with
    | error => simp [bind, Except.bind]
    | ok v => cases later : xs.mapM read <;> simp [bind, Except.bind, pure, Except.pure]

theorem filterAuxM_error {keep : α → Except ε Bool} {e : ε} (kept : List α) : xs.filterAuxM keep kept = .error e ↔
    LeftAt (fun x => ∃ v, keep x = .ok v) (fun x => keep x = .error e) xs := by
  induction xs generalizing kept with
  | nil => exact iff_of_false nofun leftAt_nil
  | cons x xs ih =>
    rw [List.filterAuxM, leftAt_cons]
    cases first : keep x with
    | error => simp [bind, Except.bind]
    | ok v => simp [bind, Except.bind, ih]

theorem filterM_error {keep : α → Except ε Bool} {e : ε} :
    xs.filterM keep = .error e ↔ LeftAt (fun x => ∃ v, keep x = .ok v) (fun x => keep x = .error e) xs := by
  rw [← filterAuxM_error [], List.filterM]
  cases xs.filterAuxM keep [] <;> simp [bind, Except.bind, pure, Except.pure]

theorem forM_error {run : α → Except ε Unit} {e : ε} :
    forM xs run = .error e ↔ LeftAt (run · = .ok ()) (run · = .error e) xs := by
  induction xs with
  | nil => exact iff_of_false nofun leftAt_nil
  | cons x xs ih =>
    rw [List.forM_cons, leftAt_cons, ← ih]
    cases first : run x <;> simp [bind, Except.bind]

end Lifecycle
