import Lifecycle.Sample.History
import Mathlib.Data.List.GetD

namespace Lifecycle.Sample

namespace Draw
variable {α β : Type} {P : α → Prop} {Q : β → Prop} {d e : Draw α} {f : α → Draw β} {c : Prop} [Decidable c]

-- What holds of a value whatever words it is drawn from.
def Gives (d : Draw α) (P : α → Prop) : Prop := ∀ source, P (d source).1

namespace Gives

theorem pure (fits : P a) : Gives (pure a) P := fun _ => fits

theorem bind (first : Gives d P) (rest : ∀ a, P a → Gives (f a) Q) : Gives (d >>= f) Q :=
  fun source => rest _ (first source) _

theorem map {g : α → β} (drawn : Gives d P) (each : ∀ a, P a → Q (g a)) : Gives (g <$> d) Q :=
  fun source => each _ (drawn source)

theorem imp {R : α → Prop} (drawn : Gives d P) (each : ∀ a, P a → R a) : Gives d R :=
  fun source => each _ (drawn source)

theorem either (yes : c → Gives d P) (no : ¬c → Gives e P) (rest : ∀ a, P a → Gives (f a) Q) :
    Gives (if c then d >>= f else e >>= f) Q := by
  split
  · exact (yes ‹_›).bind rest
  · exact (no ‹_›).bind rest

end Gives

theorem word_gives : Gives word fun w => w.toNat < twoPow 32 := fun source => UInt32.toNat_lt (word source).1

theorem wideBits_gives (words : Nat) : Gives (wideBits words) (· < twoPow (32 * words)) := by
  induction words with
  | zero => exact .pure (by decide)
  | succ words ih =>
    refine word_gives.bind fun low small => ih.bind fun high bound => .pure ?_
    calc low.toNat + high * twoPow 32
      _ < (high + 1) * twoPow 32 := by rw [Nat.succ_mul]; omega
      _ ≤ twoPow (32 * words) * twoPow 32 := Nat.mul_le_mul_right _ bound
      _ = twoPow (32 * (words + 1)) := (Nat.pow_add 2 (32 * words) 32).symm

theorem belowWithin_gives (present : 0 < bound) (width rounds : Nat) :
    Gives (belowWithin bound width rounds) (· < bound) := by
  induction rounds with
  | zero => exact .pure present
  | succ rounds ih =>
    refine Gives.bind (P := fun _ => True) (fun _ => trivial) fun r _ => ?_
    split
    · exact .pure ‹_›
    · exact ih

theorem between_gives (ordered : low ≤ high) : Gives (between low high) fun r => low ≤ r ∧ r ≤ high := by
  refine Gives.bind (belowWithin_gives (Nat.succ_pos (high - low)) _ _) fun r small => .pure ?_
  omega

theorem getD_inside {choices : List α} (inside : i < choices.length) (fallback : α) :
    choices.getD i fallback ∈ choices := by
  rw [List.getD_eq_getElem _ _ inside]
  exact List.getElem_mem inside

theorem oneOf_gives {choices : List α} (listed : choices ≠ []) (fallback : α) :
    Gives (oneOf choices fallback) (· ∈ choices) :=
  (belowWithin_gives (List.length_pos_iff.mpr listed) _ _).bind fun _ inside => .pure (getD_inside inside fallback)

end Draw

structure Generations.Drawn (g : Generations) (ageHours : Nat) : Prop where
  count : 1 ≤ g.count ∧ g.count ≤ 60
  lastHour : g.lastHour ≤ ageHours
  model : g.model ∈ models

structure Purchases.Drawn (p : Purchases) (ageHours : Nat) : Prop where
  count : 1 ≤ p.count ∧ p.count ≤ 5
  lastHour : p.lastHour ≤ ageHours

namespace Lot
open Draw

structure Drawn (lot : Lot) : Prop where
  age : 1 ≤ lot.ageHours ∧ lot.ageHours ≤ 24 * 120
  id : lot.id < twoPow 128
  credits : if lot.profile = .freeloader then lot.credits ≤ 19 else 20 ≤ lot.credits ∧ lot.credits ≤ 200
  activeHour : lot.activeHour ≤ lot.ageHours
  generations : if lot.profile = .dead then lot.generations = none
    else ∃ g, lot.generations = some g ∧ g.Drawn lot.ageHours
  purchases : if lot.profile.pays then ∃ p, lot.purchases = some p ∧ p.Drawn lot.ageHours else lot.purchases = none
  failureDelay : if lot.profile = .failedPayer then 1 ≤ lot.failureDelay ∧ lot.failureDelay ≤ 48
    else lot.failureDelay = 1
  idleDays : if lot.profile = .inactive then 15 ≤ lot.idleDays ∧ lot.idleDays ≤ 90 else lot.idleDays = 0

theorem drawGenerations_gives (ageHours : Nat) : Gives (drawGenerations ageHours) (·.Drawn ageHours) := by
  refine Gives.bind (between_gives (by decide)) fun count counted => ?_
  refine Gives.bind (between_gives (Nat.zero_le _)) fun lastHour past => ?_
  exact Gives.bind (oneOf_gives (by decide) "") fun model listed => .pure ⟨counted, past.2, listed⟩

theorem drawPurchases_gives (ageHours : Nat) : Gives (drawPurchases ageHours) (·.Drawn ageHours) := by
  refine Gives.bind (between_gives (by decide)) fun count counted => ?_
  exact Gives.bind (between_gives (Nat.zero_le _)) fun lastHour past => .pure ⟨counted, past.2⟩

theorem draw_gives : Gives draw Drawn := by
  refine Gives.bind (between_gives (by decide)) fun ageHours age => ?_
  refine Gives.bind (P := fun _ => True) (fun _ => trivial) fun profile _ => ?_
  refine Gives.bind (wideBits_gives 4) fun id wide => ?_
  refine Gives.bind (between_gives (by decide)) fun usual enough => ?_
  refine Gives.bind (between_gives (Nat.zero_le _)) fun activeHour active => ?_
  -- what a profile does not need is not drawn
  refine Gives.either (P := fun o => if profile = .dead then o = none else ∃ g, o = some g ∧ g.Drawn ageHours)
    (fun dead => .pure (by rw [if_pos dead])) (fun alive => ?_) fun generations generated => ?_
  · refine (drawGenerations_gives ageHours).map fun g drawn => ?_
    rw [if_neg alive]
    exact ⟨g, rfl, drawn⟩
  refine Gives.either (P := fun r => if profile = .freeloader then r ≤ 19 else 20 ≤ r ∧ r ≤ 200)
    (fun few => ?_) (fun many => .pure (by rwa [if_neg many])) fun credits owned => ?_
  · exact (between_gives (Nat.zero_le 19)).imp fun r within => by rw [if_pos few]; exact within.2
  refine Gives.either (P := fun o => if profile.pays then ∃ p, o = some p ∧ p.Drawn ageHours else o = none)
    (fun pays => ?_) (fun never => .pure (by rw [if_neg never])) fun purchases bought => ?_
  · refine (drawPurchases_gives ageHours).map fun p drawn => ?_
    rw [if_pos pays]
    exact ⟨p, rfl, drawn⟩
  refine Gives.either (P := fun r => if profile = .failedPayer then 1 ≤ r ∧ r ≤ 48 else r = 1)
    (fun fails => ?_) (fun other => .pure (by rw [if_neg other])) fun failureDelay delayed => ?_
  · exact (between_gives (by decide)).imp fun r within => by rwa [if_pos fails]
  refine Gives.either (P := fun r => if profile = .inactive then 15 ≤ r ∧ r ≤ 90 else r = 0)
    (fun silent => ?_) (fun other => .pure (by rw [if_neg other])) fun idleDays idle => ?_
  · exact (between_gives (by decide)).imp fun r within => by rwa [if_pos silent]
  exact .pure ⟨age, wide, owned, active.2, generated, bought, delayed, idle⟩

end Lot

theorem drawUsers_gives (now : Timestamp) (count : Nat) :
    Draw.Gives (drawUsers now count) fun us => ∀ u ∈ us, ∃ source, (Lot.draw source).1.facts now = u := by
  induction count with
  | zero => exact .pure (by simp)
  | succ count ih =>
    refine Draw.Gives.bind (P := fun lot => ∃ source, (Lot.draw source).1 = lot) (fun source => ⟨source, rfl⟩)
      fun lot drawn => ih.bind fun rest others => .pure ?_
    obtain ⟨source, rfl⟩ := drawn
    exact List.forall_mem_cons.mpr ⟨⟨source, rfl⟩, others⟩

theorem drawUsers_length (now : Timestamp) (count : Nat) : Draw.Gives (drawUsers now count) (·.length = count) := by
  induction count with
  | zero => exact .pure rfl
  | succ count ih =>
    refine Lot.draw_gives.bind fun lot _ => ih.bind fun rest counted => .pure ?_
    rw [List.length_cons, counted]

theorem users_drawn (count seed : Int) :
    ∀ u ∈ users count seed, ∃ source, (Lot.draw source).1.Drawn ∧ (Lot.draw source).1.facts baseTime = u := by
  intro u member
  obtain ⟨source, made⟩ := drawUsers_gives baseTime count.toNat _ u member
  exact ⟨source, Lot.draw_gives source, made⟩

theorem users_length (count seed : Int) : (users count seed).length = count.toNat := drawUsers_length baseTime _ _

end Lifecycle.Sample
