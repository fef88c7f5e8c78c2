import Lifecycle.Proofs.Record.Facts
import Lifecycle.Proofs.Sample.Draw
import Lifecycle.Proofs.StockGraph.Classification

namespace Lifecycle

def Timestamp.Within (t first last : Timestamp) : Prop := first.moment ≤ t.moment ∧ t.moment ≤ last.moment

structure UserFacts.Consistent (u : UserFacts) (now : Timestamp) : Prop where
  active : ∀ t ∈ u.lastActiveAt, t.Within u.createdAt now
  generated : ∀ t ∈ u.lastGenerationAt, t.Within u.createdAt now
  paid : ∀ t ∈ u.lastCompletedPurchaseAt, t.Within u.createdAt now
  generations : 0 < u.totalGenerated ↔ u.lastGenerationAt.isSome
  purchases : 0 < u.completedPurchases ↔ u.lastCompletedPurchaseAt.isSome
  tagged : u.lastCompletedPurchaseAt.isSome ↔ u.tags = [.text "payer"]
  failed : ∀ t ∈ u.lastFailedPurchaseAt, ∃ paid ∈ u.lastCompletedPurchaseAt, paid.before t = true

namespace Sample

theorem hour_micros : Timestamp.microsPerHour = 3600000000 := rfl

theorem later_moment (t : Timestamp) (hours : Nat) : (later t hours).moment = t.moment + hours * 3600000000 := by
  simp only [later, Timestamp.moment, hour_micros]
  omega

theorem earlier_moment (t : Timestamp) (hours : Nat) : (earlier t hours).moment = t.moment - hours * 3600000000 := by
  simp only [earlier, Timestamp.moment, hour_micros]
  omega

theorem before_later (t : Timestamp) (some : 0 < hours) : t.before (later t hours) = true := by
  refine decide_eq_true ?_
  rw [later_moment]
  omega

theorem earlier_later (t : Timestamp) (recent : hours ≤ age) :
    earlier t hours = later (earlier t age) (age - hours) := by
  simp only [earlier, later, hour_micros, Timestamp.mk.injEq, and_true]
  omega

theorem near_readable {t : Timestamp} (universal : t.offset = 0)
    (after : (earlier baseTime (24 * 120)).moment ≤ t.moment) (before : t.moment ≤ (later baseTime 48).moment) :
    t.Readable := by
  have base : baseTime.moment = 63871286400000000 := by decide
  have last : Timestamp.endOfTime = 315537897600000000 := by decide
  rw [earlier_moment, base, Timestamp.moment, universal] at after
  rw [later_moment, base, Timestamp.moment, universal] at before
  refine ⟨by omega, by omega, ?_, .inl universal⟩
  rw [universal]
  decide

namespace Lot
variable {lot : Lot}

def Past (lot : Lot) (now t : Timestamp) : Prop :=
  ∃ hours ≤ lot.ageHours, later (earlier now lot.ageHours) hours = t

theorem Past.within (past : lot.Past now t) : t.Within (earlier now lot.ageHours) now := by
  obtain ⟨hours, before, rfl⟩ := past
  rw [Timestamp.Within, later_moment, earlier_moment]
  omega

theorem facts_dated (now : Timestamp) : (lot.facts now).Dated := by
  intro undated
  have missing : lot.generations = none := Option.map_eq_none_iff.mp undated
  simp [facts, missing, Json.ofOption]

theorem failed_later (failed : t ∈ (lot.facts now).lastFailedPurchaseAt) :
    ∃ paid ∈ (lot.facts now).lastCompletedPurchaseAt, later paid lot.failureDelay = t := by
  obtain ⟨_, failed⟩ := Option.ite_none_right_eq_some.mp failed
  exact Option.map_eq_some_iff.mp failed

namespace Drawn
variable (drawn : lot.Drawn)
include drawn

theorem generation_drawn (made : g ∈ lot.generations) : g.Drawn lot.ageHours := by
  have generations := drawn.generations
  split at generations
  · rw [generations] at made
    cases made
  · obtain ⟨_, same, drawn⟩ := generations
    cases same.symm.trans made
    exact drawn

theorem purchase_drawn (bought : p ∈ lot.purchases) : p.Drawn lot.ageHours := by
  have purchases := drawn.purchases
  split at purchases
  · obtain ⟨_, same, drawn⟩ := purchases
    cases same.symm.trans bought
    exact drawn
  · rw [purchases] at bought
    cases bought

theorem delayed : 1 ≤ lot.failureDelay ∧ lot.failureDelay ≤ 48 := by
  have delay := drawn.failureDelay
  split at delay <;> omega

theorem active_past (active : t ∈ (lot.facts now).lastActiveAt) : lot.Past now t := by
  cases active
  split
  · exact ⟨_, Nat.sub_le _ _, (earlier_later now (Nat.min_le_left _ _)).symm⟩
  · exact ⟨_, drawn.activeHour, rfl⟩

theorem paid_past (paid : t ∈ (lot.facts now).lastCompletedPurchaseAt) : lot.Past now t := by
  obtain ⟨p, bought, same⟩ := Option.map_eq_some_iff.mp paid
  exact ⟨p.lastHour, (drawn.purchase_drawn bought).lastHour, same⟩

theorem generated_past (generated : t ∈ (lot.facts now).lastGenerationAt) : lot.Past now t := by
  obtain ⟨g, made, same⟩ := Option.map_eq_some_iff.mp generated
  exact ⟨g.lastHour, (drawn.generation_drawn made).lastHour, same⟩

theorem past_readable (past : lot.Past baseTime t) : t.Readable := by
  have age := drawn.age
  obtain ⟨hours, before, rfl⟩ := past
  apply near_readable rfl <;> simp only [later_moment, earlier_moment] <;> omega

theorem generated_present : 0 < (lot.facts now).totalGenerated ↔ lot.generations.isSome := by
  cases made : lot.generations with
  | none => simp [facts, made]
  | some g =>
    have present : 0 < g.count := (drawn.generation_drawn made).count.1
    simp [facts, made, present]

theorem bought_present : 0 < (lot.facts now).completedPurchases ↔ lot.purchases.isSome := by
  cases bought : lot.purchases with
  | none => simp [facts, bought]
  | some p =>
    have present : 0 < p.count := (drawn.purchase_drawn bought).count.1
    simp [facts, bought, present]

theorem facts_consistent (now : Timestamp) : (lot.facts now).Consistent now := by
  constructor
  case active => exact fun t active => (drawn.active_past active).within
  case generated => exact fun t generated => (drawn.generated_past generated).within
  case paid => exact fun t paid => (drawn.paid_past paid).within
  case generations =>
    rw [drawn.generated_present]
    simp [facts]
  case purchases =>
    rw [drawn.bought_present]
    simp [facts]
  case tagged => cases bought : lot.purchases <;> simp [facts, bought]
  case failed =>
    intro t failed
    obtain ⟨paid, bought, rfl⟩ := failed_later failed
    exact ⟨paid, bought, before_later paid drawn.delayed.1⟩

theorem facts_wellFormed : (lot.facts baseTime).WellFormed := by
  constructor
  case createdAt => exact drawn.past_readable ⟨0, Nat.zero_le _, by simp [later, facts]⟩
  case lastActiveAt => exact fun t active => drawn.past_readable (drawn.active_past active)
  case lastCompletedPurchaseAt => exact fun t paid => drawn.past_readable (drawn.paid_past paid)
  case lastFailedPurchaseAt =>
    -- the only moment that can lie after the base time
    intro t failed
    have age := drawn.age
    have delay := drawn.delayed.2
    obtain ⟨paid, bought, rfl⟩ := failed_later failed
    obtain ⟨hours, before, rfl⟩ := drawn.paid_past bought
    apply near_readable rfl <;> simp only [later_moment, earlier_moment] <;> omega
  case lastGenerationAt => exact fun t generated => drawn.past_readable (drawn.generated_past generated)
  case lastGenerationModel =>
    cases made : lot.generations with
    | none => exact .inr (by simp [facts, made, Json.ofOption])
    | some g =>
      have named : ∀ m ∈ models, (Json.text m).truthy = true := by decide
      exact .inl (by simpa [facts, made, Json.ofOption] using named _ (drawn.generation_drawn made).model)

theorem facts_accepted : UserFacts.decode (lot.facts baseTime).encode = .ok (lot.facts baseTime) := by
  rw [UserFacts.decode_encode drawn.facts_wellFormed, (UserFacts.withoutUndatedModel_same _).mpr (facts_dated _)]

end Drawn
end Lot

open StockGraph

-- Where the stock graph leaves the users of a profile.
def Profile.ends : Profile → List Milestone
  | .dead => [.activating, .churned]
  | .free => [.activeFree]
  | .freeloader => [.paywall, .churned]
  | .payer => [.paidActive, .inactive]
  | .failedPayer => [.inactive]
  | .inactive => [.inactive]
  | .blocked => [.blocked]

-- The stages at which an engine of the usual configuration leaves a user, whatever the time is
-- and whatever else is stored.
def EndsAmong (u : UserFacts) (ends : List Milestone) : Prop :=
  ∀ {e : Engine} {s : Store} {user : String} {v : Int}, e.stalled = [] → e.config = .standard → HeldBy s v →
    s.user? user = some u → ∃ r, ∃ m ∈ ends, (e.immerse user v s).1 = .ok (some r) ∧ r.final = m.stage v

namespace Lot.Drawn
variable {lot : Lot} (drawn : lot.Drawn)
include drawn

theorem generates_alive : 0 < (lot.facts now).totalGenerated ↔ lot.profile ≠ .dead := by
  have generations := drawn.generations
  rw [drawn.generated_present]
  split at generations
  · simp [*]
  · obtain ⟨g, made, _⟩ := generations
    simp [*]

theorem buys_pays : 0 < (lot.facts now).completedPurchases ↔ lot.profile.pays = true := by
  have purchases := drawn.purchases
  rw [drawn.bought_present]
  split at purchases
  · obtain ⟨p, bought, _⟩ := purchases
    simp [*]
  · simp [*]

theorem poor_freeloads : (lot.facts now).credits < 20 ↔ lot.profile = .freeloader := by
  have credits := drawn.credits
  split at credits <;> simp [facts, *]
  omega

theorem payment_failed (fails : lot.profile = .failedPayer ∨ lot.profile = .inactive) :
    Context.paymentFailed (lot.facts now).lastFailedPurchaseAt (lot.facts now).lastCompletedPurchaseAt = true := by
  have pays : lot.profile.pays = true := by
    rcases fails with same | same <;> rw [same] <;> rfl
  have purchases := drawn.purchases
  rw [if_pos pays] at purchases
  obtain ⟨p, bought, _⟩ := purchases
  have after := before_later (later (earlier now lot.ageHours) p.lastHour) drawn.delayed.1
  simp [facts, fails, bought, Context.paymentFailed, after]

theorem classify_ends (built : Context.build (lot.facts now) moment (.int 20) = .ok context) :
    classify context (lot.facts now).isBlocked ∈ lot.profile.ends := by
  obtain ⟨low, payments, generations, failed⟩ := Context.build_reads built
  have blocking : (lot.facts now).isBlocked = decide (lot.profile = .blocked) := rfl
  unfold classify
  simp only [blocking, payments, drawn.buys_pays, failed, generations, drawn.generates_alive, low, drawn.poor_freeloads]
  cases profile : lot.profile with
  | failedPayer => simp [Profile.pays, Profile.ends, drawn.payment_failed (.inl profile)]
  | inactive => simp [Profile.pays, Profile.ends, drawn.payment_failed (.inr profile)]
  | _ => simp [Profile.pays, Profile.ends]

theorem facts_ends (now : Timestamp) : EndsAmong (lot.facts now) lot.profile.ends := by
  intro e s user v calm usual held known
  obtain ⟨context, built⟩ := Context.build_int (lot.facts now) e.now 20
  have deep : 4 ≤ e.config.stepLimit s.stages.length := by
    have enough : (Number.int 4).le (.int 50) = true := by rw [Number.le_int]; decide
    rw [usual]
    exact Config.stepLimit_least rfl enough (Nat.le_trans (by decide) held.stages_count)
  refine ⟨_, _, drawn.classify_ends built, immerse_outcome calm held known ?_ deep, outcome_final _ _ _ _⟩
  rw [usual]
  exact built

end Lot.Drawn

-- Whatever chance decides: the record is read as it was meant, its moments and counts fit
-- together, and a replay leaves the user where the profile belongs. No sampled user is of another kind.
theorem drawn_histories :
    (∀ lot : Lot, lot.Drawn →
      UserFacts.decode (lot.facts baseTime).encode = .ok (lot.facts baseTime) ∧
      (lot.facts baseTime).Consistent baseTime ∧ EndsAmong (lot.facts baseTime) lot.profile.ends) ∧
    ∀ count seed, ∀ u ∈ users count seed,
      ∃ source, (Lot.draw source).1.Drawn ∧ (Lot.draw source).1.facts baseTime = u :=
  ⟨fun _ drawn => ⟨drawn.facts_accepted, drawn.facts_consistent baseTime, drawn.facts_ends baseTime⟩, users_drawn⟩

def lateFailure : Lot where
  ageHours := 100
  profile := .failedPayer
  id := 7
  credits := 20
  activeHour := 100
  generations := some ⟨1, 0, "sdxl"⟩
  purchases := some ⟨5, 100⟩
  failureDelay := 48
  idleDays := 0

theorem lateFailure_drawn : lateFailure.Drawn where
  age := by decide
  id := by decide
  credits := by decide
  activeHour := by decide
  generations := ⟨_, rfl, by decide, by decide, by decide⟩
  purchases := ⟨_, rfl, by decide, by decide⟩
  failureDelay := by decide
  idleDays := by decide

theorem drawn_histories_lateFailure :
    let u := lateFailure.facts baseTime
    let s := Store.ofRecords [version 1] (stages 1) (transitions 1) [u] []
    lateFailure.Drawn ∧ UserFacts.decode u.encode = .ok u ∧ HeldBy s 1 ∧ s.user? u.id = some u ∧
      (∃ r, ((Engine.pinned .standard baseTime []).immerse u.id 1 s).1 = .ok (some r) ∧
        r.final = Milestone.inactive.stage 1) ∧
      ∃ u ∈ users 1 42, ∃ source, (Lot.draw source).1.Drawn ∧ (Lot.draw source).1.facts baseTime = u := by
  intro u s
  obtain ⟨histories, sampled⟩ := drawn_histories
  obtain ⟨accepted, _, ends⟩ := histories lateFailure lateFailure_drawn
  have held : HeldBy s 1 := .ofRecords 1 [u] []
  have single : collect (·.id) [u] = [u] := collect_distinct (List.nodup_singleton _)
  have known : s.user? u.id = some u := by simp [s, Store.user?, Store.ofRecords, single]
  obtain ⟨r, m, listed, answered, final⟩ := ends (e := .pinned .standard baseTime []) rfl rfl held known
  rw [List.mem_singleton.mp listed] at final
  obtain ⟨other, member⟩ : ∃ other, other ∈ users 1 42 :=
    List.exists_mem_of_length_pos (by rw [users_length]; decide)
  exact ⟨lateFailure_drawn, accepted, held, known, ⟨r, answered, final⟩, other, member, sampled 1 42 other member⟩

end Sample
end Lifecycle
