import Lifecycle.Proofs.Json.Fields
import Lifecycle.Proofs.Timestamp.Reading
import Lifecycle.Record.Graph
import Lifecycle.Record.Facts

namespace Lifecycle

theorem Assignment.decode_readable {a : Assignment} (decoded : decode v = .ok a) : a.enteredAt.Readable := by
  unfold decode at decoded
  obtain ⟨_, _, decoded⟩ := bind_ok.mp decoded
  obtain ⟨entered, read, decoded⟩ := bind_ok.mp decoded
  cases entered with
  | none =>
    obtain ⟨_, _, decoded⟩ := bind_ok.mp decoded
    cases decoded
  | some t =>
    obtain ⟨_, same, decoded⟩ := bind_ok.mp decoded
    cases same
    obtain ⟨_, _, decoded⟩ := bind_ok.mp decoded
    obtain ⟨_, _, decoded⟩ := bind_ok.mp decoded
    obtain ⟨_, _, decoded⟩ := bind_ok.mp decoded
    obtain ⟨_, _, decoded⟩ := bind_ok.mp decoded
    cases decoded
    exact Json.toTimestamp_readable read

theorem Assignment.decode_encode {a : Assignment} (readable : a.enteredAt.Readable) : decode a.encode = .ok a := by
  simp [decode, encode, readable]

namespace UserFacts

structure WellFormed (u : UserFacts) : Prop where
  createdAt : u.createdAt.Readable
  lastActiveAt : ∀ t ∈ u.lastActiveAt, t.Readable
  lastCompletedPurchaseAt : ∀ t ∈ u.lastCompletedPurchaseAt, t.Readable
  lastFailedPurchaseAt : ∀ t ∈ u.lastFailedPurchaseAt, t.Readable
  lastGenerationAt : ∀ t ∈ u.lastGenerationAt, t.Readable
  lastGenerationModel : u.lastGenerationModel.truthy ∨ u.lastGenerationModel = .null

-- The favourite model is known from a generation that has a time, if at all.
def Dated (u : UserFacts) : Prop := u.lastGenerationAt = none → u.lastGenerationModel = .null

def withoutUndatedModel (u : UserFacts) : UserFacts :=
  { u with lastGenerationModel := if u.lastGenerationAt.isSome then u.lastGenerationModel else .null }

theorem withoutUndatedModel_same (u : UserFacts) : u.withoutUndatedModel = u ↔ u.Dated := by
  obtain ⟨id, credits, created, total, tags, active, blocked, purchases, completed, failed, generation, model,
    overlays⟩ := u
  cases generation with
  | none => simp [withoutUndatedModel, Dated, eq_comm]
  | some t => simp [withoutUndatedModel, Dated]

theorem toTimestamp_optional {t : Option Timestamp} (readable : ∀ m ∈ t, m.Readable) :
    Json.toTimestamp? (.ofOption .ofTimestamp t) = .ok t := by
  cases t with
  | none => rfl
  | some m => exact Json.toTimestamp_written (readable m rfl)

theorem checkCounts_natural (purchases generations : Nat) (id : String) :
    checkCounts purchases generations id = .ok (purchases, generations) := by
  unfold checkCounts
  rw [if_neg (by omega), if_neg (by omega)]
  rfl

theorem decode_wellFormed {u : UserFacts} (decoded : decode v = .ok u) : u.WellFormed := by
  unfold decode at decoded
  obtain ⟨_, _, decoded⟩ := bind_ok.mp decoded
  obtain ⟨created, begun, decoded⟩ := bind_ok.mp decoded
  cases created with
  | none =>
    obtain ⟨_, _, decoded⟩ := bind_ok.mp decoded
    cases decoded
  | some t =>
    obtain ⟨_, same, decoded⟩ := bind_ok.mp decoded
    cases same
    obtain ⟨found, _, decoded⟩ := bind_ok.mp decoded
    obtain ⟨id, _, decoded⟩ := bind_ok.mp decoded
    obtain ⟨_, _, decoded⟩ := bind_ok.mp decoded
    obtain ⟨credits, _, decoded⟩ := bind_ok.mp decoded
    obtain ⟨_, _, decoded⟩ := bind_ok.mp decoded
    obtain ⟨generated, _, decoded⟩ := bind_ok.mp decoded
    obtain ⟨_, _, decoded⟩ := bind_ok.mp decoded
    obtain ⟨tags, _, decoded⟩ := bind_ok.mp decoded
    obtain ⟨_, _, decoded⟩ := bind_ok.mp decoded
    obtain ⟨active, acted, decoded⟩ := bind_ok.mp decoded
    obtain ⟨blocked, _, decoded⟩ := bind_ok.mp decoded
    obtain ⟨_, _, decoded⟩ := bind_ok.mp decoded
    obtain ⟨purchases, _, decoded⟩ := bind_ok.mp decoded
    obtain ⟨_, _, decoded⟩ := bind_ok.mp decoded
    obtain ⟨completed, bought, decoded⟩ := bind_ok.mp decoded
    obtain ⟨_, _, decoded⟩ := bind_ok.mp decoded
    obtain ⟨failed, refused, decoded⟩ := bind_ok.mp decoded
    obtain ⟨_, _, decoded⟩ := bind_ok.mp decoded
    obtain ⟨generation, drawn, decoded⟩ := bind_ok.mp decoded
    obtain ⟨model, _, decoded⟩ := bind_ok.mp decoded
    obtain ⟨_, _, decoded⟩ := bind_ok.mp decoded
    obtain ⟨overlays, _, decoded⟩ := bind_ok.mp decoded
    obtain ⟨counts, _, decoded⟩ := bind_ok.mp decoded
    cases decoded
    have readable : ∀ {w m}, Json.toTimestamp? w = .ok m → ∀ t ∈ m, t.Readable := by
      rintro w m read t ⟨⟩
      exact Json.toTimestamp_readable read
    exact ⟨Json.toTimestamp_readable begun, readable acted, readable bought, readable refused, readable drawn,
      Json.truthy_or_null model⟩

theorem decode_encode {u : UserFacts} (wellFormed : u.WellFormed) : decode u.encode = .ok u.withoutUndatedModel := by
  have created := Json.toTimestamp_written wellFormed.createdAt
  have active := toTimestamp_optional wellFormed.lastActiveAt
  have completed := toTimestamp_optional wellFormed.lastCompletedPurchaseAt
  have failed := toTimestamp_optional wellFormed.lastFailedPurchaseAt
  have generations := wellFormed.lastGenerationAt
  have model : orNull u.lastGenerationModel = u.lastGenerationModel :=
    Json.truthy_kept wellFormed.lastGenerationModel
  cases generation : u.lastGenerationAt with
  | none =>
    have nothing : Json.toTimestamp? .null = .ok none := rfl
    have absent : orNull .null = .null := rfl
    simp [decode, encode, encodeGeneration, withoutUndatedModel, generation, created, active, completed, failed,
      nothing, absent, checkCounts_natural]
  | some t =>
    have drawn := Json.toTimestamp_written (generations t generation)
    simp [decode, encode, encodeGeneration, withoutUndatedModel, generation, created, active, completed, failed,
      drawn, model, checkCounts_natural]

end UserFacts
end Lifecycle
