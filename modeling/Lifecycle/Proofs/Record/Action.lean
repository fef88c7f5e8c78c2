import Lifecycle.Proofs.Json.Fields
import Lifecycle.Record.Action

namespace Lifecycle

structure Bonus.WellFormed (b : Bonus) : Prop where
  amount : 0 < b.amount
  hours : 0 < b.hours

theorem ActionType.ofJson_name (t : ActionType) : ofJson? (.text t.name) = some t := by
  cases t <;> rfl

theorem ActionType.ofJson_exact {t : ActionType} : ofJson? v = some t ↔ v = .text t.name := by
  constructor
  · intro named
    cases v with
    | text s =>
      have found : all.find? (fun t => t.name = s) = some t := named
      have spelled : decide (t.name = s) = true := by simpa using List.find?_some found
      rw [of_decide_eq_true spelled]
    | _ => cases named
  · rintro rfl
    exact ofJson_name t

namespace Payload

def WellFormed : Payload → Prop
  | .message _ _ _ included => ∀ b ∈ included, b.WellFormed
  | .bonus b => b.WellFormed
  | .tag label => Text.trim label ≠ ""
  | .offer packageId package _ => ¬(packageId.kind = .null ∧ package = Option.none)
  | _ => True

theorem checkBonus_exact {r : Except Fault (Nat × Nat)} : checkBonus amount hours = r ↔
    match r with
    | .ok (a, h) => 0 < a ∧ 0 < h ∧ (a : Int) = amount ∧ (h : Int) = hours
    | .error f =>
      amount ≤ 0 ∧ f = .bonusAmount (.int amount) ∨ 0 < amount ∧ hours ≤ 0 ∧ f = .bonusLifetime (.int hours) := by
  unfold checkBonus
  constructor
  · rintro rfl
    by_cases low : amount ≤ 0
    · rw [if_pos low]
      exact .inl ⟨low, rfl⟩
    by_cases short : hours ≤ 0
    · rw [if_neg low, if_pos short]
      exact .inr ⟨Int.not_le.mp low, short, rfl⟩
    · rw [if_neg low, if_neg short]
      dsimp only
      omega
  · intro checked
    match r with
    | .ok (a, h) =>
      obtain ⟨positive, lasting, rfl, rfl⟩ := checked
      rw [if_neg (by omega), if_neg (by omega)]
      rfl
    | .error f =>
      rcases checked with ⟨low, rfl⟩ | ⟨positive, short, rfl⟩
      · rw [if_pos low]
      · rw [if_neg (Int.not_le.mpr positive), if_pos short]

theorem readBonus_wellFormed (read : readBonus v = .ok b) : b.WellFormed := by
  unfold readBonus at read
  obtain ⟨_, _, read⟩ := bind_ok.mp read
  obtain ⟨amount, _, read⟩ := bind_ok.mp read
  obtain ⟨_, _, read⟩ := bind_ok.mp read
  obtain ⟨hours, _, read⟩ := branch_ok read
  obtain ⟨_, _, read⟩ := bind_ok.mp read
  obtain ⟨generations, _, read⟩ := bind_ok.mp read
  obtain ⟨_, _, read⟩ := bind_ok.mp read
  obtain ⟨topUp, _, read⟩ := bind_ok.mp read
  obtain ⟨⟨a, h⟩, checked, read⟩ := bind_ok.mp read
  cases read
  obtain ⟨positive, lasting, _⟩ := checkBonus_exact.mp checked
  exact ⟨positive, lasting⟩

theorem checkOffer_exact :
    checkOffer packageId package = .ok () ↔ (Payload.offer packageId package text).WellFormed := by
  simp [checkOffer, WellFormed]

theorem readMessage_sound (read : readMessage v = .ok p) : p.type = .sendMessage ∧ p.WellFormed := by
  unfold readMessage at read
  obtain ⟨found, _, read⟩ := bind_ok.mp read
  obtain ⟨included, _, read⟩ := bind_ok.mp read
  obtain ⟨offered, _, read⟩ := bind_ok.mp read
  obtain ⟨text, _, read⟩ := bind_ok.mp read
  obtain ⟨packageId, _, read⟩ := branch_ok read
  obtain ⟨package, _, read⟩ := longBranch_ok read
  obtain ⟨bonus, counted, read⟩ := branch_ok read
  cases read
  refine ⟨rfl, ?_⟩
  intro b member
  cases member
  generalize (if included.truthy = true then found.getD .null else .null) = chosen at counted
  split at counted
  · obtain ⟨_, given, same⟩ := map_ok.mp counted
    cases same
    exact readBonus_wellFormed given
  · cases counted

theorem readTag_sound (read : readTag v = .ok p) : p.type = .tagUser ∧ p.WellFormed := by
  unfold readTag at read
  obtain ⟨found, _, read⟩ := bind_ok.mp read
  dsimp only at read
  split at read
  · cases read
  · rename_i visible
    cases read
    exact ⟨rfl, by simpa [WellFormed] using visible⟩

theorem readOffer_sound (read : readOffer v = .ok p) : p.type = .specialOffer ∧ p.WellFormed := by
  unfold readOffer at read
  obtain ⟨packageId, _, read⟩ := bind_ok.mp read
  obtain ⟨_, _, read⟩ := bind_ok.mp read
  obtain ⟨package, _, read⟩ := bind_ok.mp read
  obtain ⟨text, _, read⟩ := bind_ok.mp read
  obtain ⟨_, checked, read⟩ := bind_ok.mp read
  cases read
  exact ⟨rfl, checkOffer_exact.mp checked⟩

theorem read_sound {p : Payload} (done : read v t = .ok p) : p.type = t ∧ p.WellFormed := by
  cases t with
  | sendMessage => exact readMessage_sound done
  | grantBonus =>
    obtain ⟨b, given, same⟩ := map_ok.mp done
    cases same
    exact ⟨rfl, readBonus_wellFormed given⟩
  | tagUser => exact readTag_sound done
  | specialOffer => exact readOffer_sound done
  | showTripwire =>
    obtain ⟨_, _, same⟩ := map_ok.mp done
    cases same
    exact ⟨rfl, trivial⟩
  | enableReferral =>
    obtain ⟨_, _, same⟩ := map_ok.mp done
    cases same
    exact ⟨rfl, trivial⟩
  | switchModelHint =>
    obtain ⟨_, _, done⟩ := bind_ok.mp done
    obtain ⟨_, _, done⟩ := bind_ok.mp done
    cases done
    exact ⟨rfl, trivial⟩
  | noAction =>
    cases done
    exact ⟨rfl, trivial⟩

theorem decode_sound {p : Payload} (decoded : decode name v = .ok p) : name = .text p.type.name ∧ p.WellFormed := by
  unfold decode at decoded
  split at decoded
  · cases decoded
  · split at decoded
    · cases decoded
    · rename_i named
      obtain ⟨rfl, wellFormed⟩ := read_sound (mapError_ok.mp decoded)
      exact ⟨ActionType.ofJson_exact.mp named, wellFormed⟩

theorem readPackage_encode (p : Package) : readPackage (encodePackage p) = .ok (some p) := by
  simp [readPackage, encodePackage]

theorem optional_int (n : Option Int) : optional Json.toInt (.ofOption .int n) = .ok n := by
  cases n <;> rfl

theorem optional_real (d : Option Double) : optional Json.toReal (.ofOption .real d) = .ok d := by
  cases d <;> rfl

theorem readBonus_encode (wellFormed : b.WellFormed) : readBonus (encodeBonus b) = .ok b := by
  have hours := wellFormed.hours
  have lasting : Json.truthy (.int b.hours) = true := by
    simp [Json.truthy]
    omega
  have checked : checkBonus b.amount b.hours = .ok (b.amount, b.hours) :=
    checkBonus_exact.mpr ⟨wellFormed.amount, hours, rfl, rfl⟩
  simp [readBonus, encodeBonus, lasting, optional_int, optional_real, checked]

theorem encodeBonus_truthy (b : Bonus) : (encodeBonus b).truthy = true := rfl

-- The flags of a message appear exactly with what they announce, so that a
-- missing flag is read as nothing in its place.
theorem readMessage_encode {included : Option Bonus} (wellFormed : ∀ b ∈ included, b.WellFormed) :
    readMessage (encode (.message text packageId package included)) =
      .ok (.message text packageId package included) := by
  have bonus : ∀ b ∈ included, readBonus (encodeBonus b) = .ok b :=
    fun b member => readBonus_encode (wellFormed b member)
  cases package with
  | none =>
    by_cases nothing : packageId.kind = .null
    · rw [Json.null_kind nothing]
      cases included <;>
        simp [readMessage, encode, Json.kind, bonusFields, readPackage, encodeBonus_truthy, bonus]
    · cases included <;>
        simp [readMessage, encode, nothing, packageField, bonusFields, readPackage, encodeBonus_truthy, bonus]
  | some p =>
    cases included <;>
      simp [readMessage, encode, packageField, bonusFields, readPackage_encode, encodeBonus_truthy, bonus]

theorem readTag_encode (wellFormed : (Payload.tag label).WellFormed) :
    readTag (encode (.tag label)) = .ok (.tag label) := by
  have visible : Text.trim label ≠ "" := wellFormed
  simp [readTag, encode, visible]

theorem readOffer_encode (wellFormed : (Payload.offer packageId package text).WellFormed) :
    readOffer (encode (.offer packageId package text)) = .ok (.offer packageId package text) := by
  have checked := checkOffer_exact.mpr wellFormed
  cases package with
  | none => simp [readOffer, encode, packageField, readPackage, checked]
  | some p => simp [readOffer, encode, packageField, readPackage_encode, checked]

theorem read_encode {p : Payload} (wellFormed : p.WellFormed) : read p.encode p.type = .ok p := by
  cases p with
  | message text packageId package included => exact readMessage_encode wellFormed
  | bonus b => simp [read, type, encode, readBonus_encode wellFormed]
  | tag label => exact readTag_encode wellFormed
  | offer packageId package text => exact readOffer_encode wellFormed
  | tripwire overlayId => simp [read, type, encode]
  | referral text => simp [read, type, encode]
  | modelHint modelId text => simp [read, type, encode, readModelHint]
  | none => rfl

theorem decode_encode {p : Payload} (wellFormed : p.WellFormed) : decode (.text p.type.name) p.encode = .ok p := by
  simp only [decode, Json.isKey, ActionType.ofJson_name, read_encode wellFormed]
  rfl

end Payload

namespace Action

theorem decode_wellFormed {a : Action} (decoded : decode v = .ok a) : a.payload.WellFormed := by
  unfold decode at decoded
  obtain ⟨_, _, decoded⟩ := bind_ok.mp decoded
  obtain ⟨_, _, decoded⟩ := bind_ok.mp decoded
  obtain ⟨payload, read, decoded⟩ := bind_ok.mp decoded
  obtain ⟨_, _, decoded⟩ := bind_ok.mp decoded
  obtain ⟨_, _, decoded⟩ := bind_ok.mp decoded
  cases decoded
  exact (Payload.decode_sound read).2

theorem config_kept (p : Payload) : (if p.encode.truthy then p.encode else .record []) = p.encode := by
  cases p <;> rfl

theorem decode_encode {a : Action} (wellFormed : a.payload.WellFormed) : decode a.encode = .ok a := by
  have payload := Payload.decode_encode wellFormed
  simp [decode, encode, type, config_kept, payload]

end Action
end Lifecycle
