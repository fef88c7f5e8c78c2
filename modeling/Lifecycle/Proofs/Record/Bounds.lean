import Lifecycle.Proofs.Json.Bounds
import Lifecycle.Proofs.Record.Action
import Lifecycle.Record.Graph
import Lifecycle.Record.Facts

namespace Lifecycle

variable {v : Json}

theorem Numeral.zero_short : Short 0 := ⟨Nat.pow_pos (by decide)⟩

namespace Json

theorem bounded_zero : (Json.int 0).Bounded := Numeral.zero_short

theorem bounded_append : Bounded (.record (fs ++ gs)) ↔ Bounded (.record fs) ∧ Bounded (.record gs) := by
  induction fs with
  | nil => simp
  | cons f fs ih =>
    obtain ⟨k, w⟩ := f
    simp [ih, and_assoc]

theorem bounded_option {α : Type} {write : α → Json} {a : Option α} (each : ∀ b ∈ a, (write b).Bounded) :
    (ofOption write a).Bounded := by
  cases a with
  | none => trivial
  | some a => exact each a rfl

theorem bounded_timestamp (t : Timestamp) : (ofTimestamp t).Bounded := trivial

theorem bounded_each {α : Type} {xs : List Json} {all : List α} {read : Json → Except Fault α} {write : α → Json}
    (bounded : ∀ x ∈ xs, x.Bounded) (each : ∀ x a, x.Bounded → read x = .ok a → (write a).Bounded)
    (done : xs.mapM read = .ok all) : Bounded (.list (all.map write)) := by
  rw [bounded_list]
  intro w member
  obtain ⟨a, had, rfl⟩ := List.mem_map.mp member
  induction xs generalizing all with
  | nil =>
    cases done
    cases had
  | cons x xs ih =>
    rw [List.mapM_cons] at done
    obtain ⟨b, first, done⟩ := bind_ok.mp done
    obtain ⟨rest, others, done⟩ := bind_ok.mp done
    cases done
    obtain ⟨begun, later⟩ := List.forall_mem_cons.mp bounded
    rcases List.mem_cons.mp had with rfl | behind
    · exact each x a begun first
    · exact ih later others behind (List.mem_map_of_mem behind)

end Json

open Json

theorem Version.decode_bounded {r : Version} (bounded : v.Bounded) (decoded : decode v = .ok r) : r.encode.Bounded := by
  unfold decode at decoded
  obtain ⟨found, given, decoded⟩ := bind_ok.mp decoded
  obtain ⟨id, read, decoded⟩ := bind_ok.mp decoded
  obtain ⟨name, named, decoded⟩ := bind_ok.mp decoded
  obtain ⟨active, _, decoded⟩ := bind_ok.mp decoded
  cases decoded
  have short : Numeral.Short id := toInt_short (field_bounded bounded given) read
  have kept : name.Bounded := fieldOr_bounded bounded (bounded_text "") named
  simp [encode, short, kept]

theorem Stage.decode_bounded {r : Stage} (bounded : v.Bounded) (decoded : decode v = .ok r) : r.encode.Bounded := by
  unfold decode at decoded
  obtain ⟨id, _, decoded⟩ := bind_ok.mp decoded
  obtain ⟨name, named, decoded⟩ := bind_ok.mp decoded
  obtain ⟨found, given, decoded⟩ := bind_ok.mp decoded
  obtain ⟨version, read, decoded⟩ := bind_ok.mp decoded
  obtain ⟨initial, _, decoded⟩ := bind_ok.mp decoded
  obtain ⟨terminal, _, decoded⟩ := bind_ok.mp decoded
  cases decoded
  have short : Numeral.Short version := toInt_short (field_bounded bounded given) read
  have kept : name.Bounded := field_bounded bounded named
  simp [encode, short, kept]

theorem Condition.decode_bounded {c : Condition} (bounded : v.Bounded) (decoded : decode v = .ok c) :
    c.encode.Bounded := by
  unfold decode at decoded
  obtain ⟨field, named, decoded⟩ := bind_ok.mp decoded
  obtain ⟨operator, compared, decoded⟩ := bind_ok.mp decoded
  obtain ⟨value, _, decoded⟩ := bind_ok.mp decoded
  obtain ⟨group, given, decoded⟩ := bind_ok.mp decoded
  obtain ⟨id, read, decoded⟩ := branch_ok decoded
  obtain ⟨groupId, checked, decoded⟩ := bind_ok.mp decoded
  cases decoded
  have short : Numeral.Short id := by
    split at read
    · exact toInt_short (fieldOrNull_bounded bounded given) read
    · cases read
      exact Numeral.zero_short
  have kept : (groupId : Int) = id := by
    unfold checkGroup at checked
    split at checked
    · rename_i natural
      cases checked
      exact Int.toNat_of_nonneg natural
    · cases checked
  simp [encode, kept, short, field_bounded bounded named, field_bounded bounded compared]

theorem Assignment.decode_bounded {a : Assignment} (bounded : v.Bounded) (decoded : decode v = .ok a) :
    Numeral.Short a.versionId := by
  unfold decode at decoded
  obtain ⟨_, _, decoded⟩ := bind_ok.mp decoded
  obtain ⟨entered, _, decoded⟩ := bind_ok.mp decoded
  cases entered with
  | none =>
    obtain ⟨_, _, decoded⟩ := bind_ok.mp decoded
    cases decoded
  | some t =>
    obtain ⟨_, same, decoded⟩ := bind_ok.mp decoded
    cases same
    obtain ⟨user, _, decoded⟩ := bind_ok.mp decoded
    obtain ⟨stage, _, decoded⟩ := bind_ok.mp decoded
    obtain ⟨found, given, decoded⟩ := bind_ok.mp decoded
    obtain ⟨version, read, decoded⟩ := bind_ok.mp decoded
    cases decoded
    exact toInt_short (field_bounded bounded given) read

theorem Assignment.encode_bounded {a : Assignment} (short : Numeral.Short a.versionId) : a.encode.Bounded := by
  simp [encode, short, bounded_timestamp]

namespace Payload

theorem optional_each {α : Type} {Holds : α → Prop} {read : Json → Except Fault α} {found : Option α}
    (each : ∀ a, read v = .ok a → Holds a) (done : optional read v = .ok found) : ∀ a ∈ found, Holds a := by
  unfold optional at done
  split at done
  · cases done
    nofun
  · cases done
    nofun
  · obtain ⟨a, given, rfl⟩ := map_ok.mp done
    rintro b ⟨⟩
    exact each a given

theorem readPackage_bounded (bounded : v.Bounded) (read : readPackage v = .ok package) :
    ∀ p ∈ package, (encodePackage p).Bounded := by
  unfold readPackage at read
  split at read
  · cases read
    nofun
  · obtain ⟨name, _, read⟩ := bind_ok.mp read
    obtain ⟨cost, costs, read⟩ := bind_ok.mp read
    obtain ⟨price, priced, read⟩ := bind_ok.mp read
    obtain ⟨credit, credited, read⟩ := bind_ok.mp read
    obtain ⟨credits, counted, read⟩ := bind_ok.mp read
    cases read
    rintro p ⟨⟩
    have inRange : price.InRange := toReal_inRange (fieldOr_bounded bounded bounded_zero costs) priced
    have short : Numeral.Short credits := toInt_short (fieldOr_bounded bounded bounded_zero credited) counted
    simp [encodePackage, inRange, short]

theorem readBonus_bounded (bounded : v.Bounded) (read : readBonus v = .ok b) : (encodeBonus b).Bounded := by
  unfold readBonus at read
  obtain ⟨quantity, given, read⟩ := bind_ok.mp read
  obtain ⟨amount, counted, read⟩ := bind_ok.mp read
  obtain ⟨lifetime, lasting, read⟩ := bind_ok.mp read
  obtain ⟨hours, timed, read⟩ := branch_ok read
  obtain ⟨times, limited, read⟩ := bind_ok.mp read
  obtain ⟨generations, drawn, read⟩ := bind_ok.mp read
  obtain ⟨money, asked, read⟩ := bind_ok.mp read
  obtain ⟨topUp, paid, read⟩ := bind_ok.mp read
  obtain ⟨⟨a, h⟩, checked, read⟩ := bind_ok.mp read
  cases read
  obtain ⟨_, _, same, alike⟩ := checkBonus_exact.mp checked
  have amounts : Numeral.Short amount := toInt_short (field_bounded bounded given) counted
  have lasts : Numeral.Short hours := by
    split at timed
    · exact toInt_short (fieldOrNull_bounded bounded lasting) timed
    · cases timed
      exact ⟨Nat.lt_of_lt_of_le (by decide) (Nat.pow_le_pow_right (by decide) (by decide : 2 ≤ Numeral.digitLimit))⟩
  have counts : (ofOption Json.int generations).Bounded :=
    bounded_option (optional_each (fun _ => toInt_short (fieldOrNull_bounded bounded limited)) drawn)
  have sums : (ofOption Json.real topUp).Bounded :=
    bounded_option (optional_each (fun _ => toReal_inRange (fieldOrNull_bounded bounded asked)) paid)
  simp [encodeBonus, same, alike, amounts, lasts, counts, sums]

theorem packageField_bounded (each : ∀ p ∈ package, (encodePackage p).Bounded) :
    Bounded (.record (packageField package)) := by
  cases package with
  | none => exact bounded_empty
  | some p => simp [packageField, each p rfl]

theorem readMessage_bounded (bounded : v.Bounded) (read : readMessage v = .ok p) : p.encode.Bounded := by
  unfold readMessage at read
  obtain ⟨found, given, read⟩ := bind_ok.mp read
  obtain ⟨included, _, read⟩ := bind_ok.mp read
  obtain ⟨offered, _, read⟩ := bind_ok.mp read
  obtain ⟨text, _, read⟩ := bind_ok.mp read
  obtain ⟨packageId, named, read⟩ := branch_ok read
  obtain ⟨package, custom, read⟩ := longBranch_ok read
  obtain ⟨bonus, counted, read⟩ := branch_ok read
  cases read
  have id : packageId.Bounded := by
    split at named
    · exact fieldOrNull_bounded bounded named
    · cases named
      trivial
  have packages : Bounded (.record (packageField package)) := by
    apply packageField_bounded
    split at custom
    · obtain ⟨w, held, custom⟩ := bind_ok.mp custom
      exact readPackage_bounded (fieldOrNull_bounded bounded held) custom
    · cases custom
      nofun
  have bonuses : Bounded (.record (bonusFields bonus)) := by
    cases bonus with
    | none => exact bounded_empty
    | some b =>
      have chosen : (if included.truthy then found.getD .null else .null).Bounded := by
        split
        · cases found with
          | none => trivial
          | some w => exact tryField_bounded bounded given
        · trivial
      generalize (if included.truthy then found.getD .null else .null) = held at counted chosen
      split at counted
      · obtain ⟨_, made, same⟩ := map_ok.mp counted
        cases same
        simp [bonusFields, readBonus_bounded chosen made]
      · cases counted
  simp only [encode, bounded_append]
  refine ⟨⟨by simp, ?_⟩, bonuses⟩
  split
  · exact bounded_empty
  · exact bounded_append.mpr ⟨by simp [id], packages⟩

theorem readOffer_bounded (bounded : v.Bounded) (read : readOffer v = .ok p) : p.encode.Bounded := by
  unfold readOffer at read
  obtain ⟨packageId, named, read⟩ := bind_ok.mp read
  obtain ⟨custom, given, read⟩ := bind_ok.mp read
  obtain ⟨package, offered, read⟩ := bind_ok.mp read
  obtain ⟨text, _, read⟩ := bind_ok.mp read
  obtain ⟨_, _, read⟩ := bind_ok.mp read
  cases read
  have packages := packageField_bounded (readPackage_bounded (fieldOrNull_bounded bounded given) offered)
  simp [encode, fieldOrNull_bounded bounded named, packages]

theorem read_bounded {p : Payload} (bounded : v.Bounded) (done : read v t = .ok p) : p.encode.Bounded := by
  cases t with
  | sendMessage => exact readMessage_bounded bounded done
  | grantBonus =>
    obtain ⟨b, given, same⟩ := map_ok.mp done
    cases same
    exact readBonus_bounded bounded given
  | tagUser =>
    unfold read readTag at done
    obtain ⟨found, _, done⟩ := bind_ok.mp done
    dsimp only at done
    split at done
    · cases done
    · cases done
      simp [encode]
  | specialOffer => exact readOffer_bounded bounded done
  | showTripwire =>
    obtain ⟨overlay, given, same⟩ := map_ok.mp done
    cases same
    simp [encode, fieldOrNull_bounded bounded given]
  | enableReferral =>
    obtain ⟨_, _, same⟩ := map_ok.mp done
    cases same
    simp [encode]
  | switchModelHint =>
    obtain ⟨_, _, done⟩ := bind_ok.mp done
    obtain ⟨_, _, done⟩ := bind_ok.mp done
    cases done
    simp [encode]
  | noAction =>
    cases done
    exact bounded_empty

theorem decode_bounded {p : Payload} (bounded : v.Bounded) (decoded : decode name v = .ok p) : p.encode.Bounded := by
  unfold decode at decoded
  split at decoded
  · cases decoded
  · split at decoded
    · cases decoded
    · exact read_bounded bounded (mapError_ok.mp decoded)

end Payload

theorem Json.bounded_or (bounded : v.Bounded) (fallback : other.Bounded) :
    (if v.truthy then v else other).Bounded := by
  split
  · exact bounded
  · exact fallback

theorem Action.decode_bounded {a : Action} (bounded : v.Bounded) (decoded : decode v = .ok a) : a.encode.Bounded := by
  unfold decode at decoded
  obtain ⟨type, _, decoded⟩ := bind_ok.mp decoded
  obtain ⟨found, given, decoded⟩ := bind_ok.mp decoded
  obtain ⟨payload, carried, decoded⟩ := bind_ok.mp decoded
  obtain ⟨place, ordered, decoded⟩ := bind_ok.mp decoded
  obtain ⟨order, read, decoded⟩ := bind_ok.mp decoded
  cases decoded
  have config : payload.encode.Bounded :=
    Payload.decode_bounded (bounded_or (fieldOrNull_bounded bounded given) bounded_empty) carried
  have short : Numeral.Short order := toInt_short (fieldOr_bounded bounded bounded_zero ordered) read
  simp [encode, config, short]

theorem Transition.decode_bounded {t : Transition} (bounded : v.Bounded) (decoded : decode v = .ok t) :
    t.encode.Bounded := by
  unfold decode at decoded
  obtain ⟨timeout, timed, decoded⟩ := bind_ok.mp decoded
  obtain ⟨id, _, decoded⟩ := bind_ok.mp decoded
  obtain ⟨source, _, decoded⟩ := bind_ok.mp decoded
  obtain ⟨target, _, decoded⟩ := bind_ok.mp decoded
  obtain ⟨found, given, decoded⟩ := bind_ok.mp decoded
  obtain ⟨version, numbered, decoded⟩ := bind_ok.mp decoded
  obtain ⟨trigger, _, decoded⟩ := bind_ok.mp decoded
  obtain ⟨event, raised, decoded⟩ := bind_ok.mp decoded
  obtain ⟨minutes, counted, decoded⟩ := branch_ok decoded
  obtain ⟨rank, ranked, decoded⟩ := bind_ok.mp decoded
  obtain ⟨priority, preferred, decoded⟩ := bind_ok.mp decoded
  obtain ⟨guards, guarded, decoded⟩ := bind_ok.mp decoded
  obtain ⟨tests, listed, decoded⟩ := bind_ok.mp decoded
  obtain ⟨conditions, tested, decoded⟩ := bind_ok.mp decoded
  obtain ⟨acts, acting, decoded⟩ := bind_ok.mp decoded
  obtain ⟨steps, enumerated, decoded⟩ := bind_ok.mp decoded
  obtain ⟨actions, acted, decoded⟩ := bind_ok.mp decoded
  have nothing : (Json.list []).Bounded := bounded_list.mpr nofun
  have versions : Numeral.Short version := toInt_short (field_bounded bounded given) numbered
  have priorities : Numeral.Short priority := toInt_short (fieldOr_bounded bounded bounded_zero ranked) preferred
  have events : (if event.truthy then event else .null).Bounded :=
    bounded_or (fieldOrNull_bounded bounded raised) trivial
  have timeouts : (ofOption Json.int minutes).Bounded := by
    apply bounded_option
    intro i held
    split at counted
    · cases counted
      cases held
    · obtain ⟨n, read, same⟩ := map_ok.mp counted
      cases same
      cases held
      exact toInt_short (fieldOrNull_bounded bounded timed) read
  have written : Bounded (.list (conditions.map Condition.encode)) :=
    bounded_each (items_bounded (fieldOr_bounded bounded nothing guarded) listed)
      (fun _ _ => Condition.decode_bounded) tested
  have carried : Bounded (.list (actions.map Action.encode)) :=
    bounded_each (items_bounded (fieldOr_bounded bounded nothing acting) enumerated)
      (fun _ _ => Action.decode_bounded) acted
  split at decoded
  · cases decoded
  · cases decoded
    simp only [encode, bounded_cons, bounded_text, true_and]
    exact ⟨versions, events, timeouts, priorities, written, carried, bounded_empty⟩

namespace UserFacts

theorem checkCounts_same (checked : checkCounts purchases generations user = .ok (p, g)) :
    (p : Int) = purchases ∧ (g : Int) = generations := by
  unfold checkCounts at checked
  split at checked
  · cases checked
  · split at checked
    · cases checked
    · cases checked
      omega

theorem encodeGeneration_bounded {u : UserFacts} (bounded : u.lastGenerationModel.Bounded) :
    u.encodeGeneration.Bounded := by
  unfold encodeGeneration
  split
  · trivial
  · simp [bounded_timestamp, bounded]

theorem decode_bounded {u : UserFacts} (bounded : v.Bounded) (decoded : decode v = .ok u) : u.encode.Bounded := by
  unfold decode at decoded
  obtain ⟨_, _, decoded⟩ := bind_ok.mp decoded
  obtain ⟨created, _, decoded⟩ := bind_ok.mp decoded
  cases created with
  | none =>
    obtain ⟨_, _, decoded⟩ := bind_ok.mp decoded
    cases decoded
  | some t =>
    obtain ⟨_, same, decoded⟩ := bind_ok.mp decoded
    cases same
    obtain ⟨found, drawn, decoded⟩ := bind_ok.mp decoded
    obtain ⟨id, _, decoded⟩ := bind_ok.mp decoded
    obtain ⟨balance, owned, decoded⟩ := bind_ok.mp decoded
    obtain ⟨credits, counted, decoded⟩ := bind_ok.mp decoded
    obtain ⟨total, made, decoded⟩ := bind_ok.mp decoded
    obtain ⟨generated, summed, decoded⟩ := bind_ok.mp decoded
    obtain ⟨labels, tagged, decoded⟩ := bind_ok.mp decoded
    obtain ⟨tags, labelled, decoded⟩ := bind_ok.mp decoded
    obtain ⟨_, _, decoded⟩ := bind_ok.mp decoded
    obtain ⟨active, _, decoded⟩ := bind_ok.mp decoded
    obtain ⟨blocked, _, decoded⟩ := bind_ok.mp decoded
    obtain ⟨orders, ordered, decoded⟩ := bind_ok.mp decoded
    obtain ⟨purchases, bought, decoded⟩ := bind_ok.mp decoded
    obtain ⟨_, _, decoded⟩ := bind_ok.mp decoded
    obtain ⟨completed, _, decoded⟩ := bind_ok.mp decoded
    obtain ⟨_, _, decoded⟩ := bind_ok.mp decoded
    obtain ⟨failed, _, decoded⟩ := bind_ok.mp decoded
    obtain ⟨_, _, decoded⟩ := bind_ok.mp decoded
    obtain ⟨generation, _, decoded⟩ := bind_ok.mp decoded
    obtain ⟨model, named, decoded⟩ := bind_ok.mp decoded
    obtain ⟨layers, shown, decoded⟩ := bind_ok.mp decoded
    obtain ⟨overlays, stacked, decoded⟩ := bind_ok.mp decoded
    obtain ⟨⟨p, g⟩, checked, decoded⟩ := bind_ok.mp decoded
    cases decoded
    obtain ⟨same, alike⟩ := checkCounts_same checked
    have nothing : (Json.list []).Bounded := bounded_list.mpr nofun
    have optional {a : Option Timestamp} : (ofOption ofTimestamp a).Bounded :=
      bounded_option fun t _ => bounded_timestamp t
    have drawing : (if found.truthy then found else .record []).Bounded :=
      bounded_or (fieldOrNull_bounded bounded drawn) bounded_empty
    have favourite : (orNull model).Bounded := bounded_or (fieldOrNull_bounded drawing named) trivial
    have credited : Numeral.Short credits := toInt_short (fieldOr_bounded bounded bounded_zero owned) counted
    have generating : Numeral.Short generated := toInt_short (fieldOr_bounded bounded bounded_zero made) summed
    have purchased : Numeral.Short purchases := toInt_short (fieldOr_bounded bounded bounded_zero ordered) bought
    have labelling := items_bounded (fieldOr_bounded bounded nothing tagged) labelled
    have stacking := items_bounded (fieldOr_bounded bounded nothing shown) stacked
    simp only [encode, bounded_cons, bounded_text, bounded_bool, bounded_list, bounded_int, bounded_timestamp, true_and,
      same, alike]
    exact ⟨credited, generating, labelling, optional, purchased, optional, optional, encodeGeneration_bounded favourite,
      stacking, bounded_empty⟩

end UserFacts
end Lifecycle
