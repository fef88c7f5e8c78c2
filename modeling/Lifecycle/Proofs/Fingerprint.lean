import Lifecycle.Fingerprint
import Lifecycle.Proofs.Json.Delimited
import Lifecycle.Proofs.Selection.Ordering

namespace Lifecycle

namespace Text

theorem hexOfNat_length (fits : n < 16 ^ (width + 1)) : (hexOfNat (width + 1) n).toList.length = width + 1 := by
  induction width generalizing n with
  | zero => rw [hexOfNat, Nat.toDigits_of_lt_base (by omega), String.toList_ofList]; rfl
  | succ width ih =>
    rw [hexOfNat_last (Nat.succ_pos width), List.length_append, ih (by omega), List.length_singleton]

theorem hexOfNat_inj (left : m < 16 ^ (width + 1)) (right : n < 16 ^ (width + 1))
    (same : (hexOfNat (width + 1) m).toList = (hexOfNat (width + 1) n).toList) : m = n := by
  have digit {d e : Nat} (low : d < 16) (small : e < 16) (same : Nat.digitChar d = Nat.digitChar e) : d = e := by
    have read := Json.hexDigit_digitChar low
    rw [same, Json.hexDigit_digitChar small] at read
    exact (Option.some.inj read).symm
  induction width generalizing m n with
  | zero =>
    have left : m < 16 := left
    have right : n < 16 := right
    simp only [hexOfNat, Nat.toDigits_of_lt_base left, Nat.toDigits_of_lt_base right, String.toList_ofList] at same
    exact digit left right (List.cons.inj same).1
  | succ width ih =>
    rw [hexOfNat_last (Nat.succ_pos width), hexOfNat_last (Nat.succ_pos width)] at same
    obtain ⟨front, last⟩ := List.append_inj' same rfl
    have high := ih (by omega) (by omega) front
    have low := digit (Nat.mod_lt m (by decide)) (Nat.mod_lt n (by decide)) (List.cons.inj last).1
    omega

end Text

namespace Fingerprint

theorem word_fits (x : UInt32) : x.toNat < 16 ^ (7 + 1) := Nat.lt_of_lt_of_eq x.toNat_lt (by decide)

theorem word_delimited : Delimited fun x : UInt32 => (Text.hexOfNat 8 x.toNat).toList := by
  have single (x y : UInt32) (same : (Text.hexOfNat 8 x.toNat).toList = (Text.hexOfNat 8 y.toNat).toList) : x = y :=
    UInt32.toNat_inj.mp (Text.hexOfNat_inj (word_fits x) (word_fits y) same)
  exact delimited_width (fun x => Text.hexOfNat_length (word_fits x)) single

theorem hex_inj (same : hex v = hex w) : v = w := by
  have written := congrArg String.toList same
  simp only [hex, String.toList_join, List.flatMap_map] at written
  have words : v.toList = w.toList := delimited_flatMap word_delimited rfl written
  cases v
  cases w
  simpa [Digest.Words.toList] using words

-- What is kept of an assignment: its user, its stage and its version.
def kept (a : Assignment) : String × String × Int := (a.userId, a.stageId, a.versionId)

def written (facts : String × String × Int) : List Char :=
  '{' :: ((Json.escaped "stateId").toList ++ ':' :: ((Json.escaped facts.2.1).toList ++
    ',' :: ((Json.escaped "userId").toList ++ ':' :: ((Json.escaped facts.1).toList ++
      ',' :: ((Json.escaped "versionId").toList ++ ':' :: ((Text.decimalOfInt facts.2.2).toList ++ ['}']))))))

theorem row_written (a : Assignment) : (row a).compact.toList = written (kept a) := by
  simp only [row, written, kept, Json.compact, Json.compactFields, String.intercalate_cons_cons,
    String.intercalate_singleton, String.toList_append, List.append_assoc]
  rfl

theorem written_delimited : Delimited written := by
  rintro ⟨user, stage, version⟩ ⟨otherUser, otherStage, otherVersion⟩ front back same
  simp only [written, List.append_assoc, List.cons_append, List.cons.injEq, true_and,
    List.append_cancel_left_eq] at same
  obtain ⟨rfl, rest⟩ := Json.escaped_delimited _ _ _ _ same
  simp only [List.cons.injEq, true_and, List.append_cancel_left_eq] at rest
  obtain ⟨rfl, rest⟩ := Json.escaped_delimited _ _ _ _ rest
  simp only [List.cons.injEq, true_and, List.append_cancel_left_eq] at rest
  have brace : Text.isAsciiDigit '}' = false := by decide
  obtain ⟨rfl, tails⟩ := Json.integer_delimited brace version otherVersion front back (by simpa using rest)
  exact ⟨rfl, tails⟩

theorem rows_written (all : List Assignment) :
    (Json.list (all.map row)).compact.toList = '[' :: listed written (all.map kept) := by
  suffices items : (",".intercalate (Json.compactItems (all.map row))).toList ++ [']'] =
      listed written (all.map kept) by
    rw [← items]
    simp [Json.compact]
  induction all with
  | nil => rfl
  | cons a rest ih =>
    cases rest with
    | nil => simp [Json.compactItems, listed, row_written]
    | cons b rest =>
      simp only [List.map_cons, Json.compactItems] at ih
      simp only [List.map_cons, Json.compactItems, String.intercalate_cons_cons, String.toList_append, row_written,
        List.append_assoc, ih, listed]
      rfl

theorem canonical_written (all : List Assignment) : (canonical all).toList =
    '[' :: listed written ((all.map kept).mergeSort fun a b => a.1 ≤ b.1) := by
  rw [canonical, rows_written, List.map_mergeSort]
  intro a _ b _
  rfl

theorem canonical_sorted (xs ys : List Assignment) : canonical xs = canonical ys ↔
    (xs.map kept).mergeSort (fun a b => a.1 ≤ b.1) = (ys.map kept).mergeSort fun a b => a.1 ≤ b.1 := by
  rw [← String.toList_inj, canonical_written, canonical_written]
  constructor
  · intro same
    apply listed_inj written_delimited _ (List.cons.inj same).2
    intro facts rest bare
    cases bare
  · intro same
    rw [same]

theorem sorted_exact {xs ys : List Assignment} (left : (xs.map (·.userId)).Nodup)
    (right : (ys.map (·.userId)).Nodup) :
    (xs.map kept).mergeSort (fun a b => a.1 ≤ b.1) = (ys.map kept).mergeSort (fun a b => a.1 ≤ b.1) ↔
      ∀ facts, facts ∈ xs.map kept ↔ facts ∈ ys.map kept := by
  have users (all : List Assignment) : (all.map kept).map (·.1) = all.map (·.userId) := by
    rw [List.map_map]
    rfl
  rw [← users] at left right
  constructor
  · intro same facts
    rw [← List.mem_mergeSort, same, List.mem_mergeSort]
  · intro same
    apply mergeSort_arrival _ _ _ ((List.perm_ext_iff_of_nodup left.of_map right.of_map).mpr same)
    · simpa using fun a b c => String.le_trans
    · simpa using fun a b => String.le_total a b
    · intro a first b second ab ba
      exact List.inj_on_of_nodup_map left first second
        (String.le_antisymm (of_decide_eq_true ab) (of_decide_eq_true ba))

-- Two messages that the hash does not tell apart.
def Collision (m n : ByteArray) : Prop := m ≠ n ∧ Digest.sha256 m = Digest.sha256 n

theorem ofAssignments_exact (xs ys : List Assignment) : ofAssignments xs = ofAssignments ys ↔
    canonical xs = canonical ys ∨ Collision (canonical xs).toUTF8 (canonical ys).toUTF8 := by
  constructor
  · intro same
    by_cases text : canonical xs = canonical ys
    · exact .inl text
    · exact .inr ⟨fun bytes => text (String.toByteArray_inj.mp bytes), hex_inj same⟩
  · rintro (text | ⟨_, hashes⟩)
    · rw [ofAssignments, text, ofAssignments]
    · rw [ofAssignments, hashes, ofAssignments]

theorem canonical_identifies {xs ys : List Assignment} (left : (xs.map (·.userId)).Nodup)
    (right : (ys.map (·.userId)).Nodup) :
    (canonical xs = canonical ys ↔ ∀ facts, facts ∈ xs.map kept ↔ facts ∈ ys.map kept) ∧
      (ofAssignments xs = ofAssignments ys ↔ (∀ facts, facts ∈ xs.map kept ↔ facts ∈ ys.map kept) ∨
        Collision (canonical xs).toUTF8 (canonical ys).toUTF8) := by
  have text := (canonical_sorted xs ys).trans (sorted_exact left right)
  refine ⟨text, ?_⟩
  rw [ofAssignments_exact, text]

def morning : List Assignment :=
  [⟨"ann \"a\"", "v1-new", 1, .midnight 2026 1 1⟩, ⟨"renée", "v1-paywall", 1, .midnight 2026 1 1⟩]

def evening : List Assignment :=
  [⟨"renée", "v1-paywall", 1, .midnight 2026 1 2⟩, ⟨"ann \"a\"", "v1-new", 1, .midnight 2026 1 2⟩]

def moved : List Assignment := morning.map fun a => { a with stageId := "v1-paywall" }

theorem canonical_identifies_evening :
    (morning.map (·.userId)).Nodup ∧ (evening.map (·.userId)).Nodup ∧ (moved.map (·.userId)).Nodup ∧
      canonical morning = canonical evening ∧ ofAssignments morning = ofAssignments evening ∧
        canonical morning ≠ canonical moved := by
  have first : (morning.map (·.userId)).Nodup := by decide
  have second : (evening.map (·.userId)).Nodup := by decide
  have third : (moved.map (·.userId)).Nodup := by decide
  have same : ∀ facts, facts ∈ morning.map kept ↔ facts ∈ evening.map kept := fun _ =>
    (List.Perm.swap ("renée", "v1-paywall", 1) ("ann \"a\"", "v1-new", 1) []).mem_iff
  have other : ("ann \"a\"", "v1-new", 1) ∉ moved.map kept := by decide
  refine ⟨first, second, third, (canonical_identifies first second).1.mpr same,
    (canonical_identifies first second).2.mpr (.inl same), ?_⟩
  intro text
  exact other (((canonical_identifies first third).1.mp text _).mp List.mem_cons_self)

end Fingerprint
end Lifecycle
