import Lifecycle.Files.Tree

namespace Lifecycle.Files

variable {files before middle after : Files}

-- What stands at a place, directories aside.
def fileAt? (files : Files) (place : Location) : Option Entry := (files.entry? place).filter (· ≠ .directory)

-- Every directory stays one, so every path that led somewhere leads there still.
structure Extends (before after : Files) : Prop where
  here : after.here = before.here
  directories : ∀ place, before.entry? place = some .directory → after.entry? place = some .directory

theorem Extends.refl (files : Files) : Extends files files := ⟨rfl, fun _ stands => stands⟩

theorem Extends.trans (first : Extends before middle) (later : Extends middle after) : Extends before after :=
  ⟨later.here.trans first.here, fun place stands => later.directories place (first.directories place stands)⟩

theorem Extends.follow (grown : Extends before after) (led : before.follow place names = .ok last) :
    after.follow place names = .ok last := by
  induction names generalizing place with
  | nil => exact led
  | cons name rest ih =>
    rw [Files.follow] at led ⊢
    cases stepped : before.step place name with
    | error o => simp [stepped] at led
    | ok next =>
      have again : after.step place name = .ok next := by
        unfold step at stepped ⊢
        split at stepped
        · cases stepped
        · cases stepped
        · cases stepped
        · rename_i stands
          rw [grown.directories place stands]
          exact stepped
      simp only [stepped] at led
      simp only [again]
      exact ih led

theorem Extends.locate (grown : Extends before after) (led : before.locate path = .ok place) :
    after.locate path = .ok place := by
  unfold Files.locate start at led ⊢
  rw [grown.here]
  split at led
  · cases led
  · split at led
    · cases led
    · rename_i named short
      rw [if_neg named, if_neg short]
      exact grown.follow led

structure Grows (before after : Files) : Prop extends Extends before after where
  files : ∀ place, after.fileAt? place = before.fileAt? place

theorem Grows.refl (files : Files) : Grows files files := ⟨.refl files, fun _ => rfl⟩

theorem Grows.trans (first : Grows before middle) (later : Grows middle after) : Grows before after :=
  ⟨first.toExtends.trans later.toExtends, fun place => (later.files place).trans (first.files place)⟩

end Lifecycle.Files
