import Lifecycle.Sample.Draw
import Lifecycle.StockGraph
import Lifecycle.Store

namespace Lifecycle.Sample

def baseTime : Timestamp := Timestamp.midnight 2025 1 1

inductive Profile where
  | dead
  | free
  | freeloader
  | payer
  | failedPayer
  | inactive
  | blocked
deriving DecidableEq, Repr

namespace Profile

def weights : List (Profile × Nat) := [
  (.dead, 15), (.free, 25), (.freeloader, 15), (.payer, 20), (.failedPayer, 8), (.inactive, 12), (.blocked, 5)]

def pays : Profile → Bool
  | .payer => true
  | .failedPayer => true
  | .inactive => true
  | _ => false

end Profile

def models : List String := ["flux-schnell", "flux-pro", "sdxl", "imagen-3"]

structure Generations where
  count : Nat
  lastHour : Nat
  model : String

structure Purchases where
  count : Nat
  lastHour : Nat

-- All that chance decides about a user. Hours count from sign-up, but for the
-- age, which counts back from the base time.
structure Lot where
  ageHours : Nat
  profile : Profile
  id : Nat
  credits : Nat
  activeHour : Nat
  generations : Option Generations
  purchases : Option Purchases
  failureDelay : Nat
  idleDays : Nat

namespace Lot

def drawGenerations (ageHours : Nat) : Draw Generations := do
  let count ← Draw.between 1 60
  let lastHour ← Draw.between 0 ageHours
  let model ← Draw.oneOf models ""
  return ⟨count, lastHour, model⟩

def drawPurchases (ageHours : Nat) : Draw Purchases := do
  let count ← Draw.between 1 5
  let lastHour ← Draw.between 0 ageHours
  return ⟨count, lastHour⟩

def draw : Draw Lot := do
  let ageHours ← Draw.between 1 (24 * 120)
  let profile ← Draw.weighted Profile.weights .blocked
  let id ← Draw.wideBits 4
  let credits ← Draw.between 20 200
  let activeHour ← Draw.between 0 ageHours
  let generations ← if profile = .dead then pure none else some <$> drawGenerations ageHours
  let credits ← if profile = .freeloader then Draw.between 0 19 else pure credits
  let purchases ← if profile.pays then some <$> drawPurchases ageHours else pure none
  let failureDelay ← if profile = .failedPayer then Draw.between 1 48 else pure 1
  let idleDays ← if profile = .inactive then Draw.between 15 90 else pure 0
  return ⟨ageHours, profile, id, credits, activeHour, generations, purchases, failureDelay, idleDays⟩

end Lot

def identifier (bits : Nat) : String :=
  let low := bits % twoPow 62 + twoPow 63
  let mid := bits / twoPow 64 % twoPow 12 + 4 * twoPow 12
  let high := bits / twoPow 80 % twoPow 48
  let digits := (Text.hexOfNat 12 high ++ Text.hexOfNat 4 mid ++ Text.hexOfNat 16 low).toList
  let part (start count : Nat) := String.ofList ((digits.drop start).take count)
  "-".intercalate [part 0 8, part 8 4, part 12 4, part 16 4, part 20 12]

def later (t : Timestamp) (hours : Nat) : Timestamp :=
  { t with clock := t.clock + ((hours * Timestamp.microsPerHour : Nat) : Int) }

def earlier (t : Timestamp) (hours : Nat) : Timestamp :=
  { t with clock := t.clock - ((hours * Timestamp.microsPerHour : Nat) : Int) }

-- The history that a lot stands for. An inactive user was last seen some days
-- ago, though never before signing up, and the payment after the last failed.
def Lot.facts (lot : Lot) (now : Timestamp) : UserFacts :=
  let createdAt := earlier now lot.ageHours
  let paidAt := lot.purchases.map fun p => later createdAt p.lastHour
  let idleSince := earlier now (min lot.ageHours (24 * lot.idleDays))
  { id := identifier lot.id
    credits := (lot.credits : Int)
    createdAt
    totalGenerated := (lot.generations.map (·.count)).getD 0
    tags := if lot.purchases.isSome then [.text "payer"] else []
    lastActiveAt := some (if lot.profile = .inactive then idleSince else later createdAt lot.activeHour)
    isBlocked := lot.profile = .blocked
    completedPurchases := (lot.purchases.map (·.count)).getD 0
    lastCompletedPurchaseAt := paidAt
    lastFailedPurchaseAt :=
      if lot.profile = .failedPayer || lot.profile = .inactive then paidAt.map (later · lot.failureDelay) else none
    lastGenerationAt := lot.generations.map fun g => later createdAt g.lastHour
    lastGenerationModel := .ofOption .text (lot.generations.map (·.model))
    activeOverlays := [] }

def drawUsers (now : Timestamp) : Nat → Draw (List UserFacts)
  | 0 => return []
  | count + 1 => do
    let lot ← Lot.draw
    let rest ← drawUsers now count
    return lot.facts now :: rest

def users (count seed : Int) : List UserFacts :=
  (drawUsers baseTime count.toNat (Twister.ofSeed seed)).1

def dataset (count seed : Int) : Json := .record [
  ("versions", .list [(StockGraph.version 1).encode]),
  ("states", .list ((StockGraph.stages 1).map Stage.encode)),
  ("transitions", .list ((StockGraph.transitions 1).map Transition.encode)),
  ("users", .list ((users count seed).map UserFacts.encode)),
  ("assignments", .list [])]

end Lifecycle.Sample
