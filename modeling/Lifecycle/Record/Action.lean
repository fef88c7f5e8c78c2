import Lifecycle.Json.Reading
import Lifecycle.Text.Basic

namespace Lifecycle

inductive ActionType where
  | sendMessage
  | grantBonus
  | tagUser
  | specialOffer
  | showTripwire
  | enableReferral
  | switchModelHint
  | noAction
deriving DecidableEq, Repr

namespace ActionType

def all : List ActionType := [
  .sendMessage, .grantBonus, .tagUser, .specialOffer, .showTripwire, .enableReferral,
  .switchModelHint, .noAction]

def name : ActionType → String
  | .sendMessage => "SEND_MESSAGE"
  | .grantBonus => "GRANT_BURNABLE_BONUS"
  | .tagUser => "TAG_USER"
  | .specialOffer => "SEND_SPECIAL_OFFER"
  | .showTripwire => "SHOW_TRIPWIRE"
  | .enableReferral => "ENABLE_REFERRAL"
  | .switchModelHint => "SWITCH_MODEL_HINT"
  | .noAction => "NO_ACTION"

def ofName? (s : String) : Option ActionType := all.find? fun t => t.name = s

def ofJson? : Json → Option ActionType
  | .text s => ofName? s
  | _ => none

end ActionType

structure Package where
  name : String
  price : Double
  credits : Int
deriving DecidableEq

structure Bonus where
  amount : Nat
  hours : Nat
  generations : Option Int
  topUp : Option Double
deriving DecidableEq

inductive Payload where
  | message (text : String) (packageId : Json) (package : Option Package) (bonus : Option Bonus)
  | bonus (bonus : Bonus)
  | tag (tag : String)
  | offer (packageId : Json) (package : Option Package) (text : String)
  | tripwire (overlayId : Json)
  | referral (text : String)
  | modelHint (modelId text : String)
  | none

namespace Payload

def type : Payload → ActionType
  | .message .. => .sendMessage
  | .bonus _ => .grantBonus
  | .tag _ => .tagUser
  | .offer .. => .specialOffer
  | .tripwire _ => .showTripwire
  | .referral _ => .enableReferral
  | .modelHint .. => .switchModelHint
  | .none => .noAction

def optional {α : Type} (read : Json → Except Fault α) : Json → Except Fault (Option α)
  | .null => .ok Option.none
  | .text "" => .ok Option.none
  | v => (read v).map some

def readPackage (v : Json) : Except Fault (Option Package) :=
  if !v.truthy then .ok Option.none
  else do
    let name ← v.fieldOr "name" (.text "")
    let price ← (← v.fieldOr "price" (.int 0)).toReal
    let credits ← (← v.fieldOr "credits" (.int 0)).toInt
    return some ⟨name.display, price, credits⟩

def checkBonus (amount hours : Int) : Except Fault (Nat × Nat) :=
  if amount ≤ 0 then .error (.bonusAmount (.int amount))
  else if hours ≤ 0 then .error (.bonusLifetime (.int hours))
  else .ok (amount.toNat, hours.toNat)

def readBonus (v : Json) : Except Fault Bonus := do
  let amount ← (← v.field "amount").toInt
  let lifetime ← v.fieldOrNull "expiresInHours"
  let hours ← if lifetime.truthy then lifetime.toInt else .ok 24
  let generations ← optional Json.toInt (← v.fieldOrNull "conditionGenerations")
  let topUp ← optional Json.toReal (← v.fieldOrNull "conditionTopUpAmount")
  let (amount, hours) ← checkBonus amount hours
  return ⟨amount, hours, generations, topUp⟩

def readMessage (v : Json) : Except Fault Payload := do
  let found ← v.field? "burnableBonus"
  let included ← v.fieldOr "includeBonus" (.bool found.isSome)
  let bonus := if included.truthy then found.getD .null else .null
  let offered ← v.fieldOr "includeOffer" (.bool true)
  let text ← v.fieldOr "message" (.text "")
  let packageId ← if offered.truthy then v.fieldOrNull "packageId" else pure .null
  let package ← if offered.truthy then readPackage (← v.fieldOrNull "customPackage") else pure Option.none
  let bonus ← if bonus.truthy then (readBonus bonus).map some else pure Option.none
  return .message text.display packageId package bonus

def readTag (v : Json) : Except Fault Payload := do
  let tag := (← v.field "tag").display
  if (Text.trim tag).isEmpty then throw .emptyTag else return .tag tag

def checkOffer (packageId : Json) (package : Option Package) : Except Fault Unit :=
  if packageId.kind = .null && package.isNone then .error .emptyOffer else .ok ()

def readOffer (v : Json) : Except Fault Payload := do
  let packageId ← v.fieldOrNull "packageId"
  let package ← readPackage (← v.fieldOrNull "customPackage")
  let text ← v.fieldOr "message" (.text "")
  checkOffer packageId package
  return .offer packageId package text.display

def readModelHint (v : Json) : Except Fault Payload := do
  let model ← v.field "modelId"
  let text ← v.fieldOr "message" (.text "")
  return .modelHint model.display text.display

def read (v : Json) : ActionType → Except Fault Payload
  | .sendMessage => readMessage v
  | .grantBonus => (readBonus v).map .bonus
  | .tagUser => readTag v
  | .specialOffer => readOffer v
  | .showTripwire => (v.fieldOrNull "overlayId").map .tripwire
  | .enableReferral => (v.fieldOr "message" (.text "")).map fun text => .referral text.display
  | .switchModelHint => readModelHint v
  | .noAction => .ok .none

-- A missing field and a value of the wrong kind are blamed on the configuration
-- of the action; a value out of range speaks for itself.
def blame (type : ActionType) : Fault → Fault
  | .missingKey key => .actionConfig type.name (.missingKey key)
  | .misuse error => .actionConfig type.name (.misuse error)
  | fault => fault

def decode (type : Json) (v : Json) : Except Fault Payload :=
  if !type.isKey then .error (.misuse (.keyOf type.kind))
  else match ActionType.ofJson? type with
    | Option.none => .error (.actionType type)
    | some t => (read v t).mapError (blame t)

def encodePackage (p : Package) : Json := .record [
  ("name", .text p.name), ("price", .real p.price), ("credits", .int p.credits)]

def encodeBonus (b : Bonus) : Json := .record [
  ("amount", .int (b.amount : Int)),
  ("expiresInHours", .int (b.hours : Int)),
  ("conditionGenerations", .ofOption .int b.generations),
  ("conditionTopUpAmount", .ofOption .real b.topUp)]

def packageField (package : Option Package) : List (String × Json) :=
  match package with
  | Option.none => []
  | some p => [("customPackage", encodePackage p)]

def bonusFields (bonus : Option Bonus) : List (String × Json) :=
  match bonus with
  | Option.none => []
  | some b => [("includeBonus", .bool true), ("burnableBonus", encodeBonus b)]

def encode : Payload → Json
  | .message text packageId package included =>
    let offer := if packageId.kind = .null && package.isNone then []
      else [("includeOffer", .bool true), ("packageId", packageId)] ++ packageField package
    .record ([("message", .text text)] ++ offer ++ bonusFields included)
  | .bonus b => encodeBonus b
  | .tag label => .record [("tag", .text label)]
  | .offer packageId package text =>
    .record ([("packageId", packageId), ("message", .text text)] ++ packageField package)
  | .tripwire overlayId => .record [("overlayId", overlayId)]
  | .referral text => .record [("message", .text text)]
  | .modelHint modelId text => .record [("modelId", .text modelId), ("message", .text text)]
  | .none => .record []

end Payload

structure Action where
  payload : Payload
  order : Int

namespace Action

def type (a : Action) : ActionType := a.payload.type

def decode (v : Json) : Except Fault Action := do
  let type ← v.field "type"
  let found ← v.fieldOrNull "config"
  let payload ← Payload.decode type (if found.truthy then found else .record [])
  let order ← (← v.fieldOr "order" (.int 0)).toInt
  return ⟨payload, order⟩

def encode (a : Action) : Json := .record [
  ("type", .text a.type.name), ("config", a.payload.encode), ("order", .int a.order)]

end Action
end Lifecycle
