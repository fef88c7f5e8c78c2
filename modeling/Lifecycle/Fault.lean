import Lifecycle.Formula.Parser
import Lifecycle.Json.Printer
import Lifecycle.Json.Parser
import Lifecycle.Timestamp.Parser

namespace Lifecycle

inductive Misuse where
  | integerOf (kind : Json.Kind)
  | realOf (kind : Json.Kind)
  | fieldOf (kind : Json.Kind)
  | itemsOf (kind : Json.Kind)
  | lengthOf (kind : Json.Kind)
  | keyOf (kind : Json.Kind)
  | order (sign : String) (left right : Json.Kind)
  | bound
  | patternOn (kind : Json.Kind)
  | partOf (kind : Json.Kind)
  | document (kind : Json.Kind)
  | pathOf (kind : Json.Kind)
  | countOf (kind : Json.Kind)
  | seed
  | groupId (kind : Json.Kind)
  | priority (kind : Json.Kind)
  | unknownSetting (name : String)
  | missingSetting (name : String)
deriving DecidableEq, Repr

def inQuotes (s : String) : String := "'" ++ s ++ "'"

def Misuse.message : Misuse → String
  | .integerOf kind =>
    "int() argument must be a string, a bytes-like object or a real number, not " ++ inQuotes kind.name
  | .realOf kind => "float() argument must be a string or a real number, not " ++ inQuotes kind.name
  | .fieldOf .list => "list indices must be integers or slices, not str"
  | .fieldOf .text => "string indices must be integers, not 'str'"
  | .fieldOf kind => inQuotes kind.name ++ " object is not subscriptable"
  | .itemsOf kind => inQuotes kind.name ++ " object is not iterable"
  | .lengthOf kind => "object of type " ++ inQuotes kind.name ++ " has no len()"
  | .keyOf kind => "unhashable type: " ++ inQuotes kind.name
  | .order sign left right =>
    inQuotes sign ++ " not supported between instances of " ++ inQuotes left.name ++ " and " ++
      inQuotes right.name
  | .bound => "slice indices must be integers or None or have an __index__ method"
  | .patternOn kind => "expected string or bytes-like object, got " ++ inQuotes kind.name
  | .partOf kind => "'in <string>' requires string as left operand, not " ++ kind.name
  | .document kind => "the JSON object must be str, bytes or bytearray, not " ++ kind.name
  | .pathOf kind => "expected str, bytes or os.PathLike object, not " ++ kind.name
  | .countOf kind => inQuotes kind.name ++ " object cannot be interpreted as an integer"
  | .seed => "The only supported seed types are: None,\nint, float, str, bytes, and bytearray."
  | .groupId kind => "group_id must be int, got " ++ kind.name
  | .priority kind => "priority must be int, got " ++ kind.name
  | .unknownSetting name => "unknown setting " ++ inQuotes name
  | .missingSetting name => "missing setting " ++ inQuotes name

inductive Obstacle where
  | missing
  | present
  | noDirectory
  | directory
  | longName
deriving DecidableEq, Repr

def Obstacle.number : Obstacle → Nat
  | .missing => 2
  | .present => 17
  | .noDirectory => 20
  | .directory => 21
  | .longName => 36

def Obstacle.wording : Obstacle → String
  | .missing => "No such file or directory"
  | .present => "File exists"
  | .noDirectory => "Not a directory"
  | .directory => "Is a directory"
  | .longName => "File name too long"

inductive Fault where
  | formula (error : Formula.SyntaxError)
  | numeral (error : NumeralError)
  | timestamp (error : TimestampError)
  | document (refusal : Json.Refusal)
  | missingKey (key : String)
  | missingPlace (index : Nat)
  | misuse (error : Misuse)
  | lacksOperation (kind : Json.Kind) (operation : String)
  | noCreation (user : Json)
  | noEntry (user : Json)
  | negativePurchases (count : Int) (user : String)
  | negativeGenerations (count : Int) (user : String)
  | bonusAmount (amount : Json)
  | bonusLifetime (hours : Json)
  | emptyOffer
  | emptyTag
  | actionType (type : Json)
  | actionConfig (type : String) (cause : Fault)
  | triggerType (type : Json)
  | negativeGroup (id : Int)
  | danglingTarget (transition target : String)
  | noActiveVersion
  | noUsers
  | timeout (call : String) (limit : Json)
  | maxDepth (value : Json)
  | ioTimeout (value : Json)
  | batchLimit
  | variable (name raw : String)
  | dateRange
  | daySpan (days : Int)
  | wideSpan
  | path (obstacle : Obstacle) (spelled : String)
  | nullCharacter
  | unencodable (flaw : Text.Unencodable)
  | undecodable (flaw : Text.Undecodable)

namespace Fault

def refusalMessage : Json.Refusal → String
  | .flaw cause position line column =>
    cause.wording ++ ": line " ++ Text.decimalOfNat line ++ " column " ++ Text.decimalOfNat column ++
      " (char " ++ Text.decimalOfNat position ++ ")"
  | .numeral error => error.message
  | .halfPair => "half of a surrogate pair"

def message : Fault → String
  | .formula error => error.message
  | .numeral error => error.message
  | .timestamp error => error.message
  | .document refusal => refusalMessage refusal
  | .missingKey key => Text.quoted key
  | .missingPlace index => Text.decimalOfNat index
  | .misuse error => error.message
  | .lacksOperation kind operation =>
    inQuotes kind.name ++ " object has no attribute " ++ inQuotes operation
  | .noCreation user => "User " ++ user.quoted ++ " has no createdAt"
  | .noEntry user => "Assignment for " ++ user.quoted ++ " has no enteredAt"
  | .negativePurchases count user =>
    "Negative completed_purchase_count (" ++ Text.decimalOfInt count ++ ") for user " ++ Text.quoted user
  | .negativeGenerations count user =>
    "Negative total_generated (" ++ Text.decimalOfInt count ++ ") for user " ++ Text.quoted user
  | .bonusAmount amount => "Bonus amount must be positive, got " ++ amount.display
  | .bonusLifetime hours => "expires_in_hours must be positive, got " ++ hours.display
  | .emptyOffer => "Special offer needs a package_id or a custom_package"
  | .emptyTag => "Tag must not be empty"
  | .actionType type => "Invalid action type: " ++ type.quoted
  | .actionConfig type cause => "Invalid config for " ++ type ++ ": " ++ cause.message
  | .triggerType type => "Invalid trigger type: " ++ type.quoted
  | .negativeGroup id => "group_id must be >= 0, got " ++ Text.decimalOfInt id
  | .danglingTarget transition target =>
    "Transition " ++ Text.quoted transition ++ " points to unknown state " ++ Text.quoted target
  | .noActiveVersion => "No active FSM version"
  | .noUsers => "No users provided"
  | .timeout call limit => call ++ " exceeded " ++ limit.display ++ "s"
  | .maxDepth value => "max_depth must be >= 1, got " ++ value.display
  | .ioTimeout value => "io_timeout_seconds must be > 0, got " ++ value.display
  | .batchLimit => "batch limits must be >= 1"
  | .variable name raw => "Invalid value for " ++ name ++ ": " ++ Text.quoted raw
  | .dateRange => "date value out of range"
  | .daySpan days =>
    "days=" ++ Text.decimalOfInt days ++ "; must have magnitude <= 999999999"
  | .wideSpan => "Python int too large to convert to C int"
  | .path obstacle spelled =>
    "[Errno " ++ Text.decimalOfNat obstacle.number ++ "] " ++ obstacle.wording ++ ": " ++
      Text.quoted spelled
  | .nullCharacter => "embedded null byte"
  | .unencodable flaw => flaw.message
  | .undecodable flaw => flaw.message

-- Faults by what they are about; a caller may recover from some families only.
inductive Family where
  | badValue
  | badKind
  | missingKey
  | noOperation
  | overflow
  | lookup
  | timeout
  | file
deriving DecidableEq, Repr

def numeralFamily : NumeralError → Family
  | .infiniteInteger => .overflow
  | .realOverflow => .overflow
  | _ => .badValue

def family : Fault → Family
  | .numeral error => numeralFamily error
  | .missingKey _ => .missingKey
  | .missingPlace _ => .missingKey
  | .misuse _ => .badKind
  | .lacksOperation .. => .noOperation
  | .noActiveVersion => .lookup
  | .timeout .. => .timeout
  | .dateRange => .overflow
  | .daySpan _ => .overflow
  | .wideSpan => .overflow
  | .path .. => .file
  | _ => .badValue

end Fault
end Lifecycle
