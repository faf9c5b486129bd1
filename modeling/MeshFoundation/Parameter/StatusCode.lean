/-!
# Status codes

Some status messages begin with a code that says whether the node did what it was
asked to do, and if not, why. Eighteen codes have a meaning; the others are
reserved and are passed on with their number.
-/

set_option autoImplicit false

namespace MeshFoundation

/-- The outcome of a request as the node reports it. -/
inductive StatusCode where
  | success
  | invalidAddress
  | invalidModel
  | invalidAppKeyIndex
  | invalidNetKeyIndex
  | insufficientResources
  | keyIndexAlreadyStored
  | invalidPublishParameters
  | notASubscribeModel
  | storageFailure
  | featureNotSupported
  | cannotUpdate
  | cannotRemove
  | cannotBind
  | temporarilyUnableToChangeState
  | cannotSet
  | unspecifiedError
  | invalidBinding
  | reserved (number : UInt8)
  deriving DecidableEq, Repr

namespace StatusCode

/-- The codes that have a meaning, in the order of their numbers. -/
def assigned : List StatusCode :=
  [.success, .invalidAddress, .invalidModel, .invalidAppKeyIndex, .invalidNetKeyIndex,
    .insufficientResources, .keyIndexAlreadyStored, .invalidPublishParameters,
    .notASubscribeModel, .storageFailure, .featureNotSupported, .cannotUpdate, .cannotRemove,
    .cannotBind, .temporarilyUnableToChangeState, .cannotSet, .unspecifiedError, .invalidBinding]

/-- The code with the given number. -/
def ofByte (byte : UInt8) : StatusCode :=
  match assigned[byte.toNat]? with
  | some code => code
  | none => .reserved byte

/-- The name of a code. -/
def name : StatusCode → String
  | .success => "Success"
  | .invalidAddress => "InvalidAddress"
  | .invalidModel => "InvalidModel"
  | .invalidAppKeyIndex => "InvalidAppKeyIndex"
  | .invalidNetKeyIndex => "InvalidNetKeyIndex"
  | .insufficientResources => "InsufficientResources"
  | .keyIndexAlreadyStored => "KeyIndexAlreadyStored"
  | .invalidPublishParameters => "InvalidPublishParameters"
  | .notASubscribeModel => "NotASubscribeModel"
  | .storageFailure => "StorageFailure"
  | .featureNotSupported => "FeatureNotSupported"
  | .cannotUpdate => "CannotUpdate"
  | .cannotRemove => "CannotRemove"
  | .cannotBind => "CannotBind"
  | .temporarilyUnableToChangeState => "TemporarilyUnableToChangeState"
  | .cannotSet => "CannotSet"
  | .unspecifiedError => "UnspecifiedError"
  | .invalidBinding => "InvalidBinding"
  | .reserved _ => "Reserved"

/-- Whether the node did what it was asked to do. -/
def isSuccess (code : StatusCode) : Bool := code = .success

end StatusCode

end MeshFoundation
