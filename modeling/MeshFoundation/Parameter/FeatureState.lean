import MeshFoundation.Parameter.Fault

/-!
# States of a feature

A node can relay, act as a proxy or act as a friend. Each of these features is
switched off, switched on, or not there at all. Only the first two can be asked
for.
-/

set_option autoImplicit false

namespace MeshFoundation

inductive FeatureState where
  | disabled
  | enabled
  | notSupported
  deriving DecidableEq, Repr

namespace FeatureState

/-- The state with the given number. -/
def ofByte? (byte : UInt8) : Option FeatureState :=
  if byte = 0 then some .disabled
  else if byte = 1 then some .enabled
  else if byte = 2 then some .notSupported
  else none

/-- The number of a state that can be asked for. -/
def settable : FeatureState → Except ParameterFault UInt8
  | .disabled => .ok 0
  | .enabled => .ok 1
  | .notSupported => .error .stateNotSettable

def name : FeatureState → String
  | .disabled => "Disabled"
  | .enabled => "Enabled"
  | .notSupported => "NotSupported"

/-- A state that can be asked for is the one that its number stands for. -/
theorem ofByte?_of_settable (state : FeatureState) (byte : UInt8)
    (h : state.settable = .ok byte) : ofByte? byte = some state := by
  cases state with
  | disabled =>
    cases h
    rfl
  | enabled =>
    cases h
    rfl
  | notSupported => cases h

end FeatureState

end MeshFoundation
