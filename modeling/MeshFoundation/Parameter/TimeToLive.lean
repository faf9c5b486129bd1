import MeshFoundation.Parameter.Fault

/-!
# Default time to live

The number of hops that a node's messages may take. Zero keeps a message with its
direct neighbours; one would mean the same and is not allowed; seven bits hold the
rest.
-/

set_option autoImplicit false

namespace MeshFoundation.TimeToLive

/-- Lets a time to live pass that a message may start with. -/
def check (ttl : UInt8) : Except ParameterFault UInt8 :=
  if ttl = 0 ∨ (2 ≤ ttl ∧ ttl ≤ 127) then .ok ttl else .error .timeToLive

end MeshFoundation.TimeToLive
