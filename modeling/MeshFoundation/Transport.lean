import MeshFoundation.Bytes.Order

/-!
# The transport

What carries access messages into the mesh. The client hands it one message at a
time and learns, possibly much later, whether the message was accepted.
-/

set_option autoImplicit false

namespace MeshFoundation

/-- An access message on its way to a node. -/
structure Message where
  destination : UInt16
  /-- The index of the network key that the message is to be secured with. -/
  netKey : UInt16
  payload : Bytes
  deriving DecidableEq, Repr

/-- Why the transport did not accept a message. -/
inductive TransportError where
  /-- The message itself was refused, for the reason that is given. -/
  | rejected (reason : String)
  /-- There is nobody to hand the message to. -/
  | unavailable
  /-- The way to the mesh failed. -/
  | io (reason : String)
  deriving DecidableEq, Repr

def TransportError.message : TransportError → String
  | .rejected reason => "access message rejected: " ++ reason
  | .unavailable => "mesh daemon unavailable"
  | .io reason => "transport I/O error: " ++ reason

/-- How the transport deals with a message: how long it takes over it, and the error
that it ends with, if it does. -/
structure Delivery where
  /-- In milliseconds. -/
  delay : Nat
  error? : Option TransportError
  deriving DecidableEq, Repr

def Delivery.immediate : Delivery := ⟨0, none⟩

end MeshFoundation
