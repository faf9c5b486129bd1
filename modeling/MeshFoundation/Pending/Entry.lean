import MeshFoundation.Message.Request

/-!
# Pending requests

Access messages carry no number that would tie an answer to its request. All that an
answer shows is which status message it is and which node it comes from, so these two
together are the key by which a pending request is found.

Keys are used again and again. What tells one pending request from a later one under
the same key is its number, which is given out when the request is recorded; the
ticket of a request holds both.
-/

set_option autoImplicit false

namespace MeshFoundation.Pending

/-- What answers a request: a status message, and the node that it has to come from. -/
structure Key where
  status : Status
  node : UInt16
  deriving DecidableEq, Repr

/-- A request to a node. -/
structure Awaited where
  request : Request
  node : UInt16
  deriving DecidableEq, Repr

/-- What answers the request. -/
def Awaited.key (a : Awaited) : Key := ⟨a.request.status, a.node⟩

/-- The order of requests in lists: by node, and for the same node by opcode. -/
def Awaited.order (a b : Awaited) : Ordering :=
  (compare a.node b.node).then (compare a.request.opcode.value b.request.opcode.value)

/-- The request with the given opcode to a node, if the opcode is that of a request. -/
def Awaited.ofOpcode? (op : Opcode) (node : UInt16) : Option Awaited :=
  (Request.ofOpcode? op).map fun request => ⟨request, node⟩

/-- What a message with the given opcode from a node answers, if the opcode is that of a
status message. -/
def Key.ofOpcode? (op : Opcode) (node : UInt16) : Option Key :=
  (Status.ofOpcode? op).map fun status => ⟨status, node⟩

/-- Names one recorded request for good. -/
structure Ticket where
  key : Key
  number : UInt64
  deriving DecidableEq, Repr

/-- A recorded request. -/
structure Entry where
  /-- The number that tells this request from all others. -/
  number : UInt64
  awaited : Awaited
  /-- When its time runs out, in milliseconds. -/
  deadline : Nat
  deriving DecidableEq, Repr

end MeshFoundation.Pending
