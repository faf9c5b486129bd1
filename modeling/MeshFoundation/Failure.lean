import MeshFoundation.Message.Request
import MeshFoundation.Opcode.Codec
import MeshFoundation.Parameter.Fault
import MeshFoundation.Transport

/-!
# Failures of requests

How a request can fail: at once, because its parameters are refused or because an
answer of the same kind is still awaited from the node; when it is sent; or later,
when the node stays silent.
-/

set_option autoImplicit false

namespace MeshFoundation

inductive Failure where
  /-- A status that would also answer this request is still awaited from the node. -/
  | busy (request : Request) (node : UInt16)
  | noResponse (request : Request) (node : UInt16)
  /-- The parameters of the request are refused. -/
  | invalidParameter (fault : ParameterFault)
  /-- The transport did not accept the message. -/
  | transport (error : TransportError)
  /-- The message could not be written, or a message could not be read. -/
  | opcode (fault : Opcode.Fault)
  deriving DecidableEq, Repr

namespace Failure

/-- An address as messages show it. -/
def addressText (node : UInt16) : String := Text.hexadecimal 4 node.toNat

def message : Failure → String
  | .busy request node =>
    request.name ++ " to " ++ addressText node ++
      " refused: a reply from that node is already awaited"
  | .noResponse request node =>
    "no response from node " ++ addressText node ++ " to " ++ request.name
  | .invalidParameter fault => "invalid parameter: " ++ fault.message
  | .transport error => "transport failure: " ++ error.message
  | .opcode fault => "opcode error: " ++ fault.message

/-- The wording of the failure underneath, if there is one. -/
def cause? : Failure → Option String
  | .transport error => some error.message
  | .opcode fault => some fault.message
  | _ => none

/-- Whether the same request may succeed when it is made again. -/
def isRetriable : Failure → Bool
  | .busy _ _ | .noResponse _ _ | .transport _ => true
  | .invalidParameter _ | .opcode _ => false

end Failure

end MeshFoundation
