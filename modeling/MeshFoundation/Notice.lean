import MeshFoundation.Composition.Decode
import MeshFoundation.Failure

/-!
# Notices

What is recorded for whoever runs a client, beside what the client answers. A notice
has a level, a fixed wording and named fields.
-/

set_option autoImplicit false

namespace MeshFoundation

/-- How much a notice matters. -/
inductive Level where
  | trace
  | debug
  | info
  | warn
  deriving DecidableEq, Repr

def Level.name : Level → String
  | .trace => "TRACE"
  | .debug => "DEBUG"
  | .info => "INFO"
  | .warn => "WARN"

/-- Something worth recording. -/
inductive Notice where
  /-- An opcode was not written because it has no bytes. -/
  | opcodeRefused (opcode : Opcode)
  /-- Another page of composition data is read as the first one. -/
  | pageAssumed (page : UInt8)
  /-- Bytes at the end of composition data belong to no complete record. -/
  | remainderIgnored (remainder elements : Nat)
  /-- A message was not recorded as pending because nothing answers it. -/
  | untracked (opcode : Opcode) (node : UInt16)
  /-- A request was not recorded because its status is still awaited. -/
  | busyRefused (request : Request) (node : UInt16)
  | timedOut (request : Request) (node : UInt16)
  | unanswered (request : Request) (node : UInt16)
  | sent (request : Request) (node netKey : UInt16)
  | sendFailed (request : Request) (node : UInt16) (error : TransportError)
  /-- A received message has no opcode that can be read. -/
  | undecodable (source : UInt16) (fault : Opcode.Fault)
  /-- A received message answers nothing. -/
  | unsolicited (opcode : Opcode) (source : UInt16)
  /-- A received message answers a request, but makes no report. -/
  | malformed (request : Request) (source : UInt16) (length : Nat)
  | resolved (request : Request) (node : UInt16)
  /-- Nobody listens any more for what became of a request. -/
  | unheard (request : Request) (node : UInt16)
  deriving DecidableEq, Repr

namespace Notice

/-- How much a notice matters. -/
def level : Notice → Level
  | .opcodeRefused _ | .unanswered _ _ | .sendFailed _ _ _ => .warn
  | .resolved _ _ => .info
  | .untracked _ _ => .trace
  | .pageAssumed _ | .remainderIgnored _ _ | .busyRefused _ _ | .timedOut _ _ | .sent _ _ _
  | .undecodable _ _ | .unsolicited _ _ | .malformed _ _ _ | .unheard _ _ => .debug

def message : Notice → String
  | .opcodeRefused _ => "refusing to encode opcode outside every range"
  | .pageAssumed _ => "decoding composition data page as page zero"
  | .remainderIgnored _ _ => "ignoring trailing composition data bytes"
  | .untracked _ _ => "opcode expects no reply; nothing to track"
  | .busyRefused _ _ => "refusing request: reply to an earlier request still awaited"
  | .timedOut _ _ => "request timed out"
  | .unanswered _ _ => "no response from node"
  | .sent _ _ _ => "configuration request sent"
  | .sendFailed _ _ _ => "transport failed to send configuration request"
  | .undecodable _ _ => "dropping access message with undecodable opcode"
  | .unsolicited _ _ => "dropping unsolicited access message"
  | .malformed _ _ _ => "dropping malformed status message"
  | .resolved _ _ => "configuration request resolved"
  | .unheard _ _ => "observer channel closed; dropping configuration result"

/-- The fields that name a request and a node. -/
def requestFields (request : Request) (node : UInt16) : List (String × String) :=
  [("request", request.name), ("address", Text.decimal node.toNat)]

def fields : Notice → List (String × String)
  | .opcodeRefused opcode => [("opcode", Text.decimal opcode.value.toNat)]
  | .pageAssumed page => [("page", Text.decimal page.toNat)]
  | .remainderIgnored remainder elements =>
    [("remainder", Text.decimal remainder), ("elements", Text.decimal elements)]
  | .untracked opcode node =>
    [("request", opcode.text), ("destination", Text.decimal node.toNat)]
  | .busyRefused request node => requestFields request node
  | .timedOut request node => requestFields request node
  | .unanswered request node => requestFields request node
  | .sent request node netKey =>
    requestFields request node ++ [("net_key_index", Text.decimal netKey.toNat)]
  | .sendFailed request node error => requestFields request node ++ [("error", error.message)]
  | .undecodable source fault =>
    [("source", Text.decimal source.toNat), ("error", fault.message)]
  | .unsolicited opcode source =>
    [("opcode", opcode.text), ("source", Text.decimal source.toNat)]
  | .malformed request source length =>
    [("request", request.name), ("source", Text.decimal source.toNat),
      ("len", Text.decimal length)]
  | .resolved request node => requestFields request node
  | .unheard request node => requestFields request node

end Notice

/-- The notices that writing an opcode gives rise to. -/
def Opcode.encodeNotices (op : Opcode) : List Notice :=
  match op.encode with
  | .ok _ => []
  | .error _ => [.opcodeRefused op]

/-- The notices that reading composition data gives rise to. -/
def Composition.readNotices (bytes : Bytes) : List Notice :=
  match Composition.read bytes with
  | .error _ => []
  | .ok reading =>
    (if reading.page = 0 then [] else [.pageAssumed reading.page]) ++
      (if reading.remainder = 0 then []
       else [.remainderIgnored reading.remainder reading.composition.elements.length])

end MeshFoundation
