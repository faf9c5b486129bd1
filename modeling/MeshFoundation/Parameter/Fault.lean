/-!
# Faults of parameters

A request is refused before anything else happens if one of its parameters has a
value that the message cannot carry or the node could never accept. There are six
such faults.
-/

set_option autoImplicit false

namespace MeshFoundation

/-- Why the parameters of a request are refused. -/
inductive ParameterFault where
  /-- The destination is the address of no single node. -/
  | destinationNotUnicast
  /-- The requested state of a feature is one that only a node can report. -/
  | stateNotSettable
  /-- The number of retransmissions needs more than three bits. -/
  | retransmitCount
  /-- The retransmission interval is no number of steps that five bits can count. -/
  | retransmitInterval
  /-- A key index needs more than twelve bits. -/
  | keyIndex
  /-- The time to live is one that no message may start with. -/
  | timeToLive
  deriving DecidableEq, Repr

def ParameterFault.message : ParameterFault → String
  | .destinationNotUnicast => "configuration requests must target a unicast address"
  | .stateNotSettable => "feature state \"not supported\" cannot be set"
  | .retransmitCount => "relay retransmit count exceeds 7"
  | .retransmitInterval =>
    "relay retransmit interval must be a multiple of 10 ms between 10 and 320"
  | .keyIndex => "key index exceeds 12 bits"
  | .timeToLive => "default TTL must be 0 or 2..=127"

end MeshFoundation
