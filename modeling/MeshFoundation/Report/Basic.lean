import MeshFoundation.Composition.Basic
import MeshFoundation.Message.Status
import MeshFoundation.Parameter.FeatureState
import MeshFoundation.Parameter.Model
import MeshFoundation.Parameter.Retransmit
import MeshFoundation.Parameter.StatusCode

/-!
# Reports

What a node says in a status message, one form for each of the ten messages. Key
indices are kept as the words that were received.
-/

set_option autoImplicit false

namespace MeshFoundation

/-- The content of a status message. -/
inductive Report where
  | compositionData (data : Composition)
  | defaultTtl (ttl : UInt8)
  | gattProxy (state : FeatureState)
  | friend (state : FeatureState)
  | relay (state : FeatureState) (retransmit : Retransmit)
  | beacon (on : Bool)
  | appKey (code : StatusCode) (net app : UInt16)
  | appKeyList (code : StatusCode) (net : UInt16) (apps : List UInt16)
  | modelApp (code : StatusCode) (element app : UInt16) (model : Model)
  | nodeReset
  deriving DecidableEq, Repr

namespace Report

/-- The status message that a report comes from. -/
def status : Report → Status
  | .compositionData _ => .compositionData
  | .defaultTtl _ => .defaultTtl
  | .gattProxy _ => .gattProxy
  | .friend _ => .friend
  | .relay _ _ => .relay
  | .beacon _ => .beacon
  | .appKey _ _ _ => .appKey
  | .appKeyList _ _ _ => .appKeyList
  | .modelApp _ _ _ _ => .modelApp
  | .nodeReset => .nodeReset

/-- The outcome that the node reports, in the messages that carry one. -/
def code? : Report → Option StatusCode
  | .appKey code _ _ => some code
  | .appKeyList code _ _ => some code
  | .modelApp code _ _ _ => some code
  | _ => none

end Report

end MeshFoundation
