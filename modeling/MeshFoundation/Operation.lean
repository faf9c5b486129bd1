import MeshFoundation.Failure
import MeshFoundation.Parameter.FeatureState
import MeshFoundation.Parameter.KeyIndex
import MeshFoundation.Parameter.Model
import MeshFoundation.Parameter.Retransmit
import MeshFoundation.Parameter.TimeToLive

/-!
# Operations

What a client can be asked to do with a node: one operation for each of the eighteen
requests, with its arguments. An operation turns into the payload of an access
message, the opcode of its request followed by parameters of a fixed layout, unless
one of its arguments is refused. The arguments are checked in the order in which they
are written here, and only then the address of the node.
-/

set_option autoImplicit false

namespace MeshFoundation

/-- The sixteen bytes of an application key. -/
abbrev AppKey := Vector UInt8 16

/-- Something to be done with a node. -/
inductive Operation where
  | getComposition
  | getDefaultTtl
  | setDefaultTtl (ttl : UInt8)
  | getGattProxy
  | setGattProxy (state : FeatureState)
  | getRelay
  | setRelay (state : FeatureState) (retransmit : Retransmit)
  | getBeacon
  | setBeacon (on : Bool)
  | getFriend
  | setFriend (state : FeatureState)
  | getAppKeys (net : UInt16)
  | addAppKey (net app : UInt16) (key : AppKey)
  | updateAppKey (net app : UInt16) (key : AppKey)
  | deleteAppKey (net app : UInt16)
  | bindModelApp (element app : UInt16) (model : Model)
  | unbindModelApp (element app : UInt16) (model : Model)
  | resetNode
  deriving DecidableEq, Repr

namespace Operation

/-- The request that an operation makes. -/
def request : Operation → Request
  | .getComposition => .compositionDataGet
  | .getDefaultTtl => .defaultTtlGet
  | .setDefaultTtl _ => .defaultTtlSet
  | .getGattProxy => .gattProxyGet
  | .setGattProxy _ => .gattProxySet
  | .getRelay => .relayGet
  | .setRelay _ _ => .relaySet
  | .getBeacon => .beaconGet
  | .setBeacon _ => .beaconSet
  | .getFriend => .friendGet
  | .setFriend _ => .friendSet
  | .getAppKeys _ => .appKeyGet
  | .addAppKey _ _ _ => .appKeyAdd
  | .updateAppKey _ _ _ => .appKeyUpdate
  | .deleteAppKey _ _ => .appKeyDelete
  | .bindModelApp _ _ _ => .modelAppBind
  | .unbindModelApp _ _ _ => .modelAppUnbind
  | .resetNode => .nodeReset

/-- The bytes of two key indices, of which the network key index is checked first. -/
def keyPair (net app : UInt16) : Except ParameterFault Bytes := do
  let net ← KeyIndex.check net
  let app ← KeyIndex.check app
  return KeyIndex.pack net app

/-- The bytes that name an element, an application key and a model. -/
def binding (element app : UInt16) (model : Model) : Except ParameterFault Bytes := do
  let app ← KeyIndex.check app
  return Bytes.ofWord element ++ Bytes.ofWord app ++ model.bytes

/-- The parameters of an operation, unless one of its arguments is refused. -/
def parameters : Operation → Except ParameterFault Bytes
  | .getComposition => .ok [0]
  | .setDefaultTtl ttl => do
    let ttl ← TimeToLive.check ttl
    return [ttl]
  | .setGattProxy state | .setFriend state => do
    let state ← state.settable
    return [state]
  | .setRelay state retransmit => do
    let state ← state.settable
    let retransmit ← retransmit.encode
    return [state, retransmit]
  | .setBeacon on => .ok [if on then 1 else 0]
  | .getAppKeys net => do
    let net ← KeyIndex.check net
    return Bytes.ofWord net
  | .addAppKey net app key | .updateAppKey net app key => do
    let indices ← keyPair net app
    return indices ++ key.toList
  | .deleteAppKey net app => keyPair net app
  | .bindModelApp element app model | .unbindModelApp element app model =>
    binding element app model
  | .getDefaultTtl | .getGattProxy | .getRelay | .getBeacon | .getFriend | .resetNode => .ok []

/-- Whether an address is that of a single element of a node. -/
def isUnicast (address : UInt16) : Bool := 0x0001 ≤ address && address ≤ 0x7FFF

def payload (op : Operation) (node : UInt16) : Except Failure Bytes :=
  match op.parameters with
  | .error fault => .error (.invalidParameter fault)
  | .ok params =>
    if isUnicast node then
      match op.request.opcode.encode with
      | .ok bytes => .ok (bytes ++ params)
      | .error fault => .error (.opcode fault)
    else .error (.invalidParameter .destinationNotUnicast)

end Operation

end MeshFoundation
