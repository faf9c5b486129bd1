import MeshFoundation.Message.Status

/-!
# Request messages

The eighteen configuration requests that a client sends, each with its name, its
opcode and the status message that answers it. Several requests share one status:
the answer to any change of an application key is the same message, so such
requests to one node cannot be told apart by their answers.
-/

set_option autoImplicit false

namespace MeshFoundation

/-- A request of the configuration model. -/
inductive Request where
  | appKeyAdd
  | appKeyUpdate
  | appKeyDelete
  | appKeyGet
  | compositionDataGet
  | beaconGet
  | beaconSet
  | defaultTtlGet
  | defaultTtlSet
  | friendGet
  | friendSet
  | gattProxyGet
  | gattProxySet
  | relayGet
  | relaySet
  | modelAppBind
  | modelAppUnbind
  | nodeReset
  deriving DecidableEq, Repr

namespace Request

/-- All requests, in the order of their opcodes. -/
def all : List Request :=
  [.appKeyAdd, .appKeyUpdate, .appKeyDelete, .appKeyGet, .compositionDataGet, .beaconGet,
    .beaconSet, .defaultTtlGet, .defaultTtlSet, .friendGet, .friendSet, .gattProxyGet,
    .gattProxySet, .relayGet, .relaySet, .modelAppBind, .modelAppUnbind, .nodeReset]

/-- The name of a request, which also describes it to an observer. -/
def name : Request → String
  | .appKeyAdd => "AppKeyAdd"
  | .appKeyUpdate => "AppKeyUpdate"
  | .appKeyDelete => "AppKeyDelete"
  | .appKeyGet => "AppKeyGet"
  | .compositionDataGet => "DeviceCompositionGet"
  | .beaconGet => "BeaconGet"
  | .beaconSet => "BeaconSet"
  | .defaultTtlGet => "DefaultTTLGet"
  | .defaultTtlSet => "DefaultTTLSet"
  | .friendGet => "FriendGet"
  | .friendSet => "FriendSet"
  | .gattProxyGet => "GATTProxyGet"
  | .gattProxySet => "GATTProxySet"
  | .relayGet => "RelayGet"
  | .relaySet => "RelaySet"
  | .modelAppBind => "ModelAppBind"
  | .modelAppUnbind => "ModelAppUnbind"
  | .nodeReset => "NodeReset"

def opcode : Request → Opcode
  | .appKeyAdd => ⟨0x00⟩
  | .appKeyUpdate => ⟨0x01⟩
  | .appKeyDelete => ⟨0x8000⟩
  | .appKeyGet => ⟨0x8001⟩
  | .compositionDataGet => ⟨0x8008⟩
  | .beaconGet => ⟨0x8009⟩
  | .beaconSet => ⟨0x800A⟩
  | .defaultTtlGet => ⟨0x800C⟩
  | .defaultTtlSet => ⟨0x800D⟩
  | .friendGet => ⟨0x800F⟩
  | .friendSet => ⟨0x8010⟩
  | .gattProxyGet => ⟨0x8012⟩
  | .gattProxySet => ⟨0x8013⟩
  | .relayGet => ⟨0x8026⟩
  | .relaySet => ⟨0x8027⟩
  | .modelAppBind => ⟨0x803D⟩
  | .modelAppUnbind => ⟨0x803F⟩
  | .nodeReset => ⟨0x8049⟩

/-- The status message that answers a request. -/
def status : Request → Status
  | .appKeyAdd | .appKeyUpdate | .appKeyDelete => .appKey
  | .appKeyGet => .appKeyList
  | .compositionDataGet => .compositionData
  | .beaconGet | .beaconSet => .beacon
  | .defaultTtlGet | .defaultTtlSet => .defaultTtl
  | .friendGet | .friendSet => .friend
  | .gattProxyGet | .gattProxySet => .gattProxy
  | .relayGet | .relaySet => .relay
  | .modelAppBind | .modelAppUnbind => .modelApp
  | .nodeReset => .nodeReset

/-- The request with the given opcode, whether or not its unreliable flag is set. -/
def ofOpcode? (op : Opcode) : Option Request :=
  all.find? fun request => request.opcode = op.reliable

def ofName? (text : String) : Option Request :=
  all.find? fun request => request.name = text

theorem mem_all (request : Request) : request ∈ all := by
  cases request <;> decide

theorem opcode_injective {a b : Request} (h : a.opcode = b.opcode) : a = b := by
  have hall : ∀ a ∈ all, ∀ b ∈ all, a.opcode = b.opcode → a = b := by decide
  exact hall a (mem_all a) b (mem_all b) h

/-- Every status message answers some request. -/
theorem exists_of_status (status : Status) : ∃ request : Request, request.status = status := by
  have hall : ∀ status ∈ Status.all, ∃ request ∈ all, request.status = status := by decide
  obtain ⟨request, -, hstatus⟩ := hall status (Status.mem_all status)
  exact ⟨request, hstatus⟩

/-- An opcode is looked up as the one request whose opcode it is without its flag. -/
theorem ofOpcode?_eq_some_iff {op : Opcode} {request : Request} :
    ofOpcode? op = some request ↔ request.opcode = op.reliable :=
  Opcode.find?_eq_some_iff (fun _ _ => opcode_injective) mem_all

/-- What is not the opcode of a request without its flag is looked up as none. -/
theorem ofOpcode?_eq_none_iff {op : Opcode} :
    ofOpcode? op = none ↔ ∀ request : Request, request.opcode ≠ op.reliable := by
  simp [Option.eq_none_iff_forall_ne_some, ofOpcode?_eq_some_iff]

end Request

end MeshFoundation
