import MeshFoundation.Opcode.Basic

/-!
# Status messages

The ten status messages by which a node answers a configuration request, each
with its name and its opcode.
-/

set_option autoImplicit false

namespace MeshFoundation

/-- A status message of the configuration model. -/
inductive Status where
  | compositionData
  | appKeyList
  | appKey
  | beacon
  | defaultTtl
  | friend
  | gattProxy
  | relay
  | modelApp
  | nodeReset
  deriving DecidableEq, Repr

namespace Status

/-- All status messages, in the order of their opcodes. -/
def all : List Status :=
  [.compositionData, .appKeyList, .appKey, .beacon, .defaultTtl, .friend, .gattProxy, .relay,
    .modelApp, .nodeReset]

def name : Status → String
  | .compositionData => "CompositionDataStatus"
  | .appKeyList => "AppKeyList"
  | .appKey => "AppKeyStatus"
  | .beacon => "BeaconStatus"
  | .defaultTtl => "DefaultTtlStatus"
  | .friend => "FriendStatus"
  | .gattProxy => "GattProxyStatus"
  | .relay => "RelayStatus"
  | .modelApp => "ModelAppStatus"
  | .nodeReset => "NodeResetStatus"

def opcode : Status → Opcode
  | .compositionData => ⟨0x02⟩
  | .appKeyList => ⟨0x8002⟩
  | .appKey => ⟨0x8003⟩
  | .beacon => ⟨0x800B⟩
  | .defaultTtl => ⟨0x800E⟩
  | .friend => ⟨0x8011⟩
  | .gattProxy => ⟨0x8014⟩
  | .relay => ⟨0x8028⟩
  | .modelApp => ⟨0x803E⟩
  | .nodeReset => ⟨0x804A⟩

/-- The status message with the given opcode, whether or not its unreliable flag is set. -/
def ofOpcode? (op : Opcode) : Option Status :=
  all.find? fun status => status.opcode = op.reliable

theorem mem_all (status : Status) : status ∈ all := by
  cases status <;> decide

theorem opcode_injective {a b : Status} (h : a.opcode = b.opcode) : a = b := by
  cases a <;> cases b <;> simp_all [opcode]

/-- An opcode is looked up as the one status message whose opcode it is without its flag. -/
theorem ofOpcode?_eq_some_iff {op : Opcode} {status : Status} :
    ofOpcode? op = some status ↔ status.opcode = op.reliable :=
  Opcode.find?_eq_some_iff (fun _ _ => opcode_injective) mem_all

end Status

end MeshFoundation
