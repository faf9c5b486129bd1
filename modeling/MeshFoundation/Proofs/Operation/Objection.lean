import MeshFoundation.Proofs.Opcode.RoundTrip
import MeshFoundation.Proofs.Operation.Parameters

/-!
# Objections to an operation

An argument of an operation may be objected to, and so may the address of the node that the
operation is for. The objections of an operation to a node are listed here in the order of the
arguments, the address coming last, each with a condition on numbers that says nothing of how the
argument is written (`Operation.objections`).

An operation has a payload exactly if there is no objection, and is refused for the first one
otherwise (`Operation.payload_heeds`). That every check heeds its own objections is carried over
from one argument to the next by a single lemma on calculations in a row (`Heeds.bind`).
-/

set_option autoImplicit false

namespace MeshFoundation

/-! ## The objections -/

namespace TimeToLive

def objections (ttl : UInt8) : List ParameterFault :=
  if ttl.toNat = 1 ∨ 127 < ttl.toNat then [.timeToLive] else []

end TimeToLive

namespace FeatureState

def objections (state : FeatureState) : List ParameterFault :=
  if state = .notSupported then [.stateNotSettable] else []

end FeatureState

namespace Retransmit

/-- The interval has to be a number of whole steps of ten milliseconds, up to 32 of them. -/
def objections (r : Retransmit) : List ParameterFault :=
  (if 7 < r.count.toNat then [.retransmitCount] else []) ++
    if r.interval.toNat ∈ (List.range' 1 32).map (10 * ·) then [] else [.retransmitInterval]

end Retransmit

namespace KeyIndex

def objections (index : UInt16) : List ParameterFault :=
  if 0x0FFF < index.toNat then [.keyIndex] else []

end KeyIndex

namespace Operation

/-- What is wrong with the arguments of an operation, in their order. -/
def argumentObjections : Operation → List ParameterFault
  | .setDefaultTtl ttl => TimeToLive.objections ttl
  | .setGattProxy state | .setFriend state => state.objections
  | .setRelay state retransmit => state.objections ++ retransmit.objections
  | .getAppKeys net => KeyIndex.objections net
  | .addAppKey net app _ | .updateAppKey net app _ | .deleteAppKey net app =>
    KeyIndex.objections net ++ KeyIndex.objections app
  | .bindModelApp _ app _ | .unbindModelApp _ app _ => KeyIndex.objections app
  | .getComposition | .getDefaultTtl | .getGattProxy | .getRelay | .getBeacon | .setBeacon _
  | .getFriend | .resetNode => []

/-- What is wrong with an operation for a node: first with its arguments, and then with the
address of the node. -/
def objections (op : Operation) (node : UInt16) : List ParameterFault :=
  op.argumentObjections ++
    if 0x0001 ≤ node.toNat ∧ node.toNat ≤ 0x7FFF then [] else [.destinationNotUnicast]

end Operation

/-! ## Checks heed their objections -/

/-- A calculation that goes through if there are no objections to it and otherwise fails for the
first one. -/
def Heeds {α : Type} (result : Except ParameterFault α) : List ParameterFault → Prop
  | [] => ∃ a, result = .ok a
  | fault :: _ => result = .error fault

namespace Heeds

variable {α β : Type} {result : Except ParameterFault α} {faults later : List ParameterFault}

theorem of_ok (a : α) : Heeds (.ok a) [] := ⟨a, rfl⟩

/-- Of two calculations in a row, the objections to the first one come first. -/
theorem bind (h : Heeds result faults) {next : α → Except ParameterFault β}
    (hnext : ∀ a, result = .ok a → Heeds (next a) later) :
    Heeds (result >>= next) (faults ++ later) := by
  cases faults with
  | nil =>
    obtain ⟨a, ha⟩ := h
    have hthen := hnext a ha
    rw [ha]
    exact hthen
  | cons fault rest =>
    have herror : result = .error fault := h
    rw [herror]
    exact rfl

/-- A calculation that only goes on with what a check lets pass heeds the objections to that. -/
theorem andReturn (h : Heeds result faults) (f : α → β) :
    Heeds (result >>= fun a => return f a) faults := by
  have hboth := h.bind fun a _ => of_ok (f a)
  rwa [List.append_nil] at hboth

end Heeds

theorem TimeToLive.check_heeds (ttl : UInt8) : Heeds (check ttl) (objections ttl) := by
  have hzero : ttl = 0 ↔ ttl.toNat = 0 := UInt8.toNat_inj.symm
  unfold check objections
  simp only [hzero, UInt8.le_iff_toNat_le, UInt8.reduceToNat]
  by_cases hwrong : ttl.toNat = 1 ∨ 127 < ttl.toNat
  · rw [if_pos hwrong, if_neg (by omega)]
    exact rfl
  · rw [if_neg hwrong, if_pos (by omega)]
    exact Heeds.of_ok ttl

theorem FeatureState.settable_heeds (state : FeatureState) :
    Heeds state.settable state.objections := by
  cases state with
  | disabled => exact Heeds.of_ok 0
  | enabled => exact Heeds.of_ok 1
  | notSupported => exact rfl

theorem Retransmit.encode_heeds (r : Retransmit) : Heeds r.encode r.objections := by
  have hsteps : r.interval.toNat ∈ (List.range' 1 32).map (10 * ·) ↔
      r.interval.toNat % 10 = 0 ∧ 10 ≤ r.interval.toNat ∧ r.interval.toNat ≤ 320 := by
    simp only [List.mem_map, List.mem_range'_1]
    constructor
    · rintro ⟨steps, hsteps, hinterval⟩
      omega
    · intro h
      exact ⟨r.interval.toNat / 10, by omega, by omega⟩
  unfold encode objections
  simp only [hsteps, UInt8.lt_iff_toNat_lt, UInt8.reduceToNat]
  by_cases hcount : 7 < r.count.toNat
  · rw [if_pos hcount, if_pos hcount]
    exact rfl
  · rw [if_neg hcount, if_neg hcount, List.nil_append]
    split
    · exact Heeds.of_ok _
    · exact rfl

theorem KeyIndex.check_heeds (index : UInt16) : Heeds (check index) (objections index) := by
  unfold check objections
  simp only [maximum, UInt16.lt_iff_toNat_lt, UInt16.reduceToNat]
  split
  · exact rfl
  · exact Heeds.of_ok index

namespace Operation

theorem keyPair_heeds (net app : UInt16) :
    Heeds (keyPair net app) (KeyIndex.objections net ++ KeyIndex.objections app) :=
  (KeyIndex.check_heeds net).bind fun _ hnet =>
    (KeyIndex.of_check hnet).1 ▸ (KeyIndex.check_heeds app).andReturn _

theorem parameters_heeds (op : Operation) : Heeds op.parameters op.argumentObjections := by
  cases op with
  | getComposition | getDefaultTtl | getGattProxy | getRelay | getBeacon | getFriend | resetNode
  | setBeacon on => exact Heeds.of_ok _
  | setDefaultTtl ttl => exact (TimeToLive.check_heeds ttl).andReturn _
  | setGattProxy state | setFriend state => exact state.settable_heeds.andReturn _
  | setRelay state retransmit =>
    exact state.settable_heeds.bind fun _ _ => retransmit.encode_heeds.andReturn _
  | getAppKeys net => exact (KeyIndex.check_heeds net).andReturn _
  | addAppKey net app key | updateAppKey net app key => exact (keyPair_heeds net app).andReturn _
  | deleteAppKey net app => exact keyPair_heeds net app
  | bindModelApp element app model | unbindModelApp element app model =>
    exact (KeyIndex.check_heeds app).andReturn _

/-! ## Payloads -/

theorem isUnicast_iff (node : UInt16) :
    isUnicast node = true ↔ 0x0001 ≤ node.toNat ∧ node.toNat ≤ 0x7FFF := by
  simp [isUnicast, UInt16.le_iff_toNat_le]

/-- An operation has a payload for a node if there is no objection, and is refused for the first
objection otherwise. -/
theorem payload_heeds (op : Operation) (node : UInt16) :
    (op.objections node = [] → ∃ payload, op.payload node = .ok payload) ∧
      ∀ fault rest, op.objections node = fault :: rest →
        op.payload node = .error (.invalidParameter fault) := by
  obtain ⟨opcode, hopcode⟩ := op.request.exists_encode
  have hparams := op.parameters_heeds
  unfold objections payload
  cases harguments : op.argumentObjections with
  | nil =>
    rw [harguments] at hparams
    obtain ⟨params, hok⟩ := hparams
    simp only [hok, hopcode, isUnicast_iff, List.nil_append]
    by_cases hnode : 0x0001 ≤ node.toNat ∧ node.toNat ≤ 0x7FFF
    · rw [if_pos hnode, if_pos hnode]
      exact ⟨fun _ => ⟨_, rfl⟩, nofun⟩
    · rw [if_neg hnode, if_neg hnode]
      refine ⟨nofun, ?_⟩
      rintro fault rest hfault
      cases hfault
      rfl
  | cons first others =>
    rw [harguments] at hparams
    have herror : op.parameters = .error first := hparams
    simp only [herror, List.cons_append]
    refine ⟨nofun, ?_⟩
    rintro fault rest hfault
    cases hfault
    rfl

/-- An operation that has no payload has an objection to it. -/
theorem failure_of_payload {op : Operation} {node : UInt16} {failure : Failure}
    (h : op.payload node = .error failure) :
    ∃ fault rest, op.objections node = fault :: rest ∧ failure = .invalidParameter fault := by
  obtain ⟨haccepted, hrefused⟩ := op.payload_heeds node
  cases hobjections : op.objections node with
  | nil =>
    obtain ⟨payload, hok⟩ := haccepted hobjections
    rw [hok] at h
    cases h
  | cons fault rest =>
    rw [hrefused fault rest hobjections] at h
    cases h
    exact ⟨fault, rest, rfl, rfl⟩

theorem objections_of_payload {op : Operation} {node : UInt16} {payload : Bytes}
    (h : op.payload node = .ok payload) : op.objections node = [] := by
  cases hobjections : op.objections node with
  | nil => rfl
  | cons fault rest =>
    rw [(op.payload_heeds node).2 fault rest hobjections] at h
    cases h

end Operation

end MeshFoundation
