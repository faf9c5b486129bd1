import MeshFoundation.Proofs.Opcode.RoundTrip
import MeshFoundation.Proofs.Operation.Parameters

/-!
# What a node reads out of a payload

At the other end of the mesh a node reads the opcode of a payload, finds the request that has it,
and takes the arguments out of the parameters that follow. For every operation whose arguments
are accepted, the node finds the very operation that was asked for
(`Operation.ofPayload?_payload`). So a payload says everything about its operation but the node
that it goes to, and two operations never share one.

The parameters are tied to one request each, and within a request each argument has its own place
and its own reader: a byte, a state, a pair of indices in three bytes, the sixteen bytes of a key,
a model whose length tells whether it is a vendor's.
-/

set_option autoImplicit false

namespace MeshFoundation

def AppKey.ofBytes? (bytes : Bytes) : Option AppKey :=
  if h : bytes.length = 16 then some ⟨bytes.toArray, by simpa using h⟩ else none

theorem AppKey.ofBytes?_toList (key : AppKey) : AppKey.ofBytes? key.toList = some key := by
  have hlength : key.toList.length = 16 := key.length_toList
  simp only [AppKey.ofBytes?, hlength, dif_pos, Option.some.injEq]
  exact Vector.toArray_inj.mp key.toArray.toArray_toList

namespace Request

theorem ofOpcode?_opcode (request : Request) : ofOpcode? request.opcode = some request := by
  cases request <;> decide

end Request

namespace Operation

/-! ## The reader -/

/-- The operation that a node finds in the parameters of a request. -/
def ofParameters? (request : Request) (params : Bytes) : Option Operation :=
  match request, params with
  | .compositionDataGet, [page] => if page = 0 then some .getComposition else none
  | .defaultTtlGet, [] => some .getDefaultTtl
  | .defaultTtlSet, [ttl] => some (.setDefaultTtl ttl)
  | .gattProxyGet, [] => some .getGattProxy
  | .gattProxySet, [state] => (FeatureState.ofByte? state).map .setGattProxy
  | .relayGet, [] => some .getRelay
  | .relaySet, [state, retransmit] =>
    (FeatureState.ofByte? state).map fun s => .setRelay s (Retransmit.decode retransmit)
  | .beaconGet, [] => some .getBeacon
  | .beaconSet, [on] =>
    if on = 0 then some (.setBeacon false) else if on = 1 then some (.setBeacon true) else none
  | .friendGet, [] => some .getFriend
  | .friendSet, [state] => (FeatureState.ofByte? state).map .setFriend
  | .appKeyGet, [low, high] => some (.getAppKeys (Bytes.word low high))
  | .appKeyAdd, first :: second :: third :: key =>
    let pair := KeyIndex.unpack first second third
    (AppKey.ofBytes? key).map (.addAppKey pair.1 pair.2)
  | .appKeyUpdate, first :: second :: third :: key =>
    let pair := KeyIndex.unpack first second third
    (AppKey.ofBytes? key).map (.updateAppKey pair.1 pair.2)
  | .appKeyDelete, [first, second, third] =>
    let pair := KeyIndex.unpack first second third
    some (.deleteAppKey pair.1 pair.2)
  | .modelAppBind, e0 :: e1 :: a0 :: a1 :: model =>
    (Model.ofBytes? model).map (.bindModelApp (Bytes.word e0 e1) (Bytes.word a0 a1))
  | .modelAppUnbind, e0 :: e1 :: a0 :: a1 :: model =>
    (Model.ofBytes? model).map (.unbindModelApp (Bytes.word e0 e1) (Bytes.word a0 a1))
  | .nodeReset, [] => some .resetNode
  | _, _ => none

/-- The operation that a node finds in a payload. -/
def ofPayload? (payload : Bytes) : Option Operation :=
  match Opcode.decode payload with
  | .ok (opcode, width) =>
    (Request.ofOpcode? opcode).bind fun request => ofParameters? request (payload.drop width)
  | .error _ => none

variable {op op' : Operation} {node node' : UInt16} {params payload payload' : Bytes}

/-- A node finds the arguments that an operation was made of in its parameters. -/
theorem ofParameters?_parameters (h : op.parameters = .ok params) :
    ofParameters? op.request params = some op := by
  cases op with
  | getComposition | getDefaultTtl | getGattProxy | getRelay | getBeacon | getFriend | resetNode =>
    cases h
    rfl
  | setDefaultTtl ttl =>
    obtain ⟨byte, hcheck, hbytes⟩ := of_bind_eq_ok h
    obtain rfl := TimeToLive.of_check hcheck
    cases hbytes
    rfl
  | setGattProxy state | setFriend state =>
    obtain ⟨byte, hstate, hbytes⟩ := of_bind_eq_ok h
    cases hbytes
    unfold ofParameters?
    simp [request, FeatureState.ofByte?_of_settable _ _ hstate]
  | setRelay state retransmit =>
    obtain ⟨byte, hstate, hrest⟩ := of_bind_eq_ok h
    obtain ⟨packed, hretransmit, hbytes⟩ := of_bind_eq_ok hrest
    cases hbytes
    unfold ofParameters?
    simp [request, FeatureState.ofByte?_of_settable _ _ hstate,
      Retransmit.decode_encode _ _ hretransmit]
  | setBeacon on =>
    cases h
    cases on <;> rfl
  | getAppKeys net =>
    obtain ⟨word, hcheck, hbytes⟩ := of_bind_eq_ok h
    obtain ⟨rfl, -⟩ := KeyIndex.of_check hcheck
    cases hbytes
    unfold ofParameters?
    simp [request, Bytes.ofWord, Bytes.word_of_ofWord]
  | addAppKey net app key | updateAppKey net app key =>
    obtain ⟨hnet, happ, rfl⟩ := of_keyPair_key h
    have hpair := KeyIndex.unpack_pack net app hnet happ
    unfold ofParameters?
    simp [request, KeyIndex.pack, hpair, AppKey.ofBytes?_toList]
  | deleteAppKey net app =>
    obtain ⟨hnet, happ, rfl⟩ := of_keyPair h
    have hpair := KeyIndex.unpack_pack net app hnet happ
    unfold ofParameters?
    simp [request, KeyIndex.pack, hpair]
  | bindModelApp element app model | unbindModelApp element app model =>
    obtain ⟨-, rfl⟩ := of_binding h
    unfold ofParameters?
    simp [request, Bytes.ofWord, Bytes.word_of_ofWord, Model.ofBytes?_bytes]

/-! ## Payloads -/

/-- A payload is the opcode of the request with the parameters after it, for a node with an
address of its own. -/
theorem of_payload (h : op.payload node = .ok payload) :
    isUnicast node = true ∧ ∃ opcode params, op.request.opcode.encode = .ok opcode ∧
      op.parameters = .ok params ∧ payload = opcode ++ params := by
  unfold Operation.payload at h
  split at h
  · cases h
  · rename_i params hparams
    split at h
    · rename_i hnode
      split at h
      · rename_i opcode hopcode
        cases h
        exact ⟨hnode, opcode, params, hopcode, hparams, rfl⟩
      · cases h
    · cases h

/-- The opcode of a payload is that of the request, and what follows are the parameters. -/
theorem decode_payload (h : op.payload node = .ok payload) :
    ∃ width, Opcode.decode payload = .ok (op.request.opcode, width) ∧
      op.parameters = .ok (payload.drop width) := by
  obtain ⟨-, opcode, params, hopcode, hparams, rfl⟩ := of_payload h
  refine ⟨opcode.length, Opcode.decode_append_of_encode hopcode params, ?_⟩
  rw [List.drop_left, hparams]

/-- A node finds the very operation that was asked for in its payload. -/
theorem ofPayload?_payload (h : op.payload node = .ok payload) : ofPayload? payload = some op := by
  obtain ⟨width, hdecode, hparams⟩ := decode_payload h
  simp [ofPayload?, hdecode, Request.ofOpcode?_opcode, ofParameters?_parameters hparams]

/-- Two payloads are the same exactly if they are those of the same operation. -/
theorem payload_eq_iff (h : op.payload node = .ok payload) (h' : op'.payload node' = .ok payload') :
    payload = payload' ↔ op = op' := by
  constructor
  · rintro rfl
    exact Option.some.inj ((ofPayload?_payload h).symm.trans (ofPayload?_payload h'))
  · rintro rfl
    obtain ⟨-, opcode, params, hopcode, hparams, rfl⟩ := of_payload h
    obtain ⟨-, opcode', params', hopcode', hparams', rfl⟩ := of_payload h'
    rw [hopcode] at hopcode'
    rw [hparams] at hparams'
    cases hopcode'
    cases hparams'
    rfl

end Operation

end MeshFoundation
