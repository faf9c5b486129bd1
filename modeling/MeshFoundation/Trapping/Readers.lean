import MeshFoundation.Client.Step
import MeshFoundation.Trapping.Basic

/-!
# Readers that can trap

Everything that a client reads of a message, in the steps in which a machine does it: which bytes
are taken from a buffer one after another, which lengths are calculated before they are compared,
which numbers are shifted, and what is only looked at after it was found to be there. Where a step
can trap, nothing but the checks that were made before keeps it from doing so.

The loop over the elements of a node goes on until no complete record is left. It is given a
number of rounds, and traps when it wants to go on after the last of them. What takes neither bytes
from a buffer nor numbers to calculate with, such as looking for the request that a message answers,
is done as it is elsewhere.
-/

set_option autoImplicit false

namespace MeshFoundation.Trapping

/-! ## Opcodes -/

/-- Reads the opcode at the front of a message, whose upper two bits tell its width. -/
def opcode (bytes : Bytes) : Trapping (Except Opcode.Fault (Opcode × Nat)) :=
  match bytes with
  | [] => return .error .empty
  | first :: _ => do
    let width ← shiftRight 8 first.toNat 6
    if width ≤ 1 then
      if first = 0x7F then return .error .reserved else return .ok (⟨first.toUInt32⟩, 1)
    else if width = 2 then
      match slice? bytes 0 2 with
      | some [high, low] => return .ok (⟨(Bytes.word low high).toUInt32⟩, 2)
      | _ => return .error (.truncated bytes.length 2)
    else
      match slice? bytes 0 3 with
      | some [high, middle, low] => return .ok (⟨Bytes.triple high middle low⟩, 3)
      | _ => return .error (.truncated bytes.length 3)

/-! ## Parameters -/

/-- Reads the two indices in three bytes. -/
def indexPair (m : Machine) (bytes : Bytes) : Trapping (Option (UInt16 × UInt16)) :=
  if bytes.length ≠ 3 then return none
  else
    match wordAt? m bytes 0, wordAt? m bytes 1 with
    | some lower, some upper => do
      let app ← shiftRight 16 upper.toNat 4
      return some (lower &&& KeyIndex.maximum, UInt16.ofNat app)
    | _, _ => return none

/-- Reads a list of indices, three bytes at a time. -/
def indices (m : Machine) : Bytes → Trapping (Option (List UInt16))
  | first :: second :: third :: rest => do
    match ← indexPair m [first, second, third] with
    | some pair =>
      match ← indices m rest with
      | some later => return some (pair.1 :: pair.2 :: later)
      | none => return none
    | none => return none
  | [] => return some []
  | [low, high] =>
    match wordAt? m [low, high] 0 with
    | some word => return some [word &&& KeyIndex.maximum]
    | none => return none
  | _ => return none

def model? (m : Machine) (bytes : Bytes) : Option Model :=
  if bytes.length = 2 then (wordAt? m bytes 0).map .sig
  else if bytes.length = 4 then
    match wordAt? m bytes 0, wordAt? m bytes 2 with
    | some company, some id => some (.vendor company id)
    | _, _ => none
  else none

def retransmit (byte : UInt8) : Trapping Retransmit := do
  let upper ← shiftRight 8 byte.toNat 3
  let steps ← add 16 upper 1
  let interval ← mul 16 steps 10
  return ⟨byte &&& 7, UInt16.ofNat interval⟩

/-! ## Composition data -/

/-- Takes a model of the standard. -/
def takeSigModel (bytes : Bytes) : Trapping (UInt32 × Bytes) := do
  let (id, bytes) ← takeWord bytes
  return (id.toUInt32, bytes)

/-- Takes the model of a vendor, and puts the vendor into the upper half of the number. -/
def takeVendorModel (bytes : Bytes) : Trapping (UInt32 × Bytes) := do
  let (company, bytes) ← takeWord bytes
  let (id, bytes) ← takeWord bytes
  let upper ← shiftLeft 32 company.toNat 16
  return (UInt32.ofNat upper ||| id.toUInt32, bytes)

/-- Takes the element at the front of a buffer if its record is complete. -/
def element (m : Machine) (bytes : Bytes) : Trapping (Option (Element × Bytes)) :=
  if bytes.length < 4 then return none
  else do
    let (location, bytes) ← takeWord bytes
    let (sigCount, bytes) ← takeByte bytes
    let (vendorCount, bytes) ← takeByte bytes
    let sigLength ← mul m.bits sigCount.toNat 2
    let vendorLength ← mul m.bits vendorCount.toNat 4
    let length ← add m.bits sigLength vendorLength
    if bytes.length < length then return none
    else
      let (sigModels, bytes) ← takeMany takeSigModel sigCount.toNat bytes
      let (vendorModels, bytes) ← takeMany takeVendorModel vendorCount.toNat bytes
      return some (⟨location, sigModels, vendorModels⟩, bytes)

/-- Takes elements until no complete record is left. -/
def elements (m : Machine) : Nat → Bytes → Trapping (List Element × Bytes)
  | 0, _ => .error .unfinished
  | rounds + 1, bytes => do
    match ← element m bytes with
    | none => return ([], bytes)
    | some (first, bytes) =>
      let (rest, tail) ← elements m rounds bytes
      return (first :: rest, tail)

def composition (m : Machine) (rounds : Nat) (bytes : Bytes) :
    Trapping (Except Composition.Truncated Composition.Reading) :=
  if bytes.length < Composition.headerLength then return .error ⟨bytes.length⟩
  else do
    let (page, bytes) ← takeByte bytes
    let (company, bytes) ← takeWord bytes
    let (product, bytes) ← takeWord bytes
    let (version, bytes) ← takeWord bytes
    let (replayCache, bytes) ← takeWord bytes
    let (features, bytes) ← takeWord bytes
    let (elements, tail) ← elements m rounds bytes
    return .ok
      { page
        composition :=
          { company, product, version, replayCache
            features := Features.ofBits features
            elements }
        remainder := tail.length }

/-! ## Status messages -/

/-- Reads a list of application keys. How long the list can get is calculated before it is read. -/
def keyList (m : Machine) (params : Bytes) : Trapping (Option Report) :=
  match params with
  | [] => return none
  | code :: rest =>
    match wordAt? m rest 0, slice? rest 2 rest.length with
    | some net, some packed => do
      let doubled ← mul m.bits packed.length 2
      let _capacity ← add m.bits (doubled / 3) 1
      match ← indices m packed with
      | some apps => return some (.appKeyList (StatusCode.ofByte code) net apps)
      | none => return none
    | _, _ => return none

/-- Reads what a node says of the binding of a model. -/
def modelApp? (m : Machine) (params : Bytes) : Option Report :=
  match params with
  | [] => none
  | code :: rest => do
    let model ← slice? rest 4 rest.length
    if model.length = 2 ∨ model.length = 4 then
      let element ← wordAt? m rest 0
      let app ← wordAt? m rest 2
      let model ← model? m model
      return .modelApp (StatusCode.ofByte code) element app model
    else none

/-- Reads the parameters of a status message. -/
def report (m : Machine) (rounds : Nat) (status : Status) (params : Bytes) :
    Trapping (Option Report) :=
  match status with
  | .compositionData => do
    match ← composition m rounds params with
    | .ok reading => return some (.compositionData reading.composition)
    | .error _ => return none
  | .defaultTtl =>
    match params with
    | [ttl] => return some (.defaultTtl ttl)
    | _ => return none
  | .gattProxy =>
    match params with
    | [state] => return (FeatureState.ofByte? state).map .gattProxy
    | _ => return none
  | .friend =>
    match params with
    | [state] => return (FeatureState.ofByte? state).map .friend
    | _ => return none
  | .relay =>
    match params with
    | [state, byte] =>
      match FeatureState.ofByte? state with
      | some state => do
        let retransmit ← retransmit byte
        return some (.relay state retransmit)
      | none => return none
    | _ => return none
  | .beacon =>
    match params with
    | [on] =>
      if on = 0 then return some (.beacon false)
      else if on = 1 then return some (.beacon true)
      else return none
    | _ => return none
  | .appKey =>
    match params with
    | [code, first, second, third] => do
      match ← indexPair m [first, second, third] with
      | some (net, app) => return some (.appKey (StatusCode.ofByte code) net app)
      | none => return none
    | _ => return none
  | .appKeyList => keyList m params
  | .modelApp => return modelApp? m params
  | .nodeReset =>
    match params with
    | [] => return some .nodeReset
    | _ => return none

/-! ## Messages -/

/-- What comes of the parameters of a message that answers a request, once it is known whether
they make a report. -/
def conclude (c : Client) (request : Request) (source : UInt16) (params : Bytes)
    (report? : Option Report) : List Effect :=
  let readNotices :=
    if request.status = .compositionData then Composition.readNotices params else []
  readNotices.map .noted ++
    match report? with
    | none =>
      [.noted (.malformed request source params.length), .counted (.dropped .malformed)]
    | some report =>
      [.counted (.matched request), .noted (.resolved request source)] ++
        c.tell ⟨⟨request, source⟩, .reported report⟩

/-- Takes a message in. -/
def receive (m : Machine) (rounds : Nat) (c : Client) (source : UInt16) (bytes : Bytes) :
    Trapping (List Effect × Client) := do
  match ← opcode bytes with
  | .error fault => return ([.noted (.undecodable source fault), .counted (.dropped .opcode)], c)
  | .ok (opcode, width) =>
    match c.table.remove opcode.reliable source with
    | ([], _) =>
      return ([.noted (.unsolicited opcode.reliable source), .counted (.dropped .unsolicited)], c)
    | (awaited :: _, table) =>
      let params := (slice? bytes width bytes.length).getD []
      let report? ← report m rounds awaited.request.status params
      return (conclude c awaited.request source params report?, { c with table })

end MeshFoundation.Trapping
