import MeshFoundation.Composition.Decode
import MeshFoundation.Parameter.KeyIndex
import MeshFoundation.Report.Basic

/-!
# Reading reports

The parameters of a status message have a fixed form for each message. All of them
but two have a fixed length. Composition data may be of any length from their header
on, and a list of application keys holds three bytes for every two indices and two
bytes for an odd last one. Parameters of any other length, and states that have no
meaning, make no report. Status codes are never refused.
-/

set_option autoImplicit false

namespace MeshFoundation.Report

/-- Reads a list of application key indices: three bytes hold two of them, and two
bytes at the end hold one more. -/
def readIndices? : Bytes → Option (List UInt16)
  | [] => some []
  | [_] => none
  | [low, high] => some [KeyIndex.low12 (Bytes.word low high)]
  | first :: second :: third :: rest =>
    match readIndices? rest with
    | some indices =>
      let pair := KeyIndex.unpack first second third
      some (pair.1 :: pair.2 :: indices)
    | none => none

/-- Reads the parameters of a status message. -/
def decode? (status : Status) (params : Bytes) : Option Report :=
  match status with
  | .compositionData =>
    match Composition.decode params with
    | .ok data => some (.compositionData data)
    | .error _ => none
  | .defaultTtl =>
    match params with
    | [ttl] => some (.defaultTtl ttl)
    | _ => none
  | .gattProxy =>
    match params with
    | [state] => (FeatureState.ofByte? state).map .gattProxy
    | _ => none
  | .friend =>
    match params with
    | [state] => (FeatureState.ofByte? state).map .friend
    | _ => none
  | .relay =>
    match params with
    | [state, retransmit] =>
      (FeatureState.ofByte? state).map fun s => .relay s (Retransmit.decode retransmit)
    | _ => none
  | .beacon =>
    match params with
    | [on] =>
      if on = 0 then some (.beacon false) else if on = 1 then some (.beacon true) else none
    | _ => none
  | .appKey =>
    match params with
    | [code, first, second, third] =>
      let pair := KeyIndex.unpack first second third
      some (.appKey (StatusCode.ofByte code) pair.1 pair.2)
    | _ => none
  | .appKeyList =>
    match params with
    | code :: low :: high :: packed =>
      (readIndices? packed).map fun apps =>
        .appKeyList (StatusCode.ofByte code) (Bytes.word low high) apps
    | _ => none
  | .modelApp =>
    match params with
    | code :: e0 :: e1 :: a0 :: a1 :: model =>
      (Model.ofBytes? model).map fun m =>
        .modelApp (StatusCode.ofByte code) (Bytes.word e0 e1) (Bytes.word a0 a1) m
    | _ => none
  | .nodeReset =>
    match params with
    | [] => some .nodeReset
    | _ => none

/-- A report comes from the status message that it was read from. -/
theorem status_of_decode? {status : Status} {params : Bytes} {report : Report}
    (h : decode? status params = some report) : report.status = status := by
  cases status <;> simp only [decode?] at h <;> grind [Report.status, Option.map_eq_some_iff]

end MeshFoundation.Report
