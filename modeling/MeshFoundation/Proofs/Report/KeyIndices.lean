import MeshFoundation.Operation
import MeshFoundation.Proofs.Report.Format

/-!
# Key indices in reports

Three of the status messages name keys. Most of the indices in them share their bytes with a
neighbour, or stand in a word at the end of a list, and are cut down to twelve bits when they are
read. The network index of a key list and the application index of a binding have a word of
their own, of which all sixteen bits are kept.

An index that was cut down can go back to a node in a request. One from a word of its own can do
so only if the node left the four reserved bits of the word clear, and is refused otherwise
(`keyIndices_fit_iff`).
-/

set_option autoImplicit false

namespace MeshFoundation

/-- A word has no more bits than fit into it. -/
theorem Bytes.wordNumberAt_lt (bytes : Bytes) (i : Nat) : bytes.wordNumberAt i < 65536 := by
  have hlow : bytes.numberAt i < 256 := UInt8.toNat_lt _
  have hhigh : bytes.numberAt (i + 1) < 256 := UInt8.toNat_lt _
  simp only [wordNumberAt]
  omega

namespace KeyIndex

variable {index : UInt16}

theorem le_maximum_iff : index ≤ maximum ↔ index.toNat < 4096 := by
  rw [UInt16.le_iff_toNat_le]
  simp only [maximum, UInt16.reduceToNat]
  omega

theorem check_of_lt (h : maximum < index) : check index = .error .keyIndex := by
  rw [check, if_pos h]

/-- What is packed into three bytes, or stands at the end of a list of packed indices, has
twelve bits. -/
theorem numberAt_lt (packed : Bytes) (i : Nat) : numberAt packed i < 4096 := by
  have hword := packed.wordNumberAt_lt (3 * (i / 2) + 1)
  unfold numberAt
  split <;> omega

/-- A word fits twelve bits exactly if its four reserved bits are clear. -/
theorem wordNumberAt_lt_iff (bytes : Bytes) (i : Nat) :
    bytes.wordNumberAt i < 4096 ↔ bytes.numberAt (i + 1) < 16 := by
  have hlow : bytes.numberAt i < 256 := UInt8.toNat_lt _
  simp only [Bytes.wordNumberAt]
  omega

end KeyIndex

namespace Report

/-- The indices of network and application keys in a report. -/
def keyIndices : Report → List UInt16
  | .appKey _ net app => [net, app]
  | .appKeyList _ net apps => net :: apps
  | .modelApp _ _ app _ => [app]
  | _ => []

/-- Where in the parameters of a status message a key index has a word of its own. -/
def plainIndexAt? : Status → Option Nat
  | .appKeyList => some 1
  | .modelApp => some 3
  | _ => none

variable {status : Status} {params : Bytes} {report : Report}

/-- A key index in a report fits twelve bits or has a word of its own. -/
theorem fits_or_plain_of_decode? (h : decode? status params = some report) {index : UInt16}
    (hindex : index ∈ report.keyIndices) :
    index.toNat < 4096 ∨ ∃ i ∈ plainIndexAt? status, index.toNat = params.wordNumberAt i := by
  obtain rfl := status_of_decode? h
  have htells := tells_of_decode? h
  cases report with
  | appKey code net app =>
    obtain ⟨-, hnet, happ⟩ := htells
    have hword := params.wordNumberAt_lt 2
    obtain rfl | rfl : index = net ∨ index = app := by simpa [keyIndices] using hindex
    · exact .inl (by omega)
    · exact .inl (by omega)
  | appKeyList code net apps =>
    obtain ⟨-, hnet, -, happs⟩ := htells
    obtain rfl | happ := List.mem_cons.mp hindex
    · exact .inr ⟨1, rfl, hnet⟩
    · obtain ⟨i, hi, rfl⟩ := List.getElem_of_mem happ
      rw [happs i hi]
      exact .inl (KeyIndex.numberAt_lt _ i)
  | modelApp code element app model =>
    obtain ⟨-, -, happ, -⟩ := htells
    obtain rfl : index = app := by simpa [keyIndices] using hindex
    exact .inr ⟨3, rfl, happ⟩
  | _ => cases hindex

/-- A key index that has a word of its own is reported as it stands there. -/
theorem plain_of_decode? (h : decode? status params = some report) {i : Nat}
    (hi : i ∈ plainIndexAt? status) :
    ∃ index ∈ report.keyIndices, index.toNat = params.wordNumberAt i := by
  obtain rfl := status_of_decode? h
  have htells := tells_of_decode? h
  cases report with
  | appKeyList code net apps =>
    cases hi
    exact ⟨net, List.mem_cons_self, htells.2.1⟩
  | modelApp code element app model =>
    cases hi
    exact ⟨app, List.mem_singleton_self app, htells.2.2.1⟩
  | _ => cases hi

/-- All key indices in a report are at most the largest one and pass the check exactly if the
word of an index that has one to itself is without reserved bits. An index that is larger stands
in such a word, and each operation that would send it back to a node is refused. -/
theorem keyIndices_fit_iff (h : decode? status params = some report) :
    ((∀ index ∈ report.keyIndices,
        index ≤ KeyIndex.maximum ∧ KeyIndex.check index = .ok index) ↔
      ∀ i ∈ plainIndexAt? status, params.numberAt (i + 1) < 16) ∧
    ∀ index ∈ report.keyIndices, KeyIndex.maximum < index →
      (∃ i ∈ plainIndexAt? status, index.toNat = params.wordNumberAt i) ∧
      (Operation.getAppKeys index).parameters = .error .keyIndex ∧
      (∀ app, (Operation.deleteAppKey index app).parameters = .error .keyIndex) ∧
      ∀ element model, (Operation.bindModelApp element index model).parameters =
        .error .keyIndex := by
  refine ⟨⟨?_, ?_⟩, ?_⟩
  · intro hall i hi
    obtain ⟨index, hindex, hword⟩ := plain_of_decode? h hi
    rw [← KeyIndex.wordNumberAt_lt_iff, ← hword]
    exact KeyIndex.le_maximum_iff.mp (hall index hindex).1
  · intro hclear index hindex
    have hsmall : index.toNat < 4096 := by
      obtain hfits | ⟨i, hi, hword⟩ := fits_or_plain_of_decode? h hindex
      · exact hfits
      · rw [hword, KeyIndex.wordNumberAt_lt_iff]
        exact hclear i hi
    exact ⟨KeyIndex.le_maximum_iff.mpr hsmall, (KeyIndex.check_eq_ok_iff index).mpr hsmall⟩
  · intro index hindex hlarge
    have hcheck := KeyIndex.check_of_lt hlarge
    refine ⟨?_, ?_, ?_, ?_⟩
    · obtain hfits | hplain := fits_or_plain_of_decode? h hindex
      · exact absurd (KeyIndex.le_maximum_iff.mpr hfits) (UInt16.not_le.mpr hlarge)
      · exact hplain
    · simp only [Operation.parameters, hcheck]
      rfl
    · intro app
      simp only [Operation.parameters, Operation.keyPair, hcheck]
      rfl
    · intro element model
      simp only [Operation.parameters, Operation.binding, hcheck]
      rfl

/-- A list of two application keys whose network index has its reserved bits set. -/
theorem keyIndices_fit_of_markedKeyList :
    decode? .appKeyList [0x00, 0x01, 0xf0, 0x45, 0x83, 0x67] =
        some (.appKeyList .success 0xf001 [0x345, 0x678]) ∧
      (Operation.getAppKeys 0xf001).parameters = .error .keyIndex := by
  have hread : decode? .appKeyList [0x00, 0x01, 0xf0, 0x45, 0x83, 0x67] =
      some (.appKeyList .success 0xf001 [0x345, 0x678]) := by decide
  exact ⟨hread, ((keyIndices_fit_iff hread).2 0xf001 (by decide) (by decide)).2.1⟩

/-- Reserved bits are cut off an odd last index of a list, but neither off the network index of
the list nor off the application index of a binding. -/
theorem reserved_bits_reported :
    decode? .appKeyList [0x00, 0x01, 0xf0, 0x02, 0xf0] =
        some (.appKeyList .success 0xf001 [0x002]) ∧
      decode? .modelApp [0x00, 0x02, 0x00, 0x01, 0xf0, 0x00, 0x10] =
        some (.modelApp .success 0x0002 0xf001 (.sig 0x1000)) ∧
      KeyIndex.maximum < 0xf001 := by
  refine ⟨?_, ?_, ?_⟩ <;> decide

end Report

end MeshFoundation
