import MeshFoundation.Message.Request
import MeshFoundation.Opcode.Codec

/-!
# Reading an opcode that was written

The bytes of an opcode lie in one of three ranges, and the first byte shows in which. So an
opcode is read back from its bytes whatever follows them (`Opcode.decode_append_of_encode`). The
opcodes of all requests and status messages can be written.
-/

set_option autoImplicit false

namespace MeshFoundation

namespace Opcode

/-- An opcode that has bytes lies in one of three ranges, each with its own number of bytes. -/
theorem of_encode {op : Opcode} {bytes : Bytes} (h : op.encode = .ok bytes) :
    (op.value.toNat ≤ 0x7E ∧ bytes = [Bytes.lowByte op.value.toNat]) ∨
      (0x8000 ≤ op.value.toNat ∧ op.value.toNat ≤ 0xBFFF ∧
        bytes = Bytes.ofWordNetwork op.value.toUInt16) ∨
      (0xC00000 ≤ op.value.toNat ∧ op.value.toNat ≤ 0xFFFFFF ∧
        bytes = Bytes.ofTripleNetwork op.value) := by
  unfold encode width? at h
  simp only [UInt32.le_iff_toNat_le, UInt32.reduceToNat] at h
  by_cases hone : op.value.toNat ≤ 0x7E
  · simp only [hone, if_true, Except.ok.injEq] at h
    exact .inl ⟨hone, h.symm⟩
  by_cases htwo : 0x8000 ≤ op.value.toNat ∧ op.value.toNat ≤ 0xBFFF
  · simp only [hone, htwo, if_true, if_false, and_self, Except.ok.injEq] at h
    exact .inr (.inl ⟨htwo.1, htwo.2, h.symm⟩)
  by_cases hthree : 0xC00000 ≤ op.value.toNat ∧ op.value.toNat ≤ 0xFFFFFF
  · simp only [hone, htwo, hthree, if_true, if_false, and_self, Except.ok.injEq] at h
    exact .inr (.inr ⟨hthree.1, hthree.2, h.symm⟩)
  · simp only [hone, htwo, hthree, if_false] at h
    cases h

variable {first second third : UInt8} {rest : Bytes}

theorem decode_narrow (h : first.toNat < 0x7F) :
    decode (first :: rest) = .ok (⟨first.toUInt32⟩, 1) := by
  have hreserved : ¬ first = 0x7F := by
    rintro rfl
    exact absurd h (by decide)
  have hnarrow : first < 0x80 := UInt8.lt_iff_toNat_lt.mpr (by simp; omega)
  simp [decode, hreserved, hnarrow]

theorem decode_pair (hlow : 0x80 ≤ first.toNat) (hhigh : first.toNat < 0xC0) :
    decode (first :: second :: rest) = .ok (⟨(Bytes.word second first).toUInt32⟩, 2) := by
  have hreserved : ¬ first = 0x7F := by
    rintro rfl
    exact absurd hlow (by decide)
  have hnarrow : ¬ first < 0x80 := by simpa [UInt8.lt_iff_toNat_lt] using hlow
  have hpair : first < 0xC0 := UInt8.lt_iff_toNat_lt.mpr hhigh
  simp [decode, hreserved, hnarrow, hpair]

theorem decode_triple (h : 0xC0 ≤ first.toNat) :
    decode (first :: second :: third :: rest) =
      .ok (⟨Bytes.triple first second third⟩, 3) := by
  have hreserved : ¬ first = 0x7F := by
    rintro rfl
    exact absurd h (by decide)
  have hnarrow : ¬ first < 0x80 := by
    simp [UInt8.lt_iff_toNat_lt]
    omega
  have hpair : ¬ first < 0xC0 := by simpa [UInt8.lt_iff_toNat_lt] using h
  simp [decode, hreserved, hnarrow, hpair]

/-- An opcode is read back from its bytes, whatever follows them. -/
theorem decode_append_of_encode {op : Opcode} {bytes : Bytes} (h : op.encode = .ok bytes)
    (rest : Bytes) : decode (bytes ++ rest) = .ok (op, bytes.length) := by
  obtain ⟨hone, rfl⟩ | ⟨hlow, hhigh, rfl⟩ | ⟨hlow, hhigh, rfl⟩ := of_encode h
  · have hfirst : (Bytes.lowByte op.value.toNat).toNat = op.value.toNat := by
      rw [Bytes.toNat_lowByte]
      omega
    have hvalue : (Bytes.lowByte op.value.toNat).toUInt32 = op.value := by
      apply UInt32.toNat_inj.mp
      simpa using hfirst
    rw [List.singleton_append, decode_narrow (by omega), hvalue]
    rfl
  · have hword : op.value.toUInt16.toNat = op.value.toNat := by
      rw [UInt32.toNat_toUInt16]
      omega
    have hvalue : op.value.toUInt16.toUInt32 = op.value := by
      apply UInt32.toNat_inj.mp
      simpa using hword
    have hfirst : (Bytes.lowByte (op.value.toUInt16.toNat / 256)).toNat =
        op.value.toNat / 256 := by
      rw [Bytes.toNat_lowByte, hword]
      omega
    rw [Bytes.ofWordNetwork, List.cons_append, List.singleton_append,
      decode_pair (by omega) (by omega), Bytes.word_of_ofWord, hvalue]
    rfl
  · have hfirst : (Bytes.lowByte (op.value.toNat / 65536)).toNat = op.value.toNat / 65536 := by
      rw [Bytes.toNat_lowByte]
      omega
    have hvalue : Bytes.triple (Bytes.lowByte (op.value.toNat / 65536))
        (Bytes.lowByte (op.value.toNat / 256)) (Bytes.lowByte op.value.toNat) = op.value := by
      apply UInt32.toNat_inj.mp
      rw [Bytes.toNat_triple, hfirst, Bytes.toNat_lowByte, Bytes.toNat_lowByte]
      omega
    rw [Bytes.ofTripleNetwork, List.cons_append, List.cons_append, List.singleton_append,
      decode_triple (by omega), hvalue]
    rfl

end Opcode

namespace Status

theorem exists_encode (status : Status) : ∃ bytes, status.opcode.encode = .ok bytes := by
  cases status <;> exact ⟨_, rfl⟩

/-- No status message has the unreliable flag in its opcode. -/
theorem reliable_opcode (status : Status) : status.opcode.reliable = status.opcode := by
  apply Opcode.reliable_of_not_isUnreliable
  cases status <;> decide

end Status

namespace Request

theorem exists_encode (request : Request) : ∃ bytes, request.opcode.encode = .ok bytes := by
  cases request <;> exact ⟨_, rfl⟩

end Request

end MeshFoundation
