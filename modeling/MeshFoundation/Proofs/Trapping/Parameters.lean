import MeshFoundation.Trapping.Readers

/-!
# Opcodes and parameters are read without a trap

Each of these readers looks at bytes only after it found them to be there, shifts by less than a
width, and calculates numbers that are known to be small. So it goes on, whatever the bytes are,
and with what the reader on plain numbers and lists gives.
-/

set_option autoImplicit false

namespace MeshFoundation

/-- Numbers of two bytes are lengths and positions on every machine. -/
theorem Machine.le_two_pow (m : Machine) : 65536 ≤ 2 ^ m.bits := by
  simpa using Nat.pow_le_pow_right (show 0 < 2 by omega) m.wide

namespace Trapping

variable (m : Machine)

/-! ## Looking at bytes that are there -/

theorem slice?_drop {bytes : Bytes} {start : Nat} (h : start ≤ bytes.length) :
    slice? bytes start bytes.length = some (bytes.drop start) := by
  rw [slice?, if_pos ⟨h, Nat.le_refl _⟩, ← List.length_drop, List.take_length]

/-- A word near the front of a buffer is found if it is there. -/
theorem wordAt?_eq {bytes : Bytes} {start : Nat} (h : start < 65534) :
    wordAt? m bytes start = bytes.wordAt? start := by
  have hposition : start + 2 < 2 ^ m.bits := by
    have hwide := m.le_two_pow
    omega
  rw [wordAt?, if_pos hposition, slice?, Bytes.wordAt?, Nat.add_sub_cancel_left]
  have hlength : (bytes.drop start).length = bytes.length - start := List.length_drop
  match hdrop : bytes.drop start with
  | [] =>
    rw [hdrop, List.length_nil] at hlength
    rw [if_neg (by omega)]
  | [_] =>
    rw [hdrop, List.length_singleton] at hlength
    rw [if_neg (by omega)]
  | low :: high :: rest =>
    rw [hdrop, List.length_cons, List.length_cons] at hlength
    rw [if_pos ⟨by omega, by omega⟩]
    rfl

/-! ## Opcodes -/

theorem opcode_eq (bytes : Bytes) : opcode bytes = .ok (Opcode.decode bytes) := by
  cases bytes with
  | nil => rfl
  | cons first rest =>
    have hfirst : first.toNat < 256 := first.toNat_lt
    have hone : first.toNat / 64 ≤ 1 ↔ first < 0x80 := by
      rw [UInt8.lt_iff_toNat_lt]
      simp only [UInt8.reduceToNat]
      omega
    have htwo : first.toNat / 64 = 2 ↔ ¬ first < 0x80 ∧ first < 0xC0 := by
      rw [UInt8.lt_iff_toNat_lt, UInt8.lt_iff_toNat_lt]
      simp only [UInt8.reduceToNat]
      omega
    simp only [opcode, Opcode.decode, shiftRight_of_lt (show 6 < 8 by omega), Nat.reducePow,
      ok_bind, pure_eq_ok, hone, htwo]
    by_cases hnarrow : first < 0x80
    · by_cases hreserved : first = 0x7F <;> simp [hnarrow, hreserved]
    have hreserved : ¬ first = 0x7F := by
      rintro rfl
      exact hnarrow (by decide)
    by_cases hpair : first < 0xC0
    · rcases rest with _ | ⟨second, rest⟩ <;> simp [hnarrow, hreserved, hpair, slice?]
    · rcases rest with _ | ⟨second, _ | ⟨third, rest⟩⟩ <;>
        simp [hnarrow, hreserved, hpair, slice?]

/-! ## Parameters -/

theorem low12_eq (w : UInt16) : w &&& KeyIndex.maximum = KeyIndex.low12 w := by
  apply UInt16.toNat_inj.mp
  have hmask : w.toNat &&& 4095 = w.toNat % 4096 := Nat.and_two_pow_sub_one_eq_mod w.toNat 12
  have hlow : KeyIndex.low12 w = UInt16.ofNat (w.toNat % 4096) := rfl
  rw [hlow, UInt16.toNat_and, UInt16.toNat_ofNat_of_lt', ← hmask]
  · rfl
  · simp only [UInt16.size]
    omega

theorem indexPair_eq (first second third : UInt8) :
    indexPair m [first, second, third] = .ok (some (KeyIndex.unpack first second third)) := by
  have hlower : wordAt? m [first, second, third] 0 = some (Bytes.word first second) :=
    wordAt?_eq m (by omega)
  have hupper : wordAt? m [first, second, third] 1 = some (Bytes.word second third) :=
    wordAt?_eq m (by omega)
  simp [indexPair, hlower, hupper, shiftRight_of_lt, low12_eq, KeyIndex.unpack]

/-- A list of indices is read to its end. -/
theorem indices_eq (packed : Bytes) : indices m packed = .ok (Report.readIndices? packed) := by
  fun_induction Report.readIndices? packed with
  | case1 => rfl
  | case2 => rfl
  | case3 low high =>
    have hword : wordAt? m [low, high] 0 = some (Bytes.word low high) := wordAt?_eq m (by omega)
    simp [indices, hword, low12_eq]
  | case4 first second third rest later hlater pair ih =>
    rw [hlater] at ih
    simp [indices, indexPair_eq, ih, pair]
  | case5 first second third rest hrest ih =>
    rw [hrest] at ih
    simp [indices, indexPair_eq, ih]

theorem model?_eq (bytes : Bytes) : model? m bytes = Model.ofBytes? bytes := by
  simp only [model?, wordAt?_eq m (show 0 < 65534 by omega), wordAt?_eq m (show 2 < 65534 by omega)]
  rcases bytes with _ | ⟨b0, _ | ⟨b1, _ | ⟨b2, _ | ⟨b3, _ | ⟨b4, rest⟩⟩⟩⟩⟩ <;>
    simp [Model.ofBytes?, Bytes.wordAt?]

theorem retransmit_eq (byte : UInt8) : retransmit byte = .ok (Retransmit.decode byte) := by
  have hbyte : byte.toNat < 256 := byte.toNat_lt
  have hcount : byte &&& 7 = UInt8.ofNat (byte.toNat % 8) := by
    have hmask : byte.toNat &&& 7 = byte.toNat % 8 := Nat.and_two_pow_sub_one_eq_mod byte.toNat 3
    apply UInt8.toNat_inj.mp
    rw [UInt8.toNat_and, UInt8.toNat_ofNat_of_lt', ← hmask]
    · rfl
    · simp only [UInt8.size]
      omega
  simp only [retransmit, shiftRight_of_lt (show 3 < 8 by omega), Nat.reducePow, ok_bind, pure_eq_ok]
  rw [add_of_lt (by omega), ok_bind, mul_of_lt (by omega), ok_bind, hcount]
  rfl

end Trapping

end MeshFoundation
