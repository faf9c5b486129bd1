import MeshFoundation.Proofs.Opcode.Inverse

/-!
# The unreliable flag in numbers and in bytes

Two opcodes are the same without the flag exactly if all of their other bits are the same
(`Opcode.reliable_eq_iff`). In the number of an opcode the flag is one bit. In the bytes it is the
lowest bit of the last byte but one, which is the first of two bytes and the second of three; an
opcode of one byte has no place for it. To toggle this bit changes neither the width of an opcode
nor what stands behind it (`Opcode.decode_toggleFlag`), because the width shows in the two topmost
bits of the first byte.
-/

set_option autoImplicit false

namespace MeshFoundation

namespace Bytes

/-- Two numbers are compared bit by bit in their last byte and in what stands above it. -/
theorem xor_of_lt (high high' : Nat) {low low' : Nat} (h : low < 256) (h' : low' < 256) :
    (256 * high + low) ^^^ (256 * high' + low') = 256 * (high ^^^ high') + (low ^^^ low') := by
  have hdiv : ((256 * high + low) ^^^ (256 * high' + low')) / 2 ^ 8 = high ^^^ high' := by
    rw [Nat.xor_div_two_pow]
    congr 1 <;> omega
  have hmod : ((256 * high + low) ^^^ (256 * high' + low')) % 2 ^ 8 = low ^^^ low' := by
    rw [Nat.xor_mod_two_pow]
    congr 1 <;> omega
  omega

end Bytes

namespace Opcode

variable {op : Opcode} {bytes : Bytes} {width : Nat}

/-! ## The flag as a bit of a number -/

/-- The opcode with the other state of the unreliable flag. -/
def toggled (op : Opcode) : Opcode := ⟨op.value ^^^ flag⟩

/-- The two opcodes have all bits but the unreliable flag in common. -/
def SameButFlag (a b : Opcode) : Prop :=
  ∀ i, 8 ≠ i → a.value.toNat.testBit i = b.value.toNat.testBit i

theorem testBit_toggled (op : Opcode) (i : Nat) :
    op.toggled.value.toNat.testBit i = (op.value.toNat.testBit i ^^ decide (8 = i)) := by
  have hflag : flag.toNat = 2 ^ 8 := rfl
  rw [toggled, UInt32.toNat_xor, Nat.testBit_xor, hflag, Nat.testBit_two_pow]

/-- To clear a flag that is set is to toggle it. -/
theorem reliable_of_isUnreliable (h : op.isUnreliable = true) : op.reliable = op.toggled := by
  have hflag : flag.toNat = 2 ^ 8 := rfl
  have hset : op.value.toNat / 256 % 2 = 1 := by
    simpa [isUnreliable, Nat.testBit_eq_decide_div_mod_eq] using h
  have hvalue := toNat_reliable op
  -- Toggling keeps the bits above the flag and those below it.
  have habove : (op.value.toNat ^^^ 2 ^ 8) / 2 ^ 9 = op.value.toNat / 2 ^ 9 := by
    rw [Nat.xor_div_two_pow]
    exact Nat.xor_zero _
  have hbelow : (op.value.toNat ^^^ 2 ^ 8) % 2 ^ 8 = op.value.toNat % 2 ^ 8 := by
    rw [Nat.xor_mod_two_pow]
    exact Nat.xor_zero _
  have hclear : (op.value.toNat ^^^ 2 ^ 8) / 2 ^ 8 % 2 ^ 1 = 0 := by
    rw [Nat.xor_div_two_pow, Nat.xor_mod_two_pow, Nat.pow_one, hset]
    rfl
  suffices htoNat : op.reliable.value.toNat = op.toggled.value.toNat from
    congrArg Opcode.mk (UInt32.toNat_inj.mp htoNat)
  rw [hvalue, toggled, UInt32.toNat_xor, hflag]
  omega

theorem testBit_reliable (op : Opcode) (i : Nat) :
    op.reliable.value.toNat.testBit i = (op.value.toNat.testBit i && decide (8 ≠ i)) := by
  cases hbit : op.isUnreliable with
  | false =>
    rw [reliable_of_not_isUnreliable op hbit]
    rw [isUnreliable] at hbit
    by_cases hi : 8 = i
    · subst hi
      simp [hbit]
    · simp [hi]
  | true =>
    rw [reliable_of_isUnreliable hbit, testBit_toggled]
    rw [isUnreliable] at hbit
    by_cases hi : 8 = i
    · subst hi
      simp [hbit]
    · simp [hi]

/-- Opcodes are the same without the flag exactly if they differ in nothing else. -/
theorem reliable_eq_iff {a b : Opcode} : a.reliable = b.reliable ↔ a.SameButFlag b := by
  constructor
  · intro h i hi
    have hbit := congrArg (fun op : Opcode => op.value.toNat.testBit i) h
    simpa only [testBit_reliable, ne_eq, hi, not_false_eq_true, decide_true, Bool.and_true]
      using hbit
  · intro h
    have hvalue : a.reliable.value = b.reliable.value := by
      apply UInt32.toNat_inj.mp
      apply Nat.eq_of_testBit_eq
      intro i
      rw [testBit_reliable, testBit_reliable]
      by_cases hi : 8 = i
      · simp [hi]
      · rw [h i hi]
    exact congrArg Opcode.mk hvalue

theorem reliable_toggled (op : Opcode) : op.toggled.reliable = op.reliable := by
  rw [reliable_eq_iff]
  intro i hi
  simp [testBit_toggled, hi]

/-! ## The flag as a bit of a byte -/

/-- The bytes of a message with the other state of the unreliable flag in its opcode, which has the
given width. -/
def toggleFlag (width : Nat) (bytes : Bytes) : Bytes := bytes.modify (width - 2) (· ^^^ 1)

section

variable {first second third : UInt8}

theorem toggled_pair :
    toggled ⟨(Bytes.word second first).toUInt32⟩ =
      ⟨(Bytes.word second (first ^^^ 1)).toUInt32⟩ := by
  have hflag : flag.toNat = 256 * 1 + 0 := rfl
  have hone : (1 : UInt8).toNat = 1 := rfl
  have hsecond : second.toNat < 256 := second.toNat_lt
  suffices htoNat : (Bytes.word second first).toUInt32.toNat ^^^ flag.toNat =
      (Bytes.word second (first ^^^ 1)).toUInt32.toNat from
    congrArg Opcode.mk (UInt32.toNat_inj.mp ((UInt32.toNat_xor _ _).trans htoNat))
  rw [UInt16.toNat_toUInt32, UInt16.toNat_toUInt32, Bytes.toNat_word, Bytes.toNat_word,
    UInt8.toNat_xor, hone, hflag, Nat.add_comm, Nat.add_comm second.toNat,
    Bytes.xor_of_lt _ _ hsecond (by decide), Nat.xor_zero]

theorem toggled_triple :
    toggled ⟨Bytes.triple first second third⟩ =
      ⟨Bytes.triple first (second ^^^ 1) third⟩ := by
  have hflag : flag.toNat = 256 * (256 * 0 + 1) + 0 := rfl
  have hone : (1 : UInt8).toNat = 1 := rfl
  have hsecond : second.toNat < 256 := second.toNat_lt
  have hthird : third.toNat < 256 := third.toNat_lt
  have hplaces : ∀ high middle low : Nat, 65536 * high + 256 * middle + low =
      256 * (256 * high + middle) + low := by
    intro high middle low
    omega
  suffices htoNat : (Bytes.triple first second third).toNat ^^^ flag.toNat =
      (Bytes.triple first (second ^^^ 1) third).toNat from
    congrArg Opcode.mk (UInt32.toNat_inj.mp ((UInt32.toNat_xor _ _).trans htoNat))
  rw [Bytes.toNat_triple, Bytes.toNat_triple, UInt8.toNat_xor, hone, hflag, hplaces, hplaces,
    Bytes.xor_of_lt _ _ hthird (by decide), Bytes.xor_of_lt _ _ hsecond (by decide),
    Nat.xor_zero, Nat.xor_zero]

/-- The flag is not one of the bits of a first byte that tell the width. -/
theorem toNat_toggled_div_two (first : UInt8) : (first ^^^ 1).toNat / 2 = first.toNat / 2 := by
  rw [UInt8.toNat_xor, ← Nat.pow_one 2, Nat.xor_div_two_pow]
  exact Nat.xor_zero _

end

/-- An opcode of more than one byte begins with a byte of one of two ranges. -/
theorem decode_wide_cases (h : decode bytes = .ok (op, width)) (hwide : 2 ≤ width) :
    (∃ first second rest, bytes = first :: second :: rest ∧ 0x80 ≤ first.toNat ∧
        first.toNat < 0xC0 ∧ op = ⟨(Bytes.word second first).toUInt32⟩ ∧ width = 2) ∨
      ∃ first second third rest, bytes = first :: second :: third :: rest ∧
        0xC0 ≤ first.toNat ∧ op = ⟨Bytes.triple first second third⟩ ∧ width = 3 := by
  unfold decode at h
  split at h
  · cases h
  · simp only [UInt8.lt_iff_toNat_lt, UInt8.reduceToNat] at h
    split at h
    · cases h
    split at h
    · cases h
      omega
    split at h
    · split at h
      · cases h
        exact .inl ⟨_, _, _, rfl, by omega, by omega, rfl, rfl⟩
      · cases h
    · split at h
      · cases h
        exact .inr ⟨_, _, _, _, rfl, by omega, rfl, rfl⟩
      · cases h

/-- With the other state of the flag, a message begins with the other opcode, which is just as
long. -/
theorem decode_toggleFlag (h : decode bytes = .ok (op, width)) (hwide : 2 ≤ width) :
    decode (toggleFlag width bytes) = .ok (op.toggled, width) := by
  rcases decode_wide_cases h hwide with ⟨first, second, rest, rfl, hlow, hhigh, rfl, rfl⟩ |
    ⟨first, second, third, rest, rfl, hlow, rfl, rfl⟩
  · have hhalf := toNat_toggled_div_two first
    have hlow' : 0x80 ≤ (first ^^^ 1).toNat := by omega
    have hhigh' : (first ^^^ 1).toNat < 0xC0 := by omega
    rw [toggled_pair]
    exact decode_pair hlow' hhigh'
  · rw [toggled_triple]
    exact decode_triple hlow

/-- The parameters are the same in both states of the flag. -/
theorem drop_toggleFlag (bytes : Bytes) (hwide : 2 ≤ width) :
    (toggleFlag width bytes).drop width = bytes.drop width := by
  have hplace : width - 2 < width := by omega
  exact List.drop_modify_of_lt _ _ _ _ hplace

end Opcode

end MeshFoundation
