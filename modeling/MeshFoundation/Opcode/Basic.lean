import MeshFoundation.Text.Numeral

/-!
# Opcodes

An access message starts with its opcode, a number of one, two or three bytes.
One bit of the number, the unreliable flag, does not tell messages apart: the
opcode with the flag cleared is the one that names the message. A number outside
the three ranges below has no width and cannot be sent.
-/

set_option autoImplicit false

namespace MeshFoundation

/-- The number that names an access message. -/
structure Opcode where
  value : UInt32
  deriving DecidableEq, Repr

namespace Opcode

/-- The place value of the unreliable flag. -/
def flag : UInt32 := 0x0100

def isUnreliable (op : Opcode) : Bool := op.value.toNat.testBit 8

/-- The opcode with the unreliable flag cleared. -/
def reliable (op : Opcode) : Opcode :=
  if op.isUnreliable then ⟨op.value - flag⟩ else op

/-- How many bytes the opcode takes, if it can be sent at all. -/
def width? (op : Opcode) : Option Nat :=
  if op.value ≤ 0x7E then some 1
  else if 0x8000 ≤ op.value ∧ op.value ≤ 0xBFFF then some 2
  else if 0xC00000 ≤ op.value ∧ op.value ≤ 0xFFFFFF then some 3
  else none

/-- The opcode in hexadecimal with at least four digits. -/
def text (op : Opcode) : String := Text.hexadecimal 4 op.value.toNat

/-- Clearing the flag takes its place value away exactly when the flag is set. -/
theorem toNat_reliable (op : Opcode) :
    op.reliable.value.toNat = op.value.toNat - (op.value.toNat / 256 % 2) * 256 := by
  have hbit : op.isUnreliable = decide (op.value.toNat / 256 % 2 = 1) := by
    simp [isUnreliable, Nat.testBit_eq_decide_div_mod_eq]
  by_cases h : op.value.toNat / 256 % 2 = 1
  · have hle : flag ≤ op.value := by
      rw [UInt32.le_iff_toNat_le]
      simp only [flag, UInt32.reduceToNat]
      omega
    simp only [reliable, hbit, h, decide_true, if_true]
    rw [UInt32.toNat_sub_of_le _ _ hle]
    simp [flag]
  · simp only [reliable, hbit, h, decide_false, Bool.false_eq_true, if_false]
    omega

/-- Clearing the flag of an opcode whose flag is clear changes nothing. -/
theorem reliable_of_not_isUnreliable (op : Opcode) (h : op.isUnreliable = false) :
    op.reliable = op := by
  simp [reliable, h]

theorem isUnreliable_reliable (op : Opcode) : op.reliable.isUnreliable = false := by
  have hvalue := toNat_reliable op
  have hbit : op.reliable.isUnreliable = decide (op.reliable.value.toNat / 256 % 2 = 1) := by
    simp [isUnreliable, Nat.testBit_eq_decide_div_mod_eq]
  rw [hbit, hvalue]
  apply decide_eq_false
  omega

theorem reliable_reliable (op : Opcode) : op.reliable.reliable = op.reliable :=
  reliable_of_not_isUnreliable _ (isUnreliable_reliable op)

/-- Where no two kinds of messages share an opcode, an opcode is looked up as the one kind
whose opcode it is without its flag. -/
theorem find?_eq_some_iff {α : Type} {opcode : α → Opcode} {all : List α}
    (hinj : ∀ a b, opcode a = opcode b → a = b) (hall : ∀ a, a ∈ all) {op : Opcode} {a : α} :
    (all.find? fun b => opcode b = op.reliable) = some a ↔ opcode a = op.reliable := by
  constructor
  · intro h
    simpa using List.find?_some h
  · intro h
    have hsome : (all.find? fun b => opcode b = op.reliable).isSome = true := by
      rw [List.find?_isSome]
      exact ⟨a, hall a, by simpa using h⟩
    obtain ⟨found, hfound⟩ := Option.isSome_iff_exists.mp hsome
    have heq : opcode found = op.reliable := by simpa using List.find?_some hfound
    rw [hfound, hinj found a (heq.trans h.symm)]

end Opcode

end MeshFoundation
