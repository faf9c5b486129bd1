import MeshFoundation.Bytes.Order
import MeshFoundation.Parameter.Fault

/-!
# Key indices

Network and application keys are named by twelve-bit indices. Alone, an index
takes a little-endian word. Two of them together, a network key index and an
application key index, take three bytes: read as one little-endian number of 24
bits, the network index is its lower half and the application index its upper half.
-/

set_option autoImplicit false

namespace MeshFoundation.KeyIndex

def maximum : UInt16 := 0x0FFF

/-- Lets an index pass that fits twelve bits. -/
def check (index : UInt16) : Except ParameterFault UInt16 :=
  if maximum < index then .error .keyIndex else .ok index

/-- The lower twelve bits of a word. -/
def low12 (w : UInt16) : UInt16 := UInt16.ofNat (w.toNat % 4096)

/-- A network key index and an application key index in three bytes. -/
def pack (net app : UInt16) : Bytes :=
  [Bytes.lowByte net.toNat,
    Bytes.lowByte (net.toNat / 256 % 16 + 16 * (app.toNat % 16)),
    Bytes.lowByte (app.toNat / 16)]

/-- A list of indices: three bytes for every two of them, and a word for an odd last one. -/
def packAll : List UInt16 → Bytes
  | [] => []
  | [last] => Bytes.ofWord last
  | first :: second :: rest => pack first second ++ packAll rest

/-- The network key index and the application key index in three bytes. -/
def unpack (first second third : UInt8) : UInt16 × UInt16 :=
  (low12 (Bytes.word first second), UInt16.ofNat ((Bytes.word second third).toNat / 16))

/-- An index passes the check exactly when it fits twelve bits. -/
theorem check_eq_ok_iff (index : UInt16) : check index = .ok index ↔ index.toNat < 4096 := by
  have hmax : maximum < index ↔ ¬ index.toNat < 4096 := by
    rw [UInt16.lt_iff_toNat_lt]
    simp only [maximum, UInt16.reduceToNat]
    omega
  unfold check
  split <;> simp_all

/-- Two indices that fit twelve bits are read back as they were packed. -/
theorem unpack_pack (net app : UInt16) (hnet : net.toNat < 4096) (happ : app.toNat < 4096) :
    unpack (Bytes.lowByte net.toNat)
      (Bytes.lowByte (net.toNat / 256 % 16 + 16 * (app.toNat % 16)))
      (Bytes.lowByte (app.toNat / 16)) = (net, app) := by
  simp only [unpack, low12, Prod.mk.injEq]
  constructor
  · apply UInt16.toNat_inj.mp
    rw [UInt16.toNat_ofNat_of_lt', Bytes.toNat_word, Bytes.toNat_lowByte, Bytes.toNat_lowByte]
    · omega
    · simp only [UInt16.size]
      omega
  · apply UInt16.toNat_inj.mp
    have hword := (Bytes.word (Bytes.lowByte (net.toNat / 256 % 16 + 16 * (app.toNat % 16)))
      (Bytes.lowByte (app.toNat / 16))).toNat_lt
    rw [UInt16.toNat_ofNat_of_lt', Bytes.toNat_word, Bytes.toNat_lowByte, Bytes.toNat_lowByte]
    · omega
    · simp only [UInt16.size]
      omega

end MeshFoundation.KeyIndex
