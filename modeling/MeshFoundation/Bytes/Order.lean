/-!
# Bytes and byte orders

Everything that travels between nodes is a list of bytes. Opcodes are written
most significant byte first (network order); all other numbers are written
least significant byte first (little-endian). This file fixes both orders, once
for reading and once for writing, on natural-number arithmetic, so that each
statement about a layout is a statement about quotients and remainders by 256.
-/

set_option autoImplicit false

namespace MeshFoundation

/-- A string of bytes, first byte first. -/
abbrev Bytes := List UInt8

namespace Bytes

/-- The low eight bits of a number, as a byte. -/
def lowByte (n : Nat) : UInt8 := UInt8.ofNat (n % 256)

/-- The 16-bit word whose less significant byte is `low`. -/
def word (low high : UInt8) : UInt16 := UInt16.ofNat (low.toNat + 256 * high.toNat)

/-- The 24-bit number with the given bytes, the most significant one first. -/
def triple (high middle low : UInt8) : UInt32 :=
  UInt32.ofNat (65536 * high.toNat + 256 * middle.toNat + low.toNat)

/-- A 16-bit word in little-endian order. -/
def ofWord (w : UInt16) : Bytes := [lowByte w.toNat, lowByte (w.toNat / 256)]

/-- A 16-bit word in network order. -/
def ofWordNetwork (w : UInt16) : Bytes := [lowByte (w.toNat / 256), lowByte w.toNat]

/-- The low 24 bits of a number in network order; the most significant byte is dropped. -/
def ofTripleNetwork (v : UInt32) : Bytes :=
  [lowByte (v.toNat / 65536), lowByte (v.toNat / 256), lowByte v.toNat]

/-- The little-endian word that starts at `offset`, if both of its bytes are there. -/
def wordAt? (bytes : Bytes) (offset : Nat) : Option UInt16 :=
  match bytes.drop offset with
  | low :: high :: _ => some (word low high)
  | _ => none

@[simp] theorem length_ofWord (w : UInt16) : (ofWord w).length = 2 := rfl

theorem lowByte_toNat (b : UInt8) : lowByte b.toNat = b := by
  have hb : b.toNat < 256 := b.toNat_lt
  rw [lowByte, Nat.mod_eq_of_lt hb, UInt8.ofNat_toNat]

theorem toNat_lowByte (n : Nat) : (lowByte n).toNat = n % 256 := by
  simp [lowByte]

theorem toNat_word (low high : UInt8) : (word low high).toNat = low.toNat + 256 * high.toNat := by
  have hl : low.toNat < 256 := low.toNat_lt
  have hh : high.toNat < 256 := high.toNat_lt
  rw [word, UInt16.toNat_ofNat_of_lt']
  simp only [UInt16.size]
  omega

theorem toNat_triple (high middle low : UInt8) :
    (triple high middle low).toNat = 65536 * high.toNat + 256 * middle.toNat + low.toNat := by
  have hh : high.toNat < 256 := high.toNat_lt
  have hm : middle.toNat < 256 := middle.toNat_lt
  have hl : low.toNat < 256 := low.toNat_lt
  rw [triple, UInt32.toNat_ofNat_of_lt']
  simp only [UInt32.size]
  omega

/-- Reading the little-endian form of a word gives the word back. -/
theorem word_of_ofWord (w : UInt16) :
    word (lowByte w.toNat) (lowByte (w.toNat / 256)) = w := by
  apply UInt16.toNat_inj.mp
  have hw : w.toNat < 65536 := w.toNat_lt
  rw [toNat_word, toNat_lowByte, toNat_lowByte]
  omega

/-- Writing a word that was read gives the two bytes back. -/
theorem ofWord_word (low high : UInt8) : ofWord (word low high) = [low, high] := by
  have hl : low.toNat < 256 := low.toNat_lt
  have hh : high.toNat < 256 := high.toNat_lt
  rw [ofWord, toNat_word]
  congr 1
  · apply UInt8.toNat_inj.mp
    rw [toNat_lowByte]
    omega
  · congr 1
    apply UInt8.toNat_inj.mp
    rw [toNat_lowByte]
    omega

end Bytes

end MeshFoundation
