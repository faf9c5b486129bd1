import MeshFoundation.Bytes.Order

/-!
# Model identifiers

A model is either defined by the Bluetooth SIG, and then named by one word, or by
a vendor, and then named by the vendor's company identifier and a word of the
vendor's choice. Both words travel in little-endian order, the company first. As a
single number, a vendor model has its company in the upper half.
-/

set_option autoImplicit false

namespace MeshFoundation

inductive Model where
  | sig (id : UInt16)
  | vendor (company id : UInt16)
  deriving DecidableEq, Repr

namespace Model

/-- The identifier as a single number. -/
def number : Model → UInt32
  | .sig id => id.toUInt32
  | .vendor company id => UInt32.ofNat (65536 * company.toNat + id.toNat)

/-- The bytes of an identifier, two or four. -/
def bytes : Model → Bytes
  | .sig id => Bytes.ofWord id
  | .vendor company id => Bytes.ofWord company ++ Bytes.ofWord id

/-- The identifier in two or four bytes. -/
def ofBytes? : Bytes → Option Model
  | [low, high] => some (.sig (Bytes.word low high))
  | [companyLow, companyHigh, low, high] =>
    some (.vendor (Bytes.word companyLow companyHigh) (Bytes.word low high))
  | _ => none

theorem ofBytes?_bytes (m : Model) : ofBytes? m.bytes = some m := by
  cases m with
  | sig id => simp [bytes, Bytes.ofWord, ofBytes?, Bytes.word_of_ofWord]
  | vendor company id => simp [bytes, Bytes.ofWord, ofBytes?, Bytes.word_of_ofWord]

/-- Bytes that were read as an identifier are the bytes of that identifier. -/
theorem bytes_of_ofBytes? (bs : Bytes) (m : Model) (h : ofBytes? bs = some m) : m.bytes = bs := by
  unfold ofBytes? at h
  split at h
  · cases h
    simp [bytes, Bytes.ofWord_word]
  · cases h
    simp [bytes, Bytes.ofWord_word]
  · cases h

end Model

end MeshFoundation
