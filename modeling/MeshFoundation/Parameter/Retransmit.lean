import MeshFoundation.Bytes.Order
import MeshFoundation.Parameter.Fault

/-!
# Relay retransmission

How often a relay repeats a message and at what distance. Both numbers share one
byte: three bits for the count and five bits for the number of steps of ten
milliseconds, less one.
-/

set_option autoImplicit false

namespace MeshFoundation

/-- The retransmission parameters of a relay. -/
structure Retransmit where
  /-- How often a message is repeated after it was sent first. -/
  count : UInt8
  /-- The time between two repetitions, in milliseconds. -/
  interval : UInt16
  deriving DecidableEq, Repr

namespace Retransmit

/-- The byte of the given parameters. The count is checked before the interval. -/
def encode (r : Retransmit) : Except ParameterFault UInt8 :=
  if 7 < r.count then .error .retransmitCount
  else if r.interval.toNat % 10 = 0 ∧ 10 ≤ r.interval.toNat ∧ r.interval.toNat ≤ 320 then
    .ok (Bytes.lowByte (r.count.toNat + 8 * (r.interval.toNat / 10 - 1)))
  else .error .retransmitInterval

/-- The parameters in a byte. Every byte holds some. -/
def decode (byte : UInt8) : Retransmit :=
  ⟨UInt8.ofNat (byte.toNat % 8), UInt16.ofNat ((byte.toNat / 8 + 1) * 10)⟩

/-- Parameters that have a byte are read back from it. -/
theorem decode_encode (r : Retransmit) (byte : UInt8) (h : r.encode = .ok byte) :
    decode byte = r := by
  unfold encode at h
  split at h
  · cases h
  · rename_i hcount
    have hcount : r.count.toNat ≤ 7 := by
      rw [UInt8.lt_iff_toNat_lt] at hcount
      simpa using hcount
    split at h
    · rename_i hinterval
      cases h
      cases r with
      | mk count interval =>
        simp only at hcount hinterval
        simp only [decode, Bytes.toNat_lowByte, Retransmit.mk.injEq]
        constructor
        · apply UInt8.toNat_inj.mp
          rw [UInt8.toNat_ofNat_of_lt']
          · omega
          · simp only [UInt8.size]
            omega
        · apply UInt16.toNat_inj.mp
          rw [UInt16.toNat_ofNat_of_lt']
          · omega
          · simp only [UInt16.size]
            omega
    · cases h

end Retransmit

end MeshFoundation
