import MeshFoundation.Opcode.Codec

/-!
# Streams of opcodes

Opcodes that are written one after another into one buffer need no separators: each of
them says by its first byte how long it is. An opcode that cannot be sent leaves no trace
in the buffer.
-/

set_option autoImplicit false

namespace MeshFoundation.Opcode

/-- Writes the opcodes of a list into a buffer. For each of them the answer is how many
bytes were written, or why none were, and the buffer as it was then. -/
def writeAll (buffer : Bytes) : List Opcode → List (Except Fault Nat × Bytes)
  | [] => []
  | op :: rest =>
    let (buffer', result) := writeTo buffer op
    (result, buffer') :: writeAll buffer' rest

/-- An opcode that was read took at least one of the bytes, and no more than there are. -/
theorem width_of_decode {bytes : Bytes} {op : Opcode} {width : Nat}
    (h : decode bytes = .ok (op, width)) : 0 < width ∧ width ≤ bytes.length := by
  unfold decode at h
  split at h
  · cases h
  · split at h
    · cases h
    · split at h
      · cases h
        simp
      · split at h
        · split at h
          · cases h
            simp
          · cases h
        · split at h
          · cases h
            simp
          · cases h

/-- Reads opcodes until the bytes are used up. -/
def readAll (bytes : Bytes) : Except Fault (List Opcode) :=
  if bytes = [] then .ok []
  else
    match _h : decode bytes with
    | .error fault => .error fault
    | .ok (op, width) =>
      match readAll (bytes.drop width) with
      | .ok ops => .ok (op :: ops)
      | .error fault => .error fault
termination_by bytes.length
decreasing_by
  have hwidth := width_of_decode _h
  simp only [List.length_drop]
  omega

end MeshFoundation.Opcode
