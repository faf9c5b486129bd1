import MeshFoundation.Bytes.Order
import MeshFoundation.Opcode.Basic

/-!
# The variable-width opcode code

The first byte of an opcode tells its width: a clear top bit means one byte, the
top bits 10 two bytes, the top bits 11 three. The single byte `0x7F` is reserved.
Opcodes of more than one byte are in network order. The code is self-delimiting,
so a list of opcodes can be written one after another into one buffer and read
back without separators.
-/

set_option autoImplicit false

namespace MeshFoundation.Opcode

/-- Why bytes are no opcode, or an opcode has no bytes. -/
inductive Fault where
  | empty
  /-- The first byte is the reserved one. -/
  | reserved
  /-- The first byte announces more bytes than there are. -/
  | truncated (available needed : Nat)
  /-- The number lies in none of the three ranges. -/
  | outOfRange (opcode : Opcode)
  deriving DecidableEq, Repr

def Fault.message : Fault → String
  | .empty => "access payload is empty"
  | .reserved => "reserved opcode 0x7f"
  | .truncated available needed =>
    "truncated opcode: have " ++ Text.decimal available ++ " bytes, need " ++ Text.decimal needed
  | .outOfRange opcode =>
    "opcode " ++ Text.hexadecimal 1 opcode.value.toNat ++ " is outside every encodable range"

/-- How many bytes an opcode takes whose first byte is the given one. -/
def announcedWidth (first : UInt8) : Nat :=
  if first < 0x80 then 1 else if first < 0xC0 then 2 else 3

/-- Reads the opcode at the front of a payload and says how many bytes it took. -/
def decode : Bytes → Except Fault (Opcode × Nat)
  | [] => .error .empty
  | first :: rest =>
    if first = 0x7F then .error .reserved
    else if first < 0x80 then .ok (⟨first.toUInt32⟩, 1)
    else if first < 0xC0 then
      match rest with
      | second :: _ => .ok (⟨(Bytes.word second first).toUInt32⟩, 2)
      | [] => .error (.truncated 1 2)
    else
      match rest with
      | second :: third :: _ => .ok (⟨Bytes.triple first second third⟩, 3)
      | _ => .error (.truncated (rest.length + 1) 3)

def encode (op : Opcode) : Except Fault Bytes :=
  match op.width? with
  | some 1 => .ok [Bytes.lowByte op.value.toNat]
  | some 2 => .ok (Bytes.ofWordNetwork op.value.toUInt16)
  | some _ => .ok (Bytes.ofTripleNetwork op.value)
  | none => .error (.outOfRange op)

/-- Appends the bytes of an opcode to a buffer and says how many were written. An
opcode that cannot be sent leaves the buffer as it was. -/
def writeTo (buffer : Bytes) (op : Opcode) : Bytes × Except Fault Nat :=
  match op.encode with
  | .ok bytes => (buffer ++ bytes, .ok bytes.length)
  | .error fault => (buffer, .error fault)

end MeshFoundation.Opcode
