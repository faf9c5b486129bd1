import MeshFoundation.Bytes.Order
import MeshFoundation.Text.Numeral
import MeshFoundation.Text.Quoted

/-!
# Bytes as hexadecimal text

Two digits a byte, the high half first. Writing uses lower case; reading takes
both cases, looks at the length before it looks at any digit, and then reports
the first byte of the text that is no digit, with its position.
-/

set_option autoImplicit false

namespace MeshFoundation.Hex

/-- Why a text is no list of bytes. -/
inductive Fault where
  /-- A digit is left over at the end. -/
  | oddLength
  /-- The byte at this position of the text is no hexadecimal digit. -/
  | invalid (byte : UInt8) (position : Nat)
  deriving DecidableEq, Repr

def Fault.message : Fault → String
  | .oddLength => "Odd number of digits"
  | .invalid byte position =>
    "Invalid character " ++ Text.quoted byte ++ " at position " ++ Text.decimal position

/-- The value of a hexadecimal digit, given by its character code. -/
def digit? (code : UInt8) : Option Nat :=
  let n := code.toNat
  if 48 ≤ n ∧ n ≤ 57 then some (n - 48)
  else if 97 ≤ n ∧ n ≤ 102 then some (n - 87)
  else if 65 ≤ n ∧ n ≤ 70 then some (n - 55)
  else none

/-- Reads pairs of digits, the first of which stands at `position`. -/
def readPairs : Nat → Bytes → Except Fault Bytes
  | _, [] => .ok []
  | _, [_] => .error .oddLength
  | position, high :: low :: rest =>
    match digit? high, digit? low with
    | none, _ => .error (.invalid high position)
    | some _, none => .error (.invalid low (position + 1))
    | some h, some l =>
      match readPairs (position + 2) rest with
      | .ok bytes => .ok (UInt8.ofNat (16 * h + l) :: bytes)
      | .error fault => .error fault

/-- Reads a text, given by its bytes. -/
def decode (text : Bytes) : Except Fault Bytes :=
  if text.length % 2 = 1 then .error .oddLength else readPairs 0 text

/-- The digit for a value below sixteen. -/
def digitChar (n : Nat) : Char :=
  if n < 10 then Char.ofNat (48 + n) else Char.ofNat (87 + n)

/-- Two lower-case digits a byte. -/
def encode (bytes : Bytes) : String :=
  String.ofList (bytes.flatMap fun b => [digitChar (b.toNat / 16), digitChar (b.toNat % 16)])

end MeshFoundation.Hex
