/-!
# Quoted characters

A character that a message points at stands between single quotes. A few control
characters, the quote and the backslash have a short form with a backslash; any
other character that has no shape of its own is given by its number.
-/

set_option autoImplicit false

namespace MeshFoundation.Text

/-- The characters below 256 that have no shape of their own: the two blocks of
control characters, the no-break space and the soft hyphen. -/
def isShapeless (n : Nat) : Bool :=
  n < 0x20 || (0x7F ≤ n && n ≤ 0xA0) || n == 0xAD

/-- A character that stands for itself or for its escape, without the quotes. -/
def escaped (byte : UInt8) : String :=
  let n := byte.toNat
  if n = 0 then "\\0"
  else if n = 9 then "\\t"
  else if n = 10 then "\\n"
  else if n = 13 then "\\r"
  else if n = 0x27 then "\\'"
  else if n = 0x5C then "\\\\"
  else if isShapeless n then "\\u\x7b" ++ String.ofList (Nat.toDigits 16 n) ++ "\x7d"
  else String.singleton (Char.ofNat n)

/-- A byte, taken as the character with that number, between single quotes. -/
def quoted (byte : UInt8) : String := "'" ++ escaped byte ++ "'"

end MeshFoundation.Text
