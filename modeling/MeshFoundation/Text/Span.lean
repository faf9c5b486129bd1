import MeshFoundation.Text.Numeral

/-!
# Spans of time

A span is a number of milliseconds. It is written in the largest of three units
that leaves it at least one: seconds with as many decimal places as it needs,
whole milliseconds, and for the empty span zero nanoseconds.
-/

set_option autoImplicit false

namespace MeshFoundation.Text

/-- The three decimal places of a number of thousandths, without the zeros at the end. -/
def places (thousandths : Nat) : List Char :=
  ((padded 3 (Nat.toDigits 10 thousandths)).reverse.dropWhile (· == '0')).reverse

/-- A span of time in the largest unit that leaves it at least one. -/
def span (milliseconds : Nat) : String :=
  if milliseconds = 0 then "0ns"
  else if milliseconds < 1000 then decimal milliseconds ++ "ms"
  else
    let fraction := places (milliseconds % 1000)
    let whole := decimal (milliseconds / 1000)
    if fraction.isEmpty then whole ++ "s"
    else whole ++ "." ++ String.ofList fraction ++ "s"

end MeshFoundation.Text
