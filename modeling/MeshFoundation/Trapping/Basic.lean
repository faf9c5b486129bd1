import Mathlib.Algebra.Group.Nat.Defs
import MeshFoundation.Bytes.Order

/-!
# Calculations that can trap

A machine has no numbers of any size and no bytes behind the end of a buffer. A calculation that
needs one of them does not go on: it traps, and with it the program that makes it. Here are the
operations of such a machine, each with the condition under which it goes on: arithmetic on
numbers of a fixed width, reading from the front of a buffer, and loops that must end.

Not every access to a buffer traps. One that asks for a range of bytes and is told when it is not
there leaves the decision to its caller (`slice?`, `wordAt?`).

The width of lengths and positions is that of the addresses of the machine. All that is taken for
granted of it is that it holds the numbers up to 65535, and that no buffer takes half of the
addresses or more. Memory for what is read is taken for granted as well.
-/

set_option autoImplicit false

namespace MeshFoundation

/-- Why a calculation does not go on. -/
inductive Trap where
  /-- A byte is read behind the end of a buffer. -/
  | overrun
  /-- A number does not fit its width. -/
  | overflow
  /-- A number is shifted by its width or more. -/
  | overshift
  /-- A loop does not end within the rounds that it is given. -/
  | unfinished
  deriving DecidableEq, Repr

/-- A calculation that goes on with a value, or traps. -/
abbrev Trapping (α : Type) := Except Trap α

structure Machine where
  /-- The width of lengths and positions. -/
  bits : Nat
  wide : 16 ≤ bits

/-- A machine can hold a buffer that takes less than half of its addresses. -/
def Machine.Holds (m : Machine) (bytes : Bytes) : Prop := bytes.length < 2 ^ (m.bits - 1)

namespace Trapping

@[simp] theorem ok_bind {α β : Type} (a : α) (next : α → Trapping β) :
    ((.ok a : Trapping α) >>= next) = next a :=
  rfl

@[simp] theorem pure_eq_ok {α : Type} (a : α) : (pure a : Trapping α) = .ok a := rfl

/-! ## Arithmetic -/

/-- Goes on with a number if it fits the width. -/
def fit (bits n : Nat) : Trapping Nat := if n < 2 ^ bits then .ok n else .error .overflow

def add (bits a b : Nat) : Trapping Nat := fit bits (a + b)

def mul (bits a b : Nat) : Trapping Nat := fit bits (a * b)

/-- Shifts a number to the left, where its upper bits are lost. -/
def shiftLeft (bits a n : Nat) : Trapping Nat :=
  if n < bits then .ok ((a <<< n) % 2 ^ bits) else .error .overshift

def shiftRight (bits a n : Nat) : Trapping Nat :=
  if n < bits then .ok (a >>> n) else .error .overshift

theorem fit_of_lt {bits n : Nat} (h : n < 2 ^ bits) : fit bits n = .ok n := if_pos h

theorem add_of_lt {bits a b : Nat} (h : a + b < 2 ^ bits) : add bits a b = .ok (a + b) :=
  fit_of_lt h

theorem mul_of_lt {bits a b : Nat} (h : a * b < 2 ^ bits) : mul bits a b = .ok (a * b) :=
  fit_of_lt h

theorem shiftLeft_of_lt {bits a n : Nat} (h : n < bits) :
    shiftLeft bits a n = .ok ((a <<< n) % 2 ^ bits) :=
  if_pos h

theorem shiftRight_of_lt {bits a n : Nat} (h : n < bits) :
    shiftRight bits a n = .ok (a / 2 ^ n) := by
  rw [shiftRight, if_pos h, Nat.shiftRight_eq_div_pow]

/-! ## Buffers -/

/-- Takes the byte at the front of a buffer. -/
def takeByte : Bytes → Trapping (UInt8 × Bytes)
  | byte :: rest => .ok (byte, rest)
  | [] => .error .overrun

/-- Takes the little-endian word at the front of a buffer. -/
def takeWord : Bytes → Trapping (UInt16 × Bytes)
  | low :: high :: rest => .ok (Bytes.word low high, rest)
  | _ => .error .overrun

/-- Takes several things of one kind from the front of a buffer. -/
def takeMany {α : Type} (takeOne : Bytes → Trapping (α × Bytes)) :
    Nat → Bytes → Trapping (List α × Bytes)
  | 0, bytes => .ok ([], bytes)
  | count + 1, bytes => do
    let (first, bytes) ← takeOne bytes
    let (rest, bytes) ← takeMany takeOne count bytes
    return (first :: rest, bytes)

/-- The bytes of a range of positions, if all of them are there. -/
def slice? (bytes : Bytes) (start stop : Nat) : Option Bytes :=
  if start ≤ stop ∧ stop ≤ bytes.length then some ((bytes.drop start).take (stop - start))
  else none

/-- The little-endian word at a position, if it is there and its end is a position too. -/
def wordAt? (m : Machine) (bytes : Bytes) (start : Nat) : Option UInt16 :=
  if start + 2 < 2 ^ m.bits then
    match slice? bytes start (start + 2) with
    | some [low, high] => some (Bytes.word low high)
    | _ => none
  else none

theorem takeByte_cons (byte : UInt8) (rest : Bytes) : takeByte (byte :: rest) = .ok (byte, rest) :=
  rfl

theorem takeWord_cons_cons (low high : UInt8) (rest : Bytes) :
    takeWord (low :: high :: rest) = .ok (Bytes.word low high, rest) :=
  rfl

end Trapping

end MeshFoundation
