import MeshFoundation.Composition.Basic
import MeshFoundation.Text.Numeral

/-!
# Reading composition data

The data start with a header of eleven bytes: the page, five little-endian words,
the last of which is the mask of features. Then follow the records of the elements,
each with its location, two counts and as many model identifiers as the counts say.
A record is read as a whole or not at all: the first one that is incomplete ends the
reading, and its bytes are left over.

The length of the records is not announced anywhere else, so the end of the data and
a record that was cut off look the same. How many bytes were left over is part of the
answer, for readers who want to tell the two apart.
-/

set_option autoImplicit false

namespace MeshFoundation

/-- The little-endian words of a list of bytes, each as a number; a last odd byte is dropped. -/
def Bytes.words : Bytes → List UInt32
  | low :: high :: rest => (Bytes.word low high).toUInt32 :: Bytes.words rest
  | _ => []

/-- The pairs of little-endian words of a list of bytes, each as one number with the
first word in its upper half; up to three bytes at the end are dropped. -/
def Bytes.wordPairs : Bytes → List UInt32
  | b0 :: b1 :: b2 :: b3 :: rest =>
    ((Bytes.word b0 b1).toUInt32 <<< 16 ||| (Bytes.word b2 b3).toUInt32) :: Bytes.wordPairs rest
  | _ => []

namespace Element

/-- Reads the element whose record stands at the front, if it is complete, and gives
the bytes behind it. -/
def read? : Bytes → Option (Element × Bytes)
  | low :: high :: sigCount :: vendorCount :: rest =>
    let sigLength := 2 * sigCount.toNat
    let length := sigLength + 4 * vendorCount.toNat
    let models := rest.take length
    if models.length < length then none
    else
      some (⟨Bytes.word low high, Bytes.words (models.take sigLength),
        Bytes.wordPairs (models.drop sigLength)⟩, rest.drop length)
  | _ => none

/-- A record takes four bytes at least, so what stands behind it is shorter. -/
theorem length_lt_of_read? {bytes rest : Bytes} {e : Element} (h : read? bytes = some (e, rest)) :
    rest.length < bytes.length := by
  unfold read? at h
  split at h
  · simp only at h
    split at h
    · cases h
    · cases h
      simp only [List.length_drop, List.length_cons]
      omega
  · cases h

/-- Reads elements as long as complete records stand at the front, and gives the bytes
that are left over. -/
def readAll (bytes : Bytes) : List Element × Bytes :=
  match _h : read? bytes with
  | none => ([], bytes)
  | some (e, rest) =>
    let (es, tail) := readAll rest
    (e :: es, tail)
termination_by bytes.length
decreasing_by exact length_lt_of_read? _h

end Element

namespace Composition

def headerLength : Nat := 11

/-- The only fault of composition data: the header is incomplete. -/
structure Truncated where
  available : Nat
  deriving DecidableEq, Repr

def Truncated.message (t : Truncated) : String :=
  "composition data truncated: have " ++ Text.decimal t.available ++ " bytes, need " ++
    Text.decimal headerLength

structure Reading where
  /-- The number of the page, which is read as the first page whatever it is. -/
  page : UInt8
  composition : Composition
  /-- How many bytes at the end belong to no complete record. -/
  remainder : Nat
  deriving DecidableEq, Repr

def read : Bytes → Except Truncated Reading
  | page :: c0 :: c1 :: p0 :: p1 :: v0 :: v1 :: r0 :: r1 :: f0 :: f1 :: records =>
    let (elements, tail) := Element.readAll records
    .ok
      { page
        composition :=
          { company := Bytes.word c0 c1
            product := Bytes.word p0 p1
            version := Bytes.word v0 v1
            replayCache := Bytes.word r0 r1
            features := Features.ofBits (Bytes.word f0 f1)
            elements }
        remainder := tail.length }
  | short => .error ⟨short.length⟩

/-- Reads composition data and drops what is left over at the end. -/
def decode (bytes : Bytes) : Except Truncated Composition :=
  match read bytes with
  | .ok reading => .ok reading.composition
  | .error fault => .error fault

end Composition

end MeshFoundation
