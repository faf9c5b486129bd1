import MeshFoundation.Composition.Basic

/-!
# Writing composition data

The bytes in which a node reports its composition data: the page, five little-endian
words, and a record for each element with its location, the number of its models of
either kind, and their identifiers. A number of models has one byte, so an element with
more than 255 models of a kind has no faithful record.
-/

set_option autoImplicit false

namespace MeshFoundation

/-- The record of an element. -/
def Element.bytes (e : Element) : Bytes :=
  Bytes.ofWord e.location ++
    [Bytes.lowByte e.sigModels.length, Bytes.lowByte e.vendorModels.length] ++
    (e.sigModels.flatMap fun model => Bytes.ofWord (UInt16.ofNat model.toNat)) ++
    (e.vendorModels.flatMap fun model =>
      Bytes.ofWord (UInt16.ofNat (model.toNat / 65536)) ++
        Bytes.ofWord (UInt16.ofNat (model.toNat % 65536)))

/-- The bytes of composition data. -/
def Composition.bytes (page : UInt8) (c : Composition) : Bytes :=
  page :: (Bytes.ofWord c.company ++ Bytes.ofWord c.product ++ Bytes.ofWord c.version ++
    Bytes.ofWord c.replayCache ++ Bytes.ofWord c.features.toBits ++
    c.elements.flatMap Element.bytes)

end MeshFoundation
