import MeshFoundation.Bytes.Order

/-!
# Composition data

What a node says about itself: who made it, which optional features it has, and
which elements it consists of. An element is a part of the node with an address of
its own; it lists the models that it hosts, first those of the standard, then those
of vendors.
-/

set_option autoImplicit false

namespace MeshFoundation

/-- The optional features of a node. -/
structure Features where
  relay : Bool
  proxy : Bool
  friend : Bool
  lowPower : Bool
  deriving DecidableEq, Repr

namespace Features

/-- The features in a bit mask. Only the four lowest bits count. -/
def ofBits (bits : UInt16) : Features :=
  ⟨bits.toNat.testBit 0, bits.toNat.testBit 1, bits.toNat.testBit 2, bits.toNat.testBit 3⟩

def toBits (f : Features) : UInt16 :=
  UInt16.ofNat (f.relay.toNat + 2 * f.proxy.toNat + 4 * f.friend.toNat + 8 * f.lowPower.toNat)

theorem ofBits_toBits (f : Features) : ofBits f.toBits = f := by
  rcases f with ⟨_ | _, _ | _, _ | _, _ | _⟩ <;> decide

end Features

/-- A part of a node with an address and models of its own. -/
structure Element where
  /-- Where on the device the element is. -/
  location : UInt16
  /-- The models of the standard, in the order in which the node lists them. -/
  sigModels : List UInt32
  /-- The models of vendors, each with its company in the upper half. -/
  vendorModels : List UInt32
  deriving DecidableEq, Repr

/-- Every model of an element, those of the standard first. -/
def Element.models (e : Element) : List UInt32 := e.sigModels ++ e.vendorModels

/-- The first page of a node's composition data. -/
structure Composition where
  company : UInt16
  product : UInt16
  version : UInt16
  /-- How many entries the node's replay protection list has at least. -/
  replayCache : UInt16
  features : Features
  /-- The elements in the order of their addresses; the first is the primary one. -/
  elements : List Element
  deriving DecidableEq, Repr

end MeshFoundation
