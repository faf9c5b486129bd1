import MeshFoundation.Bytes.Hex
import MeshFoundation.CommandLine.Arguments
import MeshFoundation.Composition.Decode
import MeshFoundation.Message.Request
import MeshFoundation.Opcode.Codec
import MeshFoundation.Text.Blank

/-!
# Listings

What the program prints. A payload is given in hexadecimal; blanks around it are
dropped. The listing of an opcode names the message that it belongs to, and the listing
of composition data has one line for everything that a node says about itself, so that
no two different sets of data have the same listing.
-/

set_option autoImplicit false

namespace MeshFoundation

/-- What kind of message an opcode names. -/
inductive Opcode.Meaning where
  | status (status : Status)
  | request (request : Request)
  | unknown
  deriving DecidableEq, Repr

namespace Opcode

/-- The message that an opcode names, whether or not its unreliable flag is set. -/
def meaning (op : Opcode) : Meaning :=
  match Status.ofOpcode? op, Request.ofOpcode? op with
  | some s, _ => .status s
  | none, some r => .request r
  | none, none => .unknown

def Meaning.name : Meaning → String
  | .status s => s.name
  | .request r => r.name
  | .unknown => "unknown"

/-- The listing of an opcode that took the given number of bytes. -/
def listing (op : Opcode) (width : Nat) : List String :=
  ("opcode " ++ op.text ++ " (" ++ Text.decimal width ++ " bytes): " ++ op.meaning.name) ::
    if op = op.reliable then [] else ["unreliable flag set"]

end Opcode

def Text.truth (value : Bool) : String := if value then "true" else "false"

namespace Composition

/-- The line about the features of a node. -/
def featureLine (f : Features) : String :=
  "features Features \x7b relay: " ++ Text.truth f.relay ++ ", proxy: " ++ Text.truth f.proxy ++
    ", friend: " ++ Text.truth f.friend ++ ", low_power: " ++ Text.truth f.lowPower ++ " \x7d"

/-- The lines about an element, which is given with its number. -/
def elementLines (element : Element) (number : Nat) : List String :=
  ("element " ++ Text.decimal number ++ " location " ++
      Text.hexadecimal 4 element.location.toNat) ::
    (element.sigModels.map fun model => "  sig model " ++ Text.hexadecimal 4 model.toNat) ++
    (element.vendorModels.map fun model => "  vendor model " ++ Text.hexadecimal 8 model.toNat)

def listing (c : Composition) : List String :=
  ("company " ++ Text.hexadecimal 4 c.company.toNat ++
      " product " ++ Text.hexadecimal 4 c.product.toNat ++
      " version " ++ Text.hexadecimal 4 c.version.toNat ++
      " replay cache " ++ Text.decimal c.replayCache.toNat) ::
    featureLine c.features ::
    c.elements.zipIdx.flatMap fun (element, number) => elementLines element number

end Composition

namespace CommandLine

/-- Why a payload has no listing. -/
inductive Fault where
  | hex (fault : Hex.Fault)
  | opcode (fault : Opcode.Fault)
  | composition (fault : Composition.Truncated)
  /-- Bytes are left over at the end, and the user does not want that. -/
  | trailing (remainder : Nat)
  deriving DecidableEq, Repr

def Fault.message : Fault → String
  | .hex f => f.message
  | .opcode f => f.message
  | .composition f => f.message
  | .trailing remainder => Text.decimal remainder ++ " trailing bytes after the last element"

/-- The bytes that a payload stands for. -/
def payloadBytes (payload : String) : Except Hex.Fault Bytes :=
  Hex.decode ((Text.trim payload.toList).flatMap String.utf8EncodeChar)

/-- The listing of the opcode at the front of some bytes. -/
def opcodeListing (bytes : Bytes) : Except Fault (List String) :=
  match Opcode.decode bytes with
  | .ok (op, width) => .ok (op.listing width)
  | .error fault => .error (.opcode fault)

/-- The listing of composition data. A strict reader accepts no bytes at the end that
belong to no record. -/
def compositionListing (isStrict : Bool) (bytes : Bytes) : Except Fault (List String) :=
  match Composition.read bytes with
  | .ok reading =>
    if isStrict ∧ 0 < reading.remainder then .error (.trailing reading.remainder)
    else .ok reading.composition.listing
  | .error fault => .error (.composition fault)

def versionLine : String := "meshconfig 0.1.0"

/-- How the program is to be called. -/
def helpLines : List String :=
  ["Decode Bluetooth Mesh configuration messages",
    "",
    "Usage: meshconfig opcode <PAYLOAD>",
    "       meshconfig composition [--strict] <PAYLOAD>",
    "       meshconfig --help | --version"]

/-- What the program prints for a task. -/
def listing : Task → Except Fault (List String)
  | .showVersion => .ok [versionLine]
  | .showHelp => .ok helpLines
  | .opcode payload =>
    match payloadBytes payload with
    | .ok bytes => opcodeListing bytes
    | .error fault => .error (.hex fault)
  | .composition payload isStrict =>
    match payloadBytes payload with
    | .ok bytes => compositionListing isStrict bytes
    | .error fault => .error (.hex fault)

end CommandLine

end MeshFoundation
