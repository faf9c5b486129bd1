import MeshFoundation.Parameter.KeyIndex
import MeshFoundation.Text.Span

/-!
# Settings of a client

How long a client waits for an answer, and with which network key its messages are
secured.

Whoever sets a client up starts from the standard settings and changes them one by one, either on
the settings themselves or on the builder of the client, which can also take over settings that
were made elsewhere in place of its own.
-/

set_option autoImplicit false

namespace MeshFoundation

structure Settings where
  /-- How long a request may stay without an answer, in milliseconds. -/
  timeout : Nat
  /-- The index of the network key for outgoing messages. -/
  netKey : UInt16
  deriving DecidableEq, Repr

namespace Settings

/-- Two seconds, and the primary network key. -/
def standard : Settings := ⟨2000, 0⟩

def withTimeout (s : Settings) (timeout : Nat) : Settings := { s with timeout }

/-- The settings with another network key, whose index is checked. -/
def withNetKey (s : Settings) (index : UInt16) : Except ParameterFault Settings :=
  match KeyIndex.check index with
  | .ok netKey => .ok { s with netKey }
  | .error fault => .error fault

/-- A change of the settings. -/
inductive Setter where
  /-- In milliseconds. -/
  | timeout (timeout : Nat)
  | netKey (index : UInt16)
  deriving DecidableEq, Repr

/-- The settings after a change. When a change is refused, whoever asked for it goes on with the
settings that were there before. -/
def set (s : Settings) : Setter → Settings
  | .timeout timeout => s.withTimeout timeout
  | .netKey index =>
    match s.withNetKey index with
    | .ok s' => s'
    | .error _ => s

/-- The settings that a list of changes makes of the standard ones. -/
def ofSetters (setters : List Setter) : Settings := setters.foldl set standard

inductive BuilderStep where
  | set (setter : Setter)
  /-- The builder gets settings that were made by the given changes. -/
  | replace (setters : List Setter)
  deriving DecidableEq, Repr

/-- The settings of a builder after a step. -/
def build (s : Settings) : BuilderStep → Settings
  | .set setter => s.set setter
  | .replace setters => ofSetters setters

/-- The settings that a client gets from a builder which went through a list of steps. -/
def ofSteps (steps : List BuilderStep) : Settings := steps.foldl build standard

/-- The settings as a text for inspection. -/
def text (s : Settings) : String :=
  "ConfigClientConfig \x7b request_timeout: " ++ Text.span s.timeout ++ ", net_key_index: " ++
    Text.decimal s.netKey.toNat ++ " \x7d"

end Settings

end MeshFoundation
