import MeshFoundation.Counter
import MeshFoundation.Notice
import MeshFoundation.Operation
import MeshFoundation.Pending.Table
import MeshFoundation.Report.Decode
import MeshFoundation.Settings

/-!
# The client

A client sends requests to nodes and tells an observer what became of each. Its state is
the table of pending requests together with the calls that wait for the transport, and
all that it does to the outside is a list of effects.
-/

set_option autoImplicit false

namespace MeshFoundation

open Pending

/-- What became of a request. -/
inductive Outcome where
  | reported (report : Report)
  | unanswered
  deriving DecidableEq, Repr

/-- What an observer is told: a request, and what became of it. -/
structure Event where
  awaited : Awaited
  outcome : Outcome
  deriving DecidableEq, Repr

/-- The report that an event brings, or the failure that it tells of. -/
def Event.result (e : Event) : Except Failure Report :=
  match e.outcome with
  | .reported report => .ok report
  | .unanswered => .error (.noResponse e.awaited.request e.awaited.node)

/-- Whether an event tells of a request that stayed without an answer. -/
def Event.isTimeout (e : Event) : Bool :=
  match e.outcome with
  | .reported _ => false
  | .unanswered => true

/-- A call that waits for the transport. -/
structure Call where
  /-- The number that tells this call from all others. -/
  number : Nat
  request : Request
  message : Message
  /-- Of the pending request. -/
  ticket : Ticket
  deriving DecidableEq, Repr

structure Client where
  settings : Settings
  table : Table
  /-- The calls that wait for the transport, in the order in which they were made. -/
  calls : List Call
  next : Nat
  isObserved : Bool
  deriving DecidableEq, Repr

/-- Something that a step does to the outside. -/
inductive Effect where
  /-- The transport gets the message of a call. -/
  | handedOver (call : Nat) (message : Message)
  /-- The transport accepted the message of a call. -/
  | accepted (call : Nat) (message : Message)
  | told (event : Event)
  | noted (notice : Notice)
  | counted (counter : Counter)
  /-- A call comes back to its caller, with a failure or without. -/
  | returned (call : Nat) (failure? : Option Failure)
  deriving DecidableEq, Repr

namespace Effect

/-- The call and the message that the transport gets. -/
def handOver? : Effect → Option (Nat × Message)
  | .handedOver call message => some (call, message)
  | _ => none

def accepted? : Effect → Option Message
  | .accepted _ message => some message
  | _ => none

def event? : Effect → Option Event
  | .told event => some event
  | _ => none

def notice? : Effect → Option Notice
  | .noted notice => some notice
  | _ => none

def counter? : Effect → Option Counter
  | .counted counter => some counter
  | _ => none

/-- How the call with the given number comes back, with a failure or without. -/
def returned? (call : Nat) : Effect → Option (Option Failure)
  | .returned number failure? => if number = call then some failure? else none
  | _ => none

end Effect

/-- An effect, and the client as it stands when the effect comes. Whoever is reached by the
effect may look at the client. -/
structure Moment where
  client : Client
  effect : Effect
  deriving DecidableEq, Repr

namespace Client

def new (settings : Settings) : Client :=
  { settings, table := Table.empty settings.timeout, calls := [], next := 0, isObserved := true }

/-- The client as a text for inspection. -/
def text (c : Client) : String :=
  "ConfigClient \x7b config: " ++ c.settings.text ++ ", pending: " ++ c.table.text ++ ", .. \x7d"

end Client

end MeshFoundation
