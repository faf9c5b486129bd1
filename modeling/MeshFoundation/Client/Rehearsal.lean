import MeshFoundation.Client.Timeline
import MeshFoundation.Pending.Action

/-!
# Rehearsals of a client

A rehearsal leads a client under a clock through a list of steps and keeps, for each
step, what its owner, its transport and its observer get to see. A request is made in
one of two ways: either the owner waits for the call to come back, and the clock goes on
until it does, or the call is left to a task of its own, and the step in which it comes
back says so.

Events of one step are listed by time, at the same time by node, and for the same node
by opcode, so that the order in which things of one moment happen does not show.
-/

set_option autoImplicit false

namespace MeshFoundation.Client

open Pending

namespace Rehearsal

inductive Step where
  /-- A request, which is left to a task or waited for. -/
  | request (isTask : Bool) (op : Operation) (node : UInt16)
  | receive (source : UInt16) (bytes : Bytes)
  | advance (milliseconds : Nat)
  /-- How the transport deals with the messages that it gets from now on. -/
  | deliver (delivery : Delivery)
  | abort (task : Nat)
  | closeObserver
  | close
  | settings
  | text
  /-- Something to be done with the table of pending requests. -/
  | act (action : Action)
  deriving DecidableEq, Repr

inductive Answer where
  | done
  | failed (failure : Failure)
  | task (number : Nat)
  | settings (settings : Settings)
  | text (content : String)
  | table (answer : Pending.Answer)
  deriving DecidableEq, Repr

/-- An event and when the observer was told of it. -/
structure Told where
  /-- In milliseconds. -/
  time : Nat
  event : Event
  deriving DecidableEq, Repr

/-- Whether an event may stand before another one in a list. -/
def Told.standsBefore (a b : Told) : Bool :=
  ((compare a.time b.time).then (a.event.awaited.order b.event.awaited)).isLE

/-- A task that came back, with a failure or without. -/
structure Finished where
  task : Nat
  failure? : Option Failure
  deriving DecidableEq, Repr

structure Observation where
  answer : Answer
  now : Nat
  /-- The messages that the transport accepted. -/
  sent : List Message
  events : List Told
  /-- How many requests are pending, as long as somebody holds the client. -/
  pending? : Option Nat
  finished : List Finished
  notices : List Notice
  counters : List Counter
  deriving DecidableEq, Repr

end Rehearsal

/-- A client under a clock, with the tickets that its owner got from its table and with
the calls that were left to tasks. -/
structure Rehearsal where
  timeline : Timeline
  /-- How the transport deals with the next message. -/
  delivery : Delivery
  tickets : List Ticket
  /-- The number of the call of each task. -/
  tasks : List Nat
  deriving DecidableEq, Repr

namespace Rehearsal

/-- The start of a rehearsal, with a transport that accepts everything at once. -/
def start (settings : Settings) : Rehearsal :=
  ⟨Timeline.start settings, Delivery.immediate, [], []⟩

/-- How a call comes back by the given effects, if it does. -/
def returned? (effects : List Dated) (call : Nat) : Option (Option Failure) :=
  effects.findSome? fun dated => dated.effect.returned? call

/-- What a caller hears who waits for a call. -/
def callerAnswer (call : Nat) (effects : List Dated) : Answer :=
  match returned? effects call with
  | some (some failure) => .failed failure
  | _ => .done

/-- The tasks that come back by the given effects. -/
def finished (tasks : List Nat) (effects : List Dated) : List Finished :=
  tasks.zipIdx.filterMap fun (call, task) =>
    (returned? effects call).map fun failure? => ⟨task, failure?⟩

/-- The events that the observer is told of by the given effects. -/
def told (effects : List Dated) : List Told :=
  effects.filterMap fun dated => dated.effect.event?.map fun event => ⟨dated.time, event⟩

/-- Lets the clock go on to the given time after something was done, and looks at what
came of it. -/
def conclude (r : Rehearsal) (time : Nat) (effects : List Dated) (answer : List Dated → Answer) :
    Observation × Rehearsal :=
  let (more, timeline) := r.timeline.advanceTo time
  let effects := effects ++ more
  ({ answer := answer effects
     now := timeline.now
     sent := effects.filterMap fun dated => dated.effect.accepted?
     events := (told effects).mergeSort Told.standsBefore
     pending? := if timeline.isClosing then none else some timeline.client.table.length
     finished := finished r.tasks effects
     notices := effects.filterMap fun dated => dated.effect.notice?
     counters := effects.filterMap fun dated => dated.effect.counter? },
    { r with timeline })

/-- When a call that was just made comes back. -/
def returnTime (tl : Timeline) (call : Nat) : Nat :=
  match tl.sendings.find? fun sending => sending.call = call with
  | some sending => sending.ends
  | none => tl.now

/-- Does a step. Whatever falls due at the end of a step belongs to the step. -/
def step (r : Rehearsal) (s : Step) : Observation × Rehearsal :=
  let tl := r.timeline
  match s with
  | .request isTask op node =>
    let call := tl.client.next
    let (effects, timeline) := tl.call r.delivery op node
    if isTask then
      { r with timeline, tasks := r.tasks ++ [call] }.conclude tl.now effects fun _ =>
        .task r.tasks.length
    else { r with timeline }.conclude (returnTime timeline call) effects (callerAnswer call)
  | .receive source bytes =>
    let (effects, timeline) := tl.receive source bytes
    { r with timeline }.conclude tl.now effects fun _ => .done
  | .advance milliseconds => r.conclude (tl.now + milliseconds) [] fun _ => .done
  | .deliver delivery => { r with delivery }.conclude tl.now [] fun _ => .done
  | .abort task =>
    let timeline := (r.tasks[task]?).elim tl tl.abort
    { r with timeline }.conclude tl.now [] fun _ => .done
  | .closeObserver =>
    let timeline := { tl with client := tl.client.closeObserver }
    { r with timeline }.conclude tl.now [] fun _ => .done
  | .close => { r with timeline := tl.close }.conclude tl.now [] fun _ => .done
  | .settings => r.conclude tl.now [] fun _ => .settings tl.client.settings
  | .text => r.conclude tl.now [] fun _ => .text tl.client.text
  | .act action =>
    let (answer, table) := action.perform tl.now r.tickets tl.client.table
    let timeline := { tl with client := { tl.client with table } }
    { r with timeline, tickets := r.tickets ++ answer.tickets }.conclude tl.now
      (tl.dated ((action.notices answer).map .noted)) fun _ => .table answer

def steps (r : Rehearsal) : List Step → List Observation × Rehearsal
  | [] => ([], r)
  | first :: rest =>
    let (observation, r') := r.step first
    let (observations, final) := steps r' rest
    (observation :: observations, final)

/-- The values of the counters after the observed steps. -/
def tally (observations : List Observation) : Tally :=
  Tally.ofList (observations.flatMap Observation.counters)

end Rehearsal

end MeshFoundation.Client
